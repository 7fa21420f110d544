import PadRemap.Table

/-! The buttons of a pad and their names. -/

namespace PadRemap

inductive Button where
  | start | back | guide | thumbL | thumbR | lb | rb | lt | rt
  | faceA | faceB | faceX | faceY
  | dpadUp | dpadDown | dpadLeft | dpadRight
  deriving DecidableEq, Repr, Inhabited

namespace Button

instance : Enumerated Button where
  size := 17
  index b := ⟨b.ctorIdx, by cases b <;> decide⟩
  ofIndex i := #v[start, back, guide, thumbL, thumbR, lb, rb, lt, rt, faceA, faceB, faceX,
    faceY, dpadUp, dpadDown, dpadLeft, dpadRight][i]
  ofIndex_index b := by cases b <;> rfl
  index_ofIndex := by decide

def index (b : Button) : Nat := (Enumerated.index b).val

def all : List Button := Enumerated.all Button

def name : Button → String
  | start => "Start" | back => "Back" | guide => "Guide" | thumbL => "TL" | thumbR => "TR"
  | lb => "LB" | rb => "RB" | lt => "LT" | rt => "RT"
  | faceA => "A" | faceB => "B" | faceX => "X" | faceY => "Y"
  | dpadUp => "DU" | dpadDown => "DD" | dpadLeft => "DL" | dpadRight => "DR"

def spellings : Button → List String
  | start => ["start"] | back => ["back", "select"] | guide => ["guide", "mode"]
  | thumbL => ["tl", "thumbl"] | thumbR => ["tr", "thumbr"]
  | lb => ["lb", "l1"] | rb => ["rb", "r1"] | lt => ["lt", "l2"] | rt => ["rt", "r2"]
  | faceA => ["a"] | faceB => ["b"] | faceX => ["x"] | faceY => ["y"]
  | dpadUp => ["du", "up", "dpadup"] | dpadDown => ["dd", "down", "dpaddown"]
  | dpadLeft => ["dl", "left", "dpadleft"] | dpadRight => ["dr", "right", "dpadright"]

/-- Names compare without regard to the case of ASCII letters. -/
def ofName? (s : String) : Option Button :=
  let key := s.map Char.toLower
  all.find? fun b => b.spellings.contains key

def isDpad : Button → Bool
  | dpadUp | dpadDown | dpadLeft | dpadRight => true
  | _ => false

end Button

instance : ToString Button := ⟨Button.name⟩

structure UnknownButton where
  text : String
  deriving DecidableEq, Repr

def UnknownButton.message (e : UnknownButton) : String := s!"unknown button '{e.text}'"

def Button.parse (s : String) : Except UnknownButton Button :=
  match Button.ofName? s with
  | some b => .ok b
  | none => .error ⟨s⟩

end PadRemap
