import PadRemap.Single.Parts
import PadRemap.Table

/-! The axes of a pad and their ranges. -/

namespace PadRemap

inductive Axis where
  | x1 | y1 | x2 | y2 | lt | rt | dpadX | dpadY | trigger
  deriving DecidableEq, Repr, Inhabited

namespace Axis

instance : Enumerated Axis where
  size := 9
  index a := ⟨a.ctorIdx, by cases a <;> decide⟩
  ofIndex i := #v[x1, y1, x2, y2, lt, rt, dpadX, dpadY, trigger][i]
  ofIndex_index a := by cases a <;> rfl
  index_ofIndex := by decide

def index (a : Axis) : Nat := (Enumerated.index a).val

def all : List Axis := Enumerated.all Axis

def name : Axis → String
  | x1 => "X1" | y1 => "Y1" | x2 => "X2" | y2 => "Y2" | lt => "LT" | rt => "RT"
  | dpadX => "DPAD_X" | dpadY => "DPAD_Y" | trigger => "TRIGGER"

def spellings : Axis → List String
  | x1 => ["x1"] | y1 => ["y1"] | x2 => ["x2"] | y2 => ["y2"]
  | lt => ["lt", "l2"] | rt => ["rt", "r2"]
  | dpadX => ["dpad_x", "dpadx"] | dpadY => ["dpad_y", "dpady"] | trigger => ["trigger"]

/-- Names compare without regard to the case of ASCII letters. -/
def ofName? (s : String) : Option Axis :=
  let key := s.map Char.toLower
  all.find? fun a => a.spellings.contains key

def min : Axis → Int
  | x1 | y1 | x2 | y2 => -32768
  | lt | rt => 0
  | dpadX | dpadY => -1
  | trigger => -255

def max : Axis → Int
  | x1 | y1 | x2 | y2 => 32767
  | lt | rt => 255
  | dpadX | dpadY => 1
  | trigger => 255

def isStick : Axis → Bool
  | x1 | y1 | x2 | y2 => true
  | _ => false

def isTrigger : Axis → Bool
  | lt | rt => true
  | _ => false

theorem min_le_zero (a : Axis) : a.min ≤ 0 := by cases a <;> decide

theorem zero_lt_max (a : Axis) : 0 < a.max := by cases a <;> decide

theorem min_le_max (a : Axis) : a.min ≤ a.max :=
  Int.le_of_lt (Int.lt_of_le_of_lt a.min_le_zero a.zero_lt_max)

def clamp (a : Axis) (v : Int) : Int := Single.clamp a.min a.max v

def InRange (a : Axis) (v : Int) : Prop := a.min ≤ v ∧ v ≤ a.max

instance (a : Axis) (v : Int) : Decidable (a.InRange v) :=
  inferInstanceAs (Decidable (_ ∧ _))

theorem inRange_clamp (a : Axis) (v : Int) : a.InRange (a.clamp v) :=
  ⟨Single.low_le_clamp a.min_le_max v, Single.clamp_le_high a.min_le_max v⟩

theorem clamp_of_inRange {a : Axis} {v : Int} (h : a.InRange v) : a.clamp v = v :=
  Single.clamp_of_mem h.1 h.2

theorem inRange_zero (a : Axis) : a.InRange 0 :=
  ⟨a.min_le_zero, Int.le_of_lt a.zero_lt_max⟩

end Axis

instance : ToString Axis := ⟨Axis.name⟩

structure UnknownAxis where
  text : String
  deriving DecidableEq, Repr

def UnknownAxis.message (e : UnknownAxis) : String := s!"unknown axis '{e.text}'"

def Axis.parse (s : String) : Except UnknownAxis Axis :=
  match Axis.ofName? s with
  | some a => .ok a
  | none => .error ⟨s⟩

end PadRemap
