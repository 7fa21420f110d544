import PadRemap.Binding.Event
import PadRemap.Pad.Button

/-! Bindings of one slot: an event for each button, another for each button under a held shift
button, and an event for each axis. -/

namespace PadRemap

structure ButtonBindings where
  plain : Table Button ButtonEvent
  shifted : Table Button (Table Button ButtonEvent)
  deriving DecidableEq

namespace ButtonBindings

def empty : ButtonBindings := ⟨.fill .void, .fill (.fill .void)⟩

def lookup (t : ButtonBindings) (b : Button) : ButtonEvent := t.plain.get b

/-- The event of a button under a held shift button. -/
def lookupShifted (t : ButtonBindings) (shift b : Button) : ButtonEvent :=
  (t.shifted.get shift).get b

def bind (t : ButtonBindings) (b : Button) (e : ButtonEvent) : ButtonBindings :=
  { t with plain := t.plain.set b e }

def bindShifted (t : ButtonBindings) (shift b : Button) (e : ButtonEvent) : ButtonBindings :=
  { t with shifted := t.shifted.set shift ((t.shifted.get shift).set b e) }

def standardLayout : List (Button × UInt16) :=
  [(.faceA, 304), (.faceB, 305), (.faceX, 307), (.faceY, 308), (.start, 315), (.back, 314),
    (.guide, 316), (.lb, 310), (.rb, 311), (.thumbL, 317), (.thumbR, 318)]

def standard : ButtonBindings :=
  standardLayout.foldl (fun t (b, code) => t.bind b (.key DeviceId.joystickKind code)) empty

def shifts (t : ButtonBindings) : List Button :=
  Button.all.filter fun shift => Button.all.any fun b => !(t.lookupShifted shift b).isVoid

/-- The rows in order: unshifted first, then by shift button. -/
def rows (t : ButtonBindings) : List (Option Button × Table Button ButtonEvent) :=
  (none, t.plain) :: Button.all.map fun shift => (some shift, t.shifted.get shift)

def cells (t : ButtonBindings) : List (Option Button × Button × ButtonEvent) :=
  t.rows.flatMap fun (shift, row) =>
    (Button.all.map fun b => (shift, b, row.get b)).filter fun (_, _, e) => !e.isVoid

def events (t : ButtonBindings) : List ButtonEvent := t.cells.map fun (_, _, e) => e

def declarations (t : ButtonBindings) (group : UInt16) : List Call :=
  t.events.flatMap fun e => e.declarations group

@[simp] theorem lookup_bind (t : ButtonBindings) (b c : Button) (e : ButtonEvent) :
    (t.bind b e).lookup c = if c = b then e else t.lookup c := by
  simp [lookup, bind, Table.get_set]

@[simp] theorem lookup_bindShifted (t : ButtonBindings) (s b c : Button) (e : ButtonEvent) :
    (t.bindShifted s b e).lookup c = t.lookup c := rfl

@[simp] theorem lookupShifted_bind (t : ButtonBindings) (b s c : Button) (e : ButtonEvent) :
    (t.bind b e).lookupShifted s c = t.lookupShifted s c := rfl

@[simp] theorem lookupShifted_bindShifted (t : ButtonBindings) (s b s' c : Button)
    (e : ButtonEvent) :
    (t.bindShifted s b e).lookupShifted s' c =
      if s' = s ∧ c = b then e else t.lookupShifted s' c := by
  simp only [lookupShifted, bindShifted, Table.get_set]
  by_cases hs : s' = s
  · subst hs; simp [Table.get_set]
  · simp [hs]

end ButtonBindings

structure AxisBindings where
  table : Table Axis AxisEvent
  deriving DecidableEq

namespace AxisBindings

def empty : AxisBindings := ⟨.fill .void⟩

def lookup (t : AxisBindings) (a : Axis) : AxisEvent := t.table.get a

def bind (t : AxisBindings) (a : Axis) (e : AxisEvent) : AxisBindings :=
  { t with table := t.table.set a e }

def standardLayout : List (Axis × UInt16) :=
  [(.x1, 0), (.y1, 1), (.x2, 3), (.y2, 4), (.lt, 2), (.rt, 5), (.dpadX, 16), (.dpadY, 17)]

def standard : AxisBindings :=
  standardLayout.foldl (fun t (a, code) => t.bind a (.abs DeviceId.joystickKind code)) empty

def cells (t : AxisBindings) : List (Axis × AxisEvent) :=
  (Axis.all.map fun a => (a, t.lookup a)).filter fun (_, e) => !e.isVoid

def declarations (t : AxisBindings) (group : UInt16) : List Call :=
  Axis.all.flatMap fun a => (t.lookup a).declarations group a

@[simp] theorem lookup_bind (t : AxisBindings) (a c : Axis) (e : AxisEvent) :
    (t.bind a e).lookup c = if c = a then e else t.lookup c := by
  simp [lookup, bind, Table.get_set]

end AxisBindings

end PadRemap
