import PadRemap.Pad.Axis
import PadRemap.Pad.Button

/-! The state of a pad at one moment, with every axis in its range. Y axes grow downwards. -/

namespace PadRemap

structure Message where
  buttons : Table Button Bool
  axes : Table Axis Int
  deriving DecidableEq

namespace Message

def neutral : Message := ⟨.fill false, .fill 0⟩

instance : Inhabited Message := ⟨neutral⟩

def button (m : Message) (b : Button) : Bool := m.buttons.get b

def axis (m : Message) (a : Axis) : Int := m.axes.get a

def setButton (m : Message) (b : Button) (pressed : Bool) : Message :=
  { m with buttons := m.buttons.set b pressed }

/-- Writes an axis; the value is moved into the axis' range. -/
def setAxis (m : Message) (a : Axis) (v : Int) : Message :=
  { m with axes := m.axes.set a (a.clamp v) }

def pressed (m : Message) : List Button := Button.all.filter m.button

def InRange (m : Message) : Prop := ∀ a : Axis, a.InRange (m.axis a)

@[simp] theorem button_neutral (b : Button) : neutral.button b = false := by
  simp [button, neutral]

@[simp] theorem axis_neutral (a : Axis) : neutral.axis a = 0 := by simp [axis, neutral]

@[simp] theorem button_setButton (m : Message) (b c : Button) (p : Bool) :
    (m.setButton b p).button c = if c = b then p else m.button c := by
  simp [button, setButton, Table.get_set]

@[simp] theorem axis_setButton (m : Message) (b : Button) (p : Bool) (a : Axis) :
    (m.setButton b p).axis a = m.axis a := rfl

@[simp] theorem button_setAxis (m : Message) (a : Axis) (v : Int) (b : Button) :
    (m.setAxis a v).button b = m.button b := rfl

@[simp] theorem axis_setAxis (m : Message) (a c : Axis) (v : Int) :
    (m.setAxis a v).axis c = if c = a then a.clamp v else m.axis c := by
  simp [axis, setAxis, Table.get_set]

@[ext] theorem ext {m n : Message} (hb : ∀ b, m.button b = n.button b)
    (ha : ∀ a, m.axis a = n.axis a) : m = n := by
  cases m; cases n
  congr 1
  · exact Table.ext hb
  · exact Table.ext ha

theorem InRange.neutral : Message.neutral.InRange := fun a => by
  simpa using a.inRange_zero

theorem InRange.setButton {m : Message} (h : m.InRange) (b : Button) (p : Bool) :
    (m.setButton b p).InRange := h

theorem InRange.setAxis {m : Message} (h : m.InRange) (a : Axis) (v : Int) :
    (m.setAxis a v).InRange := fun c => by
  rw [axis_setAxis]
  split
  · next e => subst e; exact Axis.inRange_clamp _ _
  · exact h c

def deflection (m : Message) (a : Axis) : Float32 :=
  let v := Float32.ofInt (m.axis a)
  if v < 0 then v / -(Float32.ofInt a.min) else v / Float32.ofInt a.max

/-- A number moved between -1 and 1; the number that is not one stays. -/
def unitClamp (v : Float32) : Float32 :=
  let v := if v < -1 then -1 else v
  if 1 < v then 1 else v

def setDeflection (m : Message) (a : Axis) (v : Float32) : Message :=
  let v := unitClamp v
  let raw := if v < 0 then v * -(Float32.ofInt a.min) else v * Float32.ofInt a.max
  m.setAxis a (Single.nearestInt raw)

def syncTrigger (m : Message) : Message := m.setAxis .trigger (m.axis .rt - m.axis .lt)

/-- Writes an analog trigger together with its button and the combined axis; any other axis is
written alone. -/
def setTrigger (m : Message) (a : Axis) (v : Int) : Message :=
  let written := m.setAxis a v
  match a with
  | .lt => (written.setButton .lt (0 < written.axis .lt)).syncTrigger
  | .rt => (written.setButton .rt (0 < written.axis .rt)).syncTrigger
  | _ => written

/-- Writes the sign of a value to an axis; a dpad axis sets its two buttons as well. -/
def setDpadAxis (m : Message) (a : Axis) (v : Int) : Message :=
  let written := m.setAxis a v.sign
  let now := written.axis a
  match a with
  | .dpadX => (written.setButton .dpadLeft (now < 0)).setButton .dpadRight (0 < now)
  | .dpadY => (written.setButton .dpadUp (now < 0)).setButton .dpadDown (0 < now)
  | _ => written

def count (m : Message) (b : Button) : Int := if m.button b then 1 else 0

def syncDpad (m : Message) : Message :=
  (m.setAxis .dpadX (m.count .dpadRight - m.count .dpadLeft)).setAxis .dpadY
    (m.count .dpadDown - m.count .dpadUp)

/-- The dpad axes agree with the dpad buttons. -/
def DpadCoherent (m : Message) : Prop :=
  m.axis .dpadX = m.count .dpadRight - m.count .dpadLeft ∧
    m.axis .dpadY = m.count .dpadDown - m.count .dpadUp

instance (m : Message) : Decidable m.DpadCoherent := inferInstanceAs (Decidable (_ ∧ _))

end Message

end PadRemap
