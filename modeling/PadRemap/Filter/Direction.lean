import PadRemap.Pad.Message

/-! The four-way restrictor leaves the cardinal directions only; a rotation turns the dpad. -/

namespace PadRemap

/-- The orientation kept on the last tick with a pressed direction, vertical as `true`. -/
structure FourWay where
  keptVertical : Option Bool := none
  deriving DecidableEq, Repr

namespace FourWay

def restrictStick (m : Message) (xAxis yAxis : Axis) : Message :=
  if (m.axis yAxis).natAbs < (m.axis xAxis).natAbs then m.setAxis yAxis 0 else m.setAxis xAxis 0

def verticalPressed (m : Message) : Bool := m.button .dpadUp || m.button .dpadDown

def horizontalPressed (m : Message) : Bool := m.button .dpadLeft || m.button .dpadRight

/-- The orientation to keep, if any direction is pressed: of two the one kept before, and
vertical if there was none. -/
def orientation (s : FourWay) (m : Message) : Option Bool :=
  match verticalPressed m, horizontalPressed m with
  | true, true => some (s.keptVertical.getD true)
  | true, false => some true
  | false, true => some false
  | false, false => none

def restrictDpad (keepVertical : Bool) (m : Message) : Message :=
  if keepVertical then ((m.setButton .dpadLeft false).setButton .dpadRight false).syncDpad
  else ((m.setButton .dpadUp false).setButton .dpadDown false).syncDpad

def update (s : FourWay) (m : Message) : FourWay × Message :=
  let m := restrictStick (restrictStick m .x1 .y1) .x2 .y2
  match s.orientation m with
  | none => (⟨none⟩, m)
  | some vertical => (⟨some vertical⟩, restrictDpad vertical m)

end FourWay

structure Dpad where
  up : Bool
  down : Bool
  left : Bool
  right : Bool
  deriving DecidableEq, Repr

namespace Dpad

def compass : List Dpad :=
  [⟨true, false, false, false⟩, ⟨true, false, false, true⟩, ⟨false, false, false, true⟩,
    ⟨false, true, false, true⟩, ⟨false, true, false, false⟩, ⟨false, true, true, false⟩,
    ⟨false, false, true, false⟩, ⟨true, false, true, false⟩]

/-- The direction of a message; opposite buttons cancel out. -/
def ofMessage (m : Message) : Dpad where
  up := m.button .dpadUp && !m.button .dpadDown
  down := m.button .dpadDown && !m.button .dpadUp
  left := m.button .dpadLeft && !m.button .dpadRight
  right := m.button .dpadRight && !m.button .dpadLeft

def write (d : Dpad) (m : Message) : Message :=
  ((((m.setButton .dpadUp d.up).setButton .dpadDown d.down).setButton .dpadLeft d.left).setButton
    .dpadRight d.right).syncDpad

def turn? (d : Dpad) (eighths : Nat) : Option Dpad :=
  (compass.idxOf? d).bind fun i => compass[(i + eighths) % 8]?

end Dpad

structure DpadRotation where
  eighths : Nat
  deriving DecidableEq, Repr

namespace DpadRotation

/-- The rotation by a multiple of 45 degrees, counted modulo a full turn. -/
def ofDegrees (degrees : Int) : DpadRotation := ⟨((degrees.tdiv 45) % 8).toNat⟩

def update (r : DpadRotation) (m : Message) : Message :=
  if r.eighths = 0 then m
  else match (Dpad.ofMessage m).turn? r.eighths with
    | none => m
    | some d => d.write m

def describe (r : DpadRotation) : String := s!"dpad rotation {r.eighths * 45} degrees"

end DpadRotation

end PadRemap
