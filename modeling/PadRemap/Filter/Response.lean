import PadRemap.Pad.Message
import PadRemap.Single.Shortest

/-! How axes respond: calibration maps a reported range onto the full one, a deadzone silences
small deflections, a sensitivity curve bends an axis, and the square response stretches the round
gate of a stick onto the square. -/

namespace PadRemap

structure Calibration where
  axis : Axis
  low : Int
  center : Int
  high : Int
  deriving DecidableEq, Repr

namespace Calibration

def rest (c : Calibration) : Int := if c.axis.isTrigger then c.axis.min else 0

def scaled (c : Calibration) (v : Int) : Int :=
  if v < c.center then (c.center - v) * (c.rest - c.axis.min)
  else (v - c.center) * (c.axis.max - c.rest)

def width (c : Calibration) (v : Int) : Int :=
  if v < c.center then c.center - c.low else c.high - c.center

def apply (c : Calibration) (v : Int) : Int :=
  let d := (c.scaled v).tdiv (c.width v)
  c.axis.clamp (if v < c.center then c.rest - d else c.rest + d)

/-- The calibrated value, or nothing where it would need a division by zero. -/
def applied? (c : Calibration) (v : Int) : Option Int :=
  if c.width v = 0 then none else some (c.apply v)

def Valid (c : Calibration) : Prop := c.low < c.center ∧ c.center < c.high

instance (c : Calibration) : Decidable c.Valid := inferInstanceAs (Decidable (_ ∧ _))

def update (c : Calibration) (m : Message) : Message := m.setAxis c.axis (c.apply (m.axis c.axis))

def describe (c : Calibration) : String :=
  s!"calibration {c.axis} {c.low}:{c.center}:{c.high}"

end Calibration

structure Deadzone where
  axis : Axis
  threshold : Int
  smooth : Bool
  deriving DecidableEq, Repr

namespace Deadzone

def reach (d : Deadzone) (v : Int) : Int := if v < 0 then -d.axis.min else d.axis.max

def scaled (d : Deadzone) (v : Int) : Int := ((v.natAbs : Int) - d.threshold) * d.reach v

def width (d : Deadzone) (v : Int) : Int := d.reach v - d.threshold

def Silences (d : Deadzone) (v : Int) : Prop := (v.natAbs : Int) < d.threshold

instance (d : Deadzone) (v : Int) : Decidable (d.Silences v) := inferInstanceAs (Decidable (_ < _))

/-- The value past the deadzone; a stretched value is cut to 32 bits. -/
def apply (d : Deadzone) (v : Int) : Int :=
  if d.Silences v then 0
  else if d.smooth then (v.sign * (d.scaled v).tdiv (d.width v)).bmod 4294967296
  else v

def applied? (d : Deadzone) (v : Int) : Option Int :=
  if ¬ d.Silences v ∧ d.smooth ∧ d.width v = 0 then none else some (d.apply v)

def Valid (d : Deadzone) : Prop := 0 ≤ d.threshold ∧ d.threshold < d.axis.max

instance (d : Deadzone) : Decidable d.Valid := inferInstanceAs (Decidable (_ ∧ _))

def update (d : Deadzone) (m : Message) : Message := m.setAxis d.axis (d.apply (m.axis d.axis))

def describe (d : Deadzone) : String :=
  s!"deadzone {d.axis} {d.threshold}" ++ if d.smooth then " (smooth)" else ""

end Deadzone

structure Sensitivity where
  axis : Axis
  value : Float32

namespace Sensitivity

/-- The curve on one side of the centre: `(1 - (1 - p) ^ t) ^ (1 / t)`. -/
def shaped (t p : Float32) : Float32 := (1 - (1 - p).pow t).pow (1 / t)

def curve (value p : Float32) : Float32 :=
  let t := Float32.pow 2 value
  if 0 < p then shaped t p else if p < 0 then -(shaped t (-p)) else 0

def update (s : Sensitivity) (m : Message) : Message :=
  m.setDeflection s.axis (curve s.value (m.deflection s.axis))

def describe (s : Sensitivity) : String := s!"sensitivity {s.axis} {Single.text s.value}"

end Sensitivity

end PadRemap

namespace PadRemap.SquareAxis

def normalize (v : Int) : Float32 :=
  if v < 0 then Float32.ofInt v / 32768 else Float32.ofInt v / 32767

def denormalize (p : Float32) : Int :=
  let p := Message.unitClamp p
  if p < 0 then Single.nearestInt (p * 32768) else Single.nearestInt (p * 32767)

/-- A point of the unit circle moved onto the unit square along its ray; points on a coordinate
axis stay. -/
def squarify (x y : Float32) : Float32 × Float32 :=
  if x == 0 || y == 0 then (x, y)
  else
    let length := (x * x + y * y).sqrt
    let scale := if y.abs < x.abs then (length / x).abs else (length / y).abs
    (x * scale, y * scale)

def stick (m : Message) (xAxis yAxis : Axis) : Message :=
  let (x, y) := squarify (normalize (m.axis xAxis)) (normalize (m.axis yAxis))
  (m.setAxis xAxis (denormalize x)).setAxis yAxis (denormalize y)

def update (m : Message) : Message := stick (stick m .x1 .y1) .x2 .y2

end PadRemap.SquareAxis
