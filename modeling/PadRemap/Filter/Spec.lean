import PadRemap.Document.Value
import PadRemap.Filter.Chain

/-! Filters as they are written in a configuration. Building checks each parameter and says which
one is wrong. -/

namespace PadRemap

inductive FilterSpec where
  | relativeAxis (axis : String) (speed : Int)
  | squareAxis
  | autofire (button : String) (period : Nat)
  | calibration (axis : String) (low center high : Int)
  | sensitivity (axis : String) (value : Float32)
  | deadzone (axis : String) (threshold : Int) (smooth : Bool)
  | fourWay
  | dpadRotation (degrees : Int)

inductive FilterError where
  | unknownButton (e : UnknownButton)
  | unknownAxis (e : UnknownAxis)
  | zeroPeriod (button : Button)
  | unorderedCalibration (c : Calibration)
  | infiniteSensitivity (axis : String)
  | deadzoneOutside (d : Deadzone)
  | unevenRotation (degrees : Int)
  deriving DecidableEq, Repr

def FilterError.message : FilterError → String
  | unknownButton e => e.message
  | unknownAxis e => e.message
  | zeroPeriod b => s!"autofire frequency for {b} must be positive"
  | unorderedCalibration c =>
    s!"calibration for {c.axis} needs min < center < max, got {c.low} {c.center} {c.high}"
  | infiniteSensitivity axis => s!"sensitivity for {axis} must be a finite number"
  | deadzoneOutside d =>
    s!"deadzone for {d.axis} must be within 0..{d.axis.max}, got {d.threshold}"
  | unevenRotation degrees => s!"dpad rotation must be a multiple of 45, got {degrees}"

namespace FilterSpec

def axisOf (s : String) : Except FilterError Axis := (Axis.parse s).mapError .unknownAxis

def buttonOf (s : String) : Except FilterError Button := (Button.parse s).mapError .unknownButton

def build : FilterSpec → Except FilterError Filter
  | relativeAxis axis speed => do
    let a ← axisOf axis
    pure (.integrator (.ofSpeeds [(a, speed)]))
  | squareAxis => pure .squareAxis
  | autofire button period => do
    let b ← buttonOf button
    if period = 0 then throw (.zeroPeriod b)
    pure (.autofire { button := b, period })
  | calibration axis low center high => do
    let c : Calibration := { axis := ← axisOf axis, low, center, high }
    if c.Valid then pure (.calibration c) else throw (.unorderedCalibration c)
  | sensitivity axis value => do
    if !value.isFinite then throw (.infiniteSensitivity axis)
    let a ← axisOf axis
    pure (.sensitivity ⟨a, value⟩)
  | deadzone axis threshold smooth => do
    let d : Deadzone := { axis := ← axisOf axis, threshold, smooth }
    if d.Valid then pure (.deadzone d) else throw (.deadzoneOutside d)
  | fourWay => pure (.fourWay {})
  | dpadRotation degrees => do
    if degrees.tmod 45 ≠ 0 then throw (.unevenRotation degrees)
    pure (.dpadRotation (.ofDegrees degrees))

def axis? : FilterSpec → Option String
  | relativeAxis axis _ | calibration axis _ _ _ | sensitivity axis _ | deadzone axis _ _ =>
    some axis
  | _ => none

end FilterSpec

/-- The chain of some specifications, or the first error among them. -/
def Chain.ofSpecs (specs : List FilterSpec) : Except FilterError Chain :=
  (specs.mapM FilterSpec.build).map Chain.ofFilters

end PadRemap

namespace PadRemap.FilterSpec

def ofDocument? (doc : Document) : Option FilterSpec := do
  let (tag, fs) ← doc.tagged?
  match tag with
  | "relative_axis" => do
    let axis ← fs.required 0 "axis" Document.text?
    let speed ← fs.optional 1 "speed" 10000 Document.int32?
    if fs.atMost 2 then some (relativeAxis axis speed) else none
  | "square_axis" => if fs.atMost 0 then some squareAxis else none
  | "autofire" => do
    let button ← fs.required 0 "button" Document.text?
    let period ← fs.required 1 "frequency" (Document.natural? 32)
    if fs.atMost 2 then some (autofire button period) else none
  | "calibration" => do
    let axis ← fs.required 0 "axis" Document.text?
    let low ← fs.required 1 "min" Document.int32?
    let center ← fs.required 2 "center" Document.int32?
    let high ← fs.required 3 "max" Document.int32?
    if fs.atMost 4 then some (calibration axis low center high) else none
  | "sensitivity" => do
    let axis ← fs.required 0 "axis" Document.text?
    let value ← fs.optional 1 "value" 0 Document.single?
    if fs.atMost 2 then some (sensitivity axis value) else none
  | "deadzone" => do
    let axis ← fs.required 0 "axis" Document.text?
    let threshold ← fs.required 1 "threshold" Document.int32?
    let smooth ← fs.optional 2 "smooth" false Document.flag?
    if fs.atMost 3 then some (deadzone axis threshold smooth) else none
  | "four_way" => if fs.atMost 0 then some fourWay else none
  | "dpad_rotation" => do
    let degrees ← fs.required 0 "degrees" Document.int32?
    if fs.atMost 1 then some (dpadRotation degrees) else none
  | _ => none

end PadRemap.FilterSpec
