import PadRemap.Filter.Direction
import PadRemap.Filter.Response
import PadRemap.Filter.Timed

/-! A filter reshapes a message once per tick and may remember something for the next tick. A chain
runs its filters stage by stage, so an axis is shaped before the integrator consumes it. -/

namespace PadRemap

inductive Stage where
  | calibration | deadzone | shaping | buttons | integrator
  deriving DecidableEq, Repr

namespace Stage

def all : List Stage := [calibration, deadzone, shaping, buttons, integrator]

def rank : Stage → Nat
  | calibration => 0 | deadzone => 1 | shaping => 2 | buttons => 3 | integrator => 4

end Stage

inductive Filter where
  | calibration (c : Calibration)
  | deadzone (d : Deadzone)
  | sensitivity (s : Sensitivity)
  | squareAxis
  | fourWay (s : FourWay)
  | dpadRotation (r : DpadRotation)
  | autofire (s : Autofire)
  | integrator (s : Integrator)

namespace Filter

def stage : Filter → Stage
  | calibration _ => .calibration
  | deadzone _ => .deadzone
  | sensitivity _ | squareAxis | fourWay _ | dpadRotation _ => .shaping
  | autofire _ => .buttons
  | integrator _ => .integrator

/-- One tick: the filter afterwards and the message it lets through. -/
def update (ms : Nat) : Filter → Message → Filter × Message
  | calibration c, m => (calibration c, c.update m)
  | deadzone d, m => (deadzone d, d.update m)
  | sensitivity s, m => (sensitivity s, s.update m)
  | squareAxis, m => (squareAxis, SquareAxis.update m)
  | fourWay s, m => (s.update m).map fourWay id
  | dpadRotation r, m => (dpadRotation r, r.update m)
  | autofire s, m => (s.update ms m).map autofire id
  | integrator s, m => (s.update ms m).map integrator id

def describe : Filter → String
  | calibration c => c.describe
  | deadzone d => d.describe
  | sensitivity s => s.describe
  | squareAxis => "square-axis"
  | fourWay _ => "four-way restrictor"
  | dpadRotation r => r.describe
  | autofire s => s.describe
  | integrator s => s.describe

end Filter

structure Chain where
  filters : List Filter

namespace Chain

/-- The filters gathered by stage; within a stage the given order stays. -/
def ofFilters (fs : List Filter) : Chain :=
  ⟨Stage.all.flatMap fun s => fs.filter fun f => f.stage = s⟩

def updateAll (ms : Nat) : List Filter → Message → List Filter × Message
  | [], m => ([], m)
  | f :: fs, m =>
    let (f, m) := f.update ms m
    let (fs, m) := updateAll ms fs m
    (f :: fs, m)

def update (c : Chain) (ms : Nat) (m : Message) : Chain × Message :=
  let (fs, m) := updateAll ms c.filters m
  (⟨fs⟩, m)

def stages (c : Chain) : List Stage := c.filters.map Filter.stage

end Chain

end PadRemap
