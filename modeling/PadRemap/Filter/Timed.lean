import PadRemap.Pad.Message

/-! Filters that count milliseconds. Autofire turns a held button into a train of presses; the
integrator sums deflections into a position. -/

namespace PadRemap

structure Autofire where
  button : Button
  period : Nat
  held : Nat := 0
  deriving DecidableEq, Repr

namespace Autofire

/-- Whether the output is down after a hold of some milliseconds. -/
def firing (period held : Nat) : Bool := held / period % 2 == 0

def update (s : Autofire) (ms : Nat) (m : Message) : Autofire × Message :=
  if m.button s.button then
    ({ s with held := s.held + ms }, m.setButton s.button (firing s.period s.held))
  else ({ s with held := 0 }, m)

def describe (s : Autofire) : String := s!"autofire {s.button} every {s.period}ms"

end Autofire

structure Track where
  axis : Axis
  speed : Int
  position : Int := 0
  deriving DecidableEq, Repr

namespace Track

/-- Deflections up to this magnitude leave the position alone. -/
def threshold : Nat := 4000

def fullDeflection : Int := 32768

def pace (t : Track) (v : Int) : Int := (t.speed * v).tdiv fullDeflection

def delta (t : Track) (v : Int) (ms : Nat) : Int := (t.pace v * ms).tdiv 1000

/-- The position after a tick at deflection `v`, kept within 16 bits. -/
def advance (t : Track) (v : Int) (ms : Nat) : Track :=
  if threshold < v.natAbs then
    { t with position := Single.clamp (-32768) 32767 (t.position + t.delta v ms) }
  else t

def update (t : Track) (ms : Nat) (m : Message) : Track × Message :=
  let t := t.advance (m.axis t.axis) ms
  (t, m.setAxis t.axis t.position)

end Track

structure Integrator where
  tracks : List Track
  deriving DecidableEq, Repr

namespace Integrator

def ofSpeeds (speeds : List (Axis × Int)) : Integrator :=
  ⟨speeds.map fun (axis, speed) => { axis, speed }⟩

def updateTracks (ms : Nat) : List Track → Message → List Track × Message
  | [], m => ([], m)
  | t :: ts, m =>
    let (t, m) := t.update ms m
    let (ts, m) := updateTracks ms ts m
    (t :: ts, m)

def update (s : Integrator) (ms : Nat) (m : Message) : Integrator × Message :=
  let (ts, m) := updateTracks ms s.tracks m
  (⟨ts⟩, m)

def position? (s : Integrator) (i : Nat) : Option Int := s.tracks[i]?.map Track.position

def describe (s : Integrator) : String :=
  "relative-axis " ++ ",".intercalate (s.tracks.map fun t => s!"{t.axis}:{t.speed}")

end Integrator

end PadRemap
