import PadRemap.Output.Backend

/-! The multiplexer owns every virtual device and the repeat timers of relative axes. A call is one
step of a state machine: it takes the answers of the backend and returns the next state together
with its result, also when it fails half way. -/

namespace PadRemap

/-- A virtual device: declared and still growing, or active with events not yet written. -/
inductive Device where
  | declared (blueprint : Blueprint)
  | active (blueprint : Blueprint) (queue : List Event)

/-- A timer that sends a relative value again and again; times are in milliseconds. -/
structure Repeat where
  value : Int
  interval : Nat
  elapsed : Nat
  deriving DecidableEq, Repr

namespace Repeat

def ceiling : Nat := 4294967295

def due (r : Repeat) (ms : Nat) : Nat := min (r.elapsed + ms) ceiling

def firings (r : Repeat) (ms : Nat) : Nat := r.due ms / r.interval

def advance (r : Repeat) (ms : Nat) : Repeat := { r with elapsed := r.due ms % r.interval }

end Repeat

structure Multiplexer where
  base : String
  devices : DeviceMap Device := ∅
  repeats : OutletMap Repeat := ∅
  finished : Bool := false
  journal : Journal := {}

inductive Call where
  | addKey (device : DeviceId) (code : UInt16)
  | addRel (device : DeviceId) (code : UInt16)
  | addAbs (device : DeviceId) (code : UInt16) (range : AbsRange)
  | finish
  | send (device : DeviceId) (event : Event)
  | frame (events : List (DeviceId × Event))
  | setRepeat (device : DeviceId) (code : UInt16) (value interval : Int)
  | update (ms : Nat)
  | sync
  deriving DecidableEq

abbrev Outcome := Multiplexer × Except OutputError Unit

namespace Multiplexer

def new (base : String) : Multiplexer := { base }

def deviceIds (m : Multiplexer) : List DeviceId := m.devices.keys

/-- Changes the declaration of a device, made on first use; refused once devices are active. -/
def declare (m : Multiplexer) (d : DeviceId) (grow : Blueprint → Blueprint) : Outcome :=
  if m.finished then (m, .error .alreadyActive)
  else match m.devices[d]? with
    | some (.active ..) => (m, .error .alreadyActive)
    | some (.declared b) => ({ m with devices := m.devices.insert d (.declared (grow b)) }, .ok ())
    | none =>
      let b := grow (Blueprint.forDevice m.base d)
      ({ m with devices := m.devices.insert d (.declared b) }, .ok ())

/-- Activates the declared devices of a list one after the other. An empty declaration is
dropped, and so is a device that is active already; the first refusal ends the activation, and
the refused declaration is lost. -/
def activate (b : Backend) : List DeviceId → Multiplexer → Outcome
  | [], m => (m, .ok ())
  | d :: ds, m =>
    let rest := { m with devices := m.devices.erase d }
    match m.devices[d]? with
    | some (.declared blueprint) =>
      if blueprint.isEmpty then activate b ds rest
      else match b.create d blueprint with
        | some fault => (rest, .error (.backend fault))
        | none =>
          activate b ds
            { m with
              devices := m.devices.insert d (.active blueprint [])
              journal := { m.journal with created := m.journal.created ++ [(d, blueprint)] } }
    | _ => activate b ds rest

def finish (b : Backend) (m : Multiplexer) : Outcome :=
  if m.finished then (m, .error .alreadyActive)
  else match activate b m.deviceIds m with
    | (m, .ok ()) => ({ m with finished := true }, .ok ())
    | failed => failed

def queue (m : Multiplexer) (d : DeviceId) : Except OutputError (List Event) :=
  if m.finished then
    match m.devices[d]? with
    | some (.active _ queue) => .ok queue
    | _ => .error (.unknownDevice d)
  else .error .notActive

def setQueue (m : Multiplexer) (d : DeviceId) (queue : List Event) : Multiplexer :=
  match m.devices[d]? with
  | some (.active blueprint _) => { m with devices := m.devices.insert d (.active blueprint queue) }
  | _ => m

def send (m : Multiplexer) (d : DeviceId) (e : Event) : Outcome :=
  match m.queue d with
  | .ok q => (m.setQueue d (q ++ [e]), .ok ())
  | .error err => (m, .error err)

/-- Writes the queue of a device as one batch. The queue is empty afterwards even if the backend
refuses the batch. -/
def flush (b : Backend) (m : Multiplexer) (d : DeviceId) : Outcome :=
  match m.devices[d]? with
  | some (.active _ (e :: es)) =>
    let emptied := m.setQueue d []
    match b.emit d (e :: es) with
    | some fault => (emptied, .error (.backend fault))
    | none =>
      ({ emptied with
          journal := { m.journal with batches := m.journal.batches ++ [⟨d, e :: es⟩] } },
        .ok ())
  | _ => (m, .ok ())

/-- Flushes devices one after the other. A refusal does not stop the others; the last one is
the result. -/
def flushAll (b : Backend) : List DeviceId → Multiplexer → Outcome
  | [], m => (m, .ok ())
  | d :: ds, m =>
    let (m, first) := m.flush b d
    match flushAll b ds m with
    | (m, .ok ()) => (m, first)
    | failed => failed

def checkAll (m : Multiplexer) : List DeviceId → Except OutputError Unit
  | [] => .ok ()
  | d :: ds => match m.queue d with
    | .ok _ => m.checkAll ds
    | .error err => .error err

def sendAll : List (DeviceId × Event) → Multiplexer → Outcome
  | [], m => (m, .ok ())
  | (d, e) :: es, m => match m.send d e with
    | (m, .ok ()) => sendAll es m
    | failed => failed

def touched (events : List (DeviceId × Event)) : List DeviceId :=
  DeviceId.ascending (events.map Prod.fst)

/-- Queues and writes a whole frame: only the devices it names are flushed, and nothing is
queued if one of them is unknown. -/
def frame (b : Backend) (m : Multiplexer) (events : List (DeviceId × Event)) : Outcome :=
  if events.isEmpty then (m, .ok ())
  else match m.checkAll (touched events) with
    | .error err => (m, .error err)
    | .ok () => match sendAll events m with
      | (m, .ok ()) => flushAll b (touched events) m
      | failed => failed

/-- Installs or changes the repeat timer of an outlet; a negative interval removes it. A new
timer starts with no time on it, a changed one keeps its time. Nothing is sent at once. -/
def setRepeat (m : Multiplexer) (d : DeviceId) (code : UInt16) (value interval : Int) : Outcome :=
  let o : Outlet := ⟨d, code⟩
  if interval < 0 then ({ m with repeats := m.repeats.erase o }, .ok ())
  else match m.queue d with
    | .error err => (m, .error err)
    | .ok _ =>
      let interval := max interval.toNat 1
      let r : Repeat := match m.repeats[o]? with
        | some r => { r with value, interval }
        | none => { value, interval, elapsed := 0 }
      ({ m with repeats := m.repeats.insert o r }, .ok ())

def firingEvents (ms : Nat) (o : Outlet) (r : Repeat) : List (DeviceId × Event) :=
  List.replicate (r.firings ms) (o.device, ⟨.rel, o.code, r.value⟩)

/-- Lets time pass for every timer; a timer sends once for each full interval. -/
def update (b : Backend) (m : Multiplexer) (ms : Nat) : Outcome :=
  let due := m.repeats.toList.flatMap fun (o, r) => firingEvents ms o r
  let m := { m with repeats := m.repeats.map fun _ r => r.advance ms }
  match sendAll due m with
  | (m, .ok ()) => flushAll b (touched due) m
  | failed => failed

def sync (b : Backend) (m : Multiplexer) : Outcome :=
  if m.finished then flushAll b m.deviceIds m else (m, .error .notActive)

def perform (b : Backend) (m : Multiplexer) : Call → Outcome
  | .addKey d code => m.declare d fun p => p.addKey code
  | .addRel d code => m.declare d fun p => p.addRel code
  | .addAbs d code range => m.declare d fun p => p.addAbs code range
  | .finish => m.finish b
  | .send d e => m.send d e
  | .frame events => m.frame b events
  | .setRepeat d code value interval => m.setRepeat d code value interval
  | .update ms => m.update b ms
  | .sync => m.sync b

def performAll (b : Backend) : List Call → Multiplexer → Outcome
  | [], m => (m, .ok ())
  | c :: cs, m => match m.perform b c with
    | (m, .ok ()) => performAll b cs m
    | failed => failed

end Multiplexer

end PadRemap
