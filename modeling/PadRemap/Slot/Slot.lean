import PadRemap.Slot.Worker

/-! A slot is one logical pad with at most one device bound to it. It is connecting while the
device is opened, connected while a worker drives it, and disconnecting from then on until the
worker is reaped. -/

namespace PadRemap

inductive SlotState where
  | unbound | connecting | connected | disconnecting
  deriving DecidableEq, Repr

def SlotState.text : SlotState → String
  | unbound => "unbound"
  | connecting => "connecting"
  | connected => "connected"
  | disconnecting => "disconnecting"

instance : ToString SlotState := ⟨SlotState.text⟩

inductive SlotError where
  | wrongState (id : Nat) (state expected : SlotState)
  | noSuchSlot (id : Nat)
  | notConnected (id : Nat)
  | filter (id : Nat) (e : FilterError)
  | output (e : OutputError)
  deriving DecidableEq, Repr

def SlotError.message : SlotError → String
  | wrongState id state expected => s!"Slot {id} is {state}, expected {expected}"
  | noSuchSlot id => s!"No slot with id {id}"
  | notConnected id => s!"Slot {id} has no device bound"
  | filter id e => s!"Slot {id} configuration is invalid: {e.message}"
  | output e => e.message

structure Slot where
  id : Nat
  config : SlotConfig
  state : SlotState
  led : UInt8
  identity : Option Identity
  pipeline : Option Pipeline
  worker : Option Worker

namespace Slot

/-- The LED status of a slot that has none configured: the next of the four ring positions. -/
def standardLed (id : Nat) : UInt8 := UInt8.ofNat (2 + id % 4)

def new (id : Nat) (config : SlotConfig) : Except SlotError Slot :=
  match Pipeline.ofConfig config with
  | .error e => .error (.filter id e)
  | .ok pipeline => .ok
      { id, config, state := .unbound, led := config.led.getD (standardLed id), identity := none,
        pipeline := some pipeline, worker := none }

def accepts (s : Slot) (d : Identity) : Bool := MatchRule.anyAccepts s.config.rules d

def holds (s : Slot) (d : Identity) : Bool := s.identity.any fun bound => bound.SameDevice d

def isWorking (s : Slot) : Bool := s.worker.any Worker.isRunning

def reserve (s : Slot) (d : Identity) : Slot × Except SlotError Unit :=
  if s.state = .unbound then ({ s with identity := some d, state := .connecting }, .ok ())
  else (s, .error (.wrongState s.id s.state .unbound))

def abort (s : Slot) : Slot :=
  if s.state = .connecting ∧ s.worker.isNone then { s with identity := none, state := .unbound }
  else s

def takePipeline (s : Slot) : Except SlotError Pipeline :=
  match s.pipeline with
  | some p => .ok p
  | none => (Pipeline.ofConfig s.config).mapError (.filter s.id)

/-- Hands an opened source to a new worker, whose first command sets the LED. If that is not
possible the source is released at once. -/
def start (s : Slot) (source : Source) (r : Rig) : Slot × Rig × Except SlotError Unit :=
  if s.state ≠ .connecting then
    (s, r.notice source .released, .error (.wrongState s.id s.state .connecting))
  else match s.takePipeline with
    | .error e => (s, r.notice source .released, .error e)
    | .ok pipeline =>
      let session : Session := { source, pipeline, commands := [.led s.led] }
      ({ s with pipeline := none, worker := some (.running session), state := .connected }, r,
        .ok ())

def work (b : Backend) (reading : Reading) (ms : Nat) (s : Slot) (r : Rig) : Slot × Rig :=
  match s.worker with
  | none => (s, r)
  | some w =>
    let (w, r) := w.turn b reading ms r
    ({ s with worker := some w }, r)

/-- Asks the worker to stop and tells whether there was one; without a worker a reservation is
given up. -/
def tryDisconnect (s : Slot) : Slot × Bool :=
  match s.worker with
  | some w => ({ s with worker := some w.askToStop, state := .disconnecting }, true)
  | none => (s.abort, false)

/-- Takes the pipeline back from an ended worker and frees the slot; a lost pipeline is built
anew. -/
def reap (s : Slot) : Slot :=
  match s.worker with
  | some (.ended left) =>
    let pipeline := match left with
      | some p => some p
      | none => (Pipeline.ofConfig s.config).toOption
    { s with worker := none, pipeline, identity := none, state := .unbound }
  | _ => s

def poll (s : Slot) : Slot × Bool :=
  match s.worker with
  | some (.ended _) => (s.reap, true)
  | _ => (s, false)

def disconnect (b : Backend) (s : Slot) (r : Rig) : Slot × Rig :=
  match s.tryDisconnect with
  | (s, false) => (s, r)
  | (s, true) =>
    let (s, r) := s.work b .idle 0 r
    (s.reap, r)

def command (s : Slot) (c : Command) : Slot × Except SlotError Unit :=
  match s.worker with
  | some (.running session) =>
    let session := { session with commands := session.commands ++ [c] }
    ({ s with worker := some (.running session) }, .ok ())
  | _ => (s, .error (.notConnected s.id))

/-- Sets the LED status, for the bound device and for every later one. The status is kept even if
the bound device cannot be told. -/
def setLed (s : Slot) (status : UInt8) : Slot × Except SlotError Unit :=
  let s := { s with led := status }
  if s.worker.isSome then s.command (.led status) else (s, .ok ())

end Slot

end PadRemap
