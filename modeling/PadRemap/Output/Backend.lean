import PadRemap.Output.Event

/-! The backend that makes virtual devices real, as a table of answers; a journal keeps what it was
given. -/

namespace PadRemap

inductive Fault where
  | io (text : String)
  | operation (text : String)
  deriving DecidableEq, Repr

/-- The answers of a backend: nothing where it obeys, a fault where it refuses. -/
structure Backend where
  create : DeviceId → Blueprint → Option Fault
  emit : DeviceId → List Event → Option Fault

namespace Backend

def reliable : Backend := ⟨fun _ _ => none, fun _ _ => none⟩

def absent (reason : String) : Backend := ⟨fun _ _ => some (.io reason), fun _ _ => none⟩

def refusing (creates emits : List DeviceId) : Backend where
  create d _ := if d ∈ creates then some (.operation s!"create {d}") else none
  emit d _ := if d ∈ emits then some (.operation s!"emit {d}") else none

end Backend

structure Batch where
  device : DeviceId
  events : List Event
  deriving DecidableEq, Repr

/-- What a backend has been given, oldest first. -/
structure Journal where
  created : List (DeviceId × Blueprint) := []
  batches : List Batch := []

namespace Journal

def events (batches : List Batch) : List (DeviceId × Event) :=
  batches.flatMap fun b => b.events.map fun e => (b.device, e)

def count (batches : List Batch) (d : DeviceId) (kind : EventKind) (code : UInt16) : Nat :=
  (events batches).countP fun (id, e) => id == d && e.kind == kind && e.code == code

end Journal

inductive OutputError where
  | unknownDevice (device : DeviceId)
  | alreadyActive
  | notActive
  | backend (fault : Fault)
  deriving DecidableEq, Repr

def OutputError.message : OutputError → String
  | unknownDevice d => s!"No virtual device registered for {d}"
  | alreadyActive => "Virtual devices are already active; capabilities cannot change"
  | notActive => "Virtual devices have not been activated yet"
  | backend (.io text) => s!"Backend I/O failed: {text}"
  | backend (.operation text) => s!"Backend operation failed: {text}"

end PadRemap
