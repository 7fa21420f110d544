import PadRemap.Config.Config
import PadRemap.Discovery.Scan
import PadRemap.Device.Path
import PadRemap.Slot.Slot

/-! The manager owns all slots and the shared multiplexer, binds devices that show up and
disconnects those that vanish. -/

namespace PadRemap

abbrev Opener := Identity → Option SourceError

structure Manager where
  slots : List Slot
  rig : Rig
  discovered : List Identity := []
  opened : Nat := 0

inductive Assignment where
  | bound (slot : Nat)
  | alreadyBound
  | noFreeSlot
  | unopened (slot : Nat) (e : SourceError)
  | unstarted (slot : Nat) (e : SlotError)
  deriving DecidableEq, Repr

def Assignment.slot? : Assignment → Option Nat
  | bound slot => some slot
  | _ => none

inductive SetupError where
  | flawed (flaw : ConfigFlaw)
  | slot (e : SlotError)
  deriving DecidableEq, Repr

def SetupError.message : SetupError → String
  | flawed flaw => s!"Slot 0 configuration is invalid: {(ConfigError.flawed flaw).message}"
  | slot e => e.message

namespace Manager

def build (b : Backend) : List (SlotConfig × Nat) → Multiplexer →
    Multiplexer × Except SlotError (List Slot)
  | [], mux => (mux, .ok [])
  | (config, id) :: rest, mux =>
    match mux.performAll b config.declarations with
    | (mux, .error e) => (mux, .error (.output e))
    | (mux, .ok ()) => match Slot.new id config with
      | .error e => (mux, .error e)
      | .ok slot => match build b rest mux with
        | (mux, .ok slots) => (mux, .ok (slot :: slots))
        | failed => failed

/-- A manager for some slots, with all virtual devices active. -/
def new (b : Backend) (configs : List SlotConfig) (deviceName : String) :
    Except SlotError Manager :=
  match build b configs.zipIdx (.new deviceName) with
  | (_, .error e) => .error e
  | (mux, .ok slots) => match mux.finish b with
    | (_, .error e) => .error (.output e)
    | (mux, .ok ()) => .ok { slots, rig := { mux } }

def ofConfig (b : Backend) (c : Config) : Except SetupError Manager :=
  match c.slotConfigs with
  | .error flaw => .error (.flawed flaw)
  | .ok configs => (new b configs c.settings.deviceName).mapError .slot

def setSlot (m : Manager) (i : Nat) (s : Slot) : Manager := { m with slots := m.slots.set i s }

def freeSlot? (m : Manager) (d : Identity) : Option Nat :=
  m.slots.findIdx? fun s => s.state == .unbound && s.accepts d

def discover (m : Manager) (d : Identity) : Manager :=
  if Discovery.present d m.discovered then m else { m with discovered := m.discovered ++ [d] }

def connect (opener : Opener) (m : Manager) (i : Nat) (s : Slot) (d : Identity) :
    Manager × Assignment :=
  match opener d with
  | some e => (m.setSlot i s.abort, .unopened s.id e)
  | none =>
    let source : Source := ⟨m.opened, d.path⟩
    let (s', rig, r) := s.start source m.rig
    let m := { m.setSlot i s' with rig, opened := m.opened + 1 }
    match r with
    | .ok () => (m, .bound s.id)
    | .error e => (m, .unstarted s.id e)

/-- Binds a device to the first free slot that accepts it, unless it is bound already. -/
def assign (opener : Opener) (m : Manager) (d : Identity) : Manager × Assignment :=
  let m := m.discover d
  if m.slots.any fun s => s.holds d then (m, .alreadyBound)
  else match m.freeSlot? d with
    | none => (m, .noFreeSlot)
    | some i => match m.slots[i]? with
      | none => (m, .noFreeSlot)
      | some s => match s.reserve d with
        | (s, .ok ()) => m.connect opener i s d
        | (_, .error e) => (m, .unstarted s.id e)

def remove (m : Manager) (d : Identity) : Manager × Option Nat :=
  let m := { m with discovered := m.discovered.filter fun e => !decide (e.SameDevice d) }
  match m.slots.findIdx? fun s => s.holds d with
  | none => (m, none)
  | some i => match m.slots[i]? with
    | none => (m, none)
    | some s => (m.setSlot i s.tryDisconnect.1, some s.id)

def handle (opener : Opener) (m : Manager) : Discovery.Change → Manager
  | .added d => (m.assign opener d).1
  | .removed d => (m.remove d).1

def reap (m : Manager) : Manager := { m with slots := m.slots.map fun s => s.poll.1 }

/-- Reaps the workers that have ended and lets time pass for the repeat timers. -/
def tick (b : Backend) (m : Manager) (ms : Nat) : Manager :=
  let m := m.reap
  { m with rig := { m.rig with mux := (m.rig.mux.update b ms).1 } }

def onSlot (m : Manager) (i : Nat) (call : Slot → Slot × Except SlotError Unit) :
    Manager × Except SlotError Unit :=
  match m.slots[i]? with
  | none => (m, .error (.noSuchSlot i))
  | some s =>
    let (s, r) := call s
    (m.setSlot i s, r)

def setLed (m : Manager) (i : Nat) (status : UInt8) : Manager × Except SlotError Unit :=
  m.onSlot i fun s => s.setLed status

def setRumble (m : Manager) (i : Nat) (left right : UInt8) : Manager × Except SlotError Unit :=
  m.onSlot i fun s => s.command (.rumble left right)

def eachSlot (act : Slot → Rig → Slot × Rig) : List Slot → Rig → List Slot × Rig
  | [], r => ([], r)
  | s :: rest, r =>
    let (s, r) := act s r
    let (rest, r) := eachSlot act rest r
    (s :: rest, r)

def settle (b : Backend) (m : Manager) : Manager :=
  let (slots, rig) := eachSlot (fun s r => s.work b .idle 0 r) m.slots m.rig
  { m with slots, rig }

def work (b : Backend) (reading : Reading) (ms : Nat) (m : Manager) (i : Nat) : Manager :=
  match m.slots[i]? with
  | none => m
  | some s =>
    let (s, rig) := s.work b reading ms m.rig
    { m.setSlot i s with rig }

def shutdown (b : Backend) (m : Manager) : Manager :=
  let asked := m.slots.map fun s => s.tryDisconnect.1
  let (slots, rig) := eachSlot (fun s r => s.disconnect b r) asked m.rig
  { m with slots, rig }

end Manager

end PadRemap
