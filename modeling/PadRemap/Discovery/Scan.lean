import PadRemap.Device.Identity

/-! Scanning for devices and comparing scans. Several scanners report together; one that fails
reports nothing. -/

namespace PadRemap

def Identity.ofReplay (index : Nat) (path : String) : Identity where
  transport := .replay
  bus := 0
  address := UInt16.ofNat index
  vendor := 0x045e
  product := 0x028e
  path := path
  name := s!"Replay {path}"

namespace Discovery

inductive Scanner where
  | found (devices : List Identity)
  | failing
  deriving Repr

namespace Scanner

def ofReplays (paths : List String) : Scanner :=
  .found (paths.mapIdx fun i path => Identity.ofReplay i path)

def devices : Scanner → List Identity
  | found ds => ds
  | failing => []

def together (scanners : List Scanner) : List Identity := scanners.flatMap devices

end Scanner

inductive Change where
  | added (device : Identity)
  | removed (device : Identity)
  deriving DecidableEq, Repr

/-- Whether a device is in a list, under whatever name. -/
def present (d : Identity) (devices : List Identity) : Bool :=
  devices.any fun e => d.SameDevice e

/-- The changes from one scan to the next: first what vanished, then what appeared. -/
def changes (before after : List Identity) : List Change :=
  (before.filter fun d => !present d after).map .removed ++
    (after.filter fun d => !present d before).map .added

end Discovery

end PadRemap
