import PadRemap.Manager.Manager

/-! The manager follows a scanner: each successful scan is compared with the one before, and every
change is handled. -/

namespace PadRemap

inductive ScanResult where
  | found (devices : List Identity)
  | failed
  | crashed
  deriving Repr

inductive Report where
  | found (d : Identity)
  | assigned (d : Identity) (a : Assignment)
  | removed (d : Identity)
  deriving DecidableEq, Repr

def Report.text : Report → String
  | found d => s!"Device found: {d}"
  | removed d => s!"Device removed: {d}"
  | assigned d (.bound slot) => s!"✓ Slot {slot} connected: {d}"
  | assigned d .alreadyBound => s!"{d} is already bound"
  | assigned d .noFreeSlot => s!"No free slot for {d}"
  | assigned _ (.unopened slot e) => s!"Slot {slot}: {e.message}"
  | assigned _ (.unstarted slot e) => s!"Slot {slot}: {e.message}"

namespace Manager

/-- Follows one change and reports it; a vanished device is reported only if it was bound. -/
def follow (opener : Opener) (m : Manager) : Discovery.Change → Manager × List Report
  | .added d =>
    let (m, a) := m.assign opener d
    (m, [.found d, .assigned d a])
  | .removed d => match m.remove d with
    | (m, some _) => (m, [.removed d])
    | (m, none) => (m, [])

def followAll (opener : Opener) : List Discovery.Change → Manager → Manager × List Report
  | [], m => (m, [])
  | c :: cs, m =>
    let (m, first) := m.follow opener c
    let (m, rest) := followAll opener cs m
    (m, first ++ rest)

/-- Follows scans one after the other; `known` is the last successful one. -/
def watch (b : Backend) (opener : Opener) :
    List ScanResult → List Identity → Manager → Manager × List Report
  | [], _, m => (m, [])
  | .crashed :: _, _, m => (m, [])
  | .failed :: scans, known, m => watch b opener scans known m
  | .found now :: scans, known, m =>
    let (m, first) := followAll opener (Discovery.changes known now) m
    let (m, rest) := watch b opener scans now (m.settle b).reap
    (m, first ++ rest)

def run (b : Backend) (opener : Opener) (scans : List ScanResult) (m : Manager) :
    Manager × List Report :=
  let (m, reports) := watch b opener scans [] m
  (m.shutdown b, reports)

end Manager

end PadRemap
