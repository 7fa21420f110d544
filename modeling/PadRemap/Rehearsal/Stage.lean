import PadRemap.Rehearsal.Directory
import PadRemap.Slot.Worker

/-! A stage for rehearsals without hardware: pads are opened by path and play a script, and all
pads share one record of what reached them. -/

namespace PadRemap.Rehearsal

structure Pad where
  identity : Identity
  script : List Reading

structure Stage where
  scripts : List (String × List Reading) := []
  failing : List String := []
  opened : List String := []
  pads : List (Option Pad) := []
  plugged : List Identity := []
  releases : Nat := 0
  leds : List UInt8 := []
  rumbles : List (UInt8 × UInt8) := []

namespace Stage

def setScript (s : Stage) (path : String) (script : List Reading) : Stage :=
  { s with scripts := (path, script) :: s.scripts.filter (·.1 != path) }

def fail (s : Stage) (path : String) : Stage := { s with failing := path :: s.failing }

def openPad (s : Stage) (d : Identity) : Stage × Except SourceError Unit :=
  if d.path ∈ s.failing then (s, .error (missing d.path))
  else
    let script := ((s.scripts.find? (·.1 == d.path)).map Prod.snd).getD []
    ({ s with
        opened := s.opened ++ [d.path]
        scripts := s.scripts.filter (·.1 != d.path)
        pads := s.pads ++ [some ⟨d, script⟩] },
      .ok ())

def pad? (s : Stage) (i : Nat) : Option Pad := s.pads[i]?.join

def read (s : Stage) (i : Nat) (p : Pad) (m : Message) :
    Stage × Except SourceError (Bool × Message) :=
  match p.script with
  | [] => (s, .ok (false, m))
  | reading :: rest =>
    let s := { s with pads := s.pads.set i (some { p with script := rest }) }
    match reading with
    | .frame now => (s, .ok (true, now))
    | .idle => (s, .ok (false, m))
    | _ => (s, .error (.io "mock device unplugged"))

def setLed (s : Stage) (status : UInt8) : Stage := { s with leds := s.leds ++ [status] }

def setRumble (s : Stage) (left right : UInt8) : Stage :=
  { s with rumbles := s.rumbles ++ [(left, right)] }

def close (s : Stage) (i : Nat) : Stage :=
  match s.pad? i with
  | none => s
  | some _ => { s with pads := s.pads.set i none, releases := s.releases + 1 }

def plug (s : Stage) (d : Identity) : Stage := { s with plugged := s.plugged ++ [d] }

/-- Removes every plugged device at a path. -/
def unplug (s : Stage) (path : String) : Stage :=
  { s with plugged := s.plugged.filter (·.path != path) }

end Stage

end PadRemap.Rehearsal
