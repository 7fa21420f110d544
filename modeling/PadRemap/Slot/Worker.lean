import PadRemap.Config.Slot
import PadRemap.Mapper.Plan

/-! A worker drives one opened source and sends its messages through a pipeline, filters first and
then the mapper. When it ends it releases the outputs and the source; one that crashes releases
only the source, and its pipeline is lost. -/

namespace PadRemap

structure Pipeline where
  chain : Chain
  mapper : Mapper

namespace Pipeline

def ofConfig (c : SlotConfig) : Except FilterError Pipeline :=
  (Chain.ofSpecs c.filters).map fun chain =>
    { chain, mapper := .new c.buttons c.axes c.group }

def process (b : Backend) (p : Pipeline) (ms : Nat) (m : Message) (mux : Multiplexer) :
    Pipeline × Outcome :=
  let (chain, m) := p.chain.update ms m
  let (mapper, outcome) := p.mapper.runProcess b m mux
  ({ chain, mapper }, outcome)

/-- Releases everything that the mapper holds; the filters keep their memory. -/
def reset (b : Backend) (p : Pipeline) (mux : Multiplexer) : Pipeline × Outcome :=
  let (mapper, outcome) := p.mapper.runReset b mux
  ({ p with mapper }, outcome)

end Pipeline

structure Source where
  serial : Nat
  path : String
  deriving DecidableEq, Repr

inductive Command where
  | led (status : UInt8)
  | rumble (left right : UInt8)
  deriving DecidableEq, Repr

inductive Sighting where
  | command (c : Command)
  | released
  deriving DecidableEq, Repr

structure Rig where
  mux : Multiplexer
  sightings : List (Source × Sighting) := []

namespace Rig

def notice (r : Rig) (s : Source) (what : Sighting) : Rig :=
  { r with sightings := r.sightings ++ [(s, what)] }

def releases (r : Rig) (s : Source) : Nat := r.sightings.count (s, .released)

end Rig

inductive Reading where
  | idle
  | frame (m : Message)
  | failed
  | crashed
  deriving DecidableEq

structure Session where
  source : Source
  pipeline : Pipeline
  commands : List Command := []
  stopAsked : Bool := false
  seen : Message := .neutral

/-- A worker: at work, or ended with the pipeline it leaves behind, if any. -/
inductive Worker where
  | running (session : Session)
  | ended (pipeline : Option Pipeline)

namespace Session

def deliver (s : Session) (r : Rig) : Session × Rig :=
  ({ s with commands := [] }, s.commands.foldl (fun r c => r.notice s.source (.command c)) r)

def close (b : Backend) (s : Session) (r : Rig) : Worker × Rig :=
  let (pipeline, mux, _) := s.pipeline.reset b r.mux
  (.ended (some pipeline), ({ r with mux }).notice s.source .released)

def process (b : Backend) (s : Session) (ms : Nat) (r : Rig) : Worker × Rig :=
  match s.pipeline.process b ms s.seen r.mux with
  | (pipeline, mux, .ok ()) => (.running { s with pipeline }, { r with mux })
  | (pipeline, mux, .error _) => ({ s with pipeline } : Session).close b { r with mux }

/-- One turn, `ms` milliseconds after the one before, in which the source brings `reading`. -/
def turn (b : Backend) (reading : Reading) (ms : Nat) (s : Session) (r : Rig) : Worker × Rig :=
  let (s, r) := s.deliver r
  if s.stopAsked then s.close b r
  else match reading with
    | .idle => s.process b ms r
    | .frame m => ({ s with seen := m } : Session).process b ms r
    | .failed => s.close b r
    | .crashed => (.ended none, r.notice s.source .released)

end Session

namespace Worker

def turn (b : Backend) (reading : Reading) (ms : Nat) (w : Worker) (r : Rig) : Worker × Rig :=
  match w with
  | running s => s.turn b reading ms r
  | ended p => (ended p, r)

def askToStop : Worker → Worker
  | running s => running { s with stopAsked := true }
  | ended p => ended p

def isRunning : Worker → Bool
  | running _ => true
  | ended _ => false

end Worker

end PadRemap
