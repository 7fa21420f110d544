import PadRemap.Pad.Message
import Std.Data.ExtTreeMap

/-! Kernel input events are gathered into messages; a sync report completes a frame, and what
follows it waits for the next one. -/

namespace PadRemap.Evdev

structure CodeMaps where
  keys : Std.ExtTreeMap UInt16 Button := ∅
  axes : Std.ExtTreeMap UInt16 Axis := ∅

namespace CodeMaps

def empty : CodeMaps := {}

def bindKey (maps : CodeMaps) (code : UInt16) (b : Button) : CodeMaps :=
  { maps with keys := maps.keys.insert code b }

def bindAxis (maps : CodeMaps) (code : UInt16) (a : Axis) : CodeMaps :=
  { maps with axes := maps.axes.insert code a }

def standardKeys : List (UInt16 × Button) :=
  [(304, .faceA), (305, .faceB), (307, .faceX), (308, .faceY), (310, .lb), (311, .rb),
    (312, .lt), (313, .rt), (314, .back), (315, .start), (316, .guide), (317, .thumbL),
    (318, .thumbR), (544, .dpadUp), (545, .dpadDown), (546, .dpadLeft), (547, .dpadRight)]

def standardAxes : List (UInt16 × Axis) :=
  [(0, .x1), (1, .y1), (3, .x2), (4, .y2), (2, .lt), (5, .rt), (16, .dpadX), (17, .dpadY)]

def standard : CodeMaps :=
  let maps := standardKeys.foldl (fun maps (code, b) => maps.bindKey code b) empty
  standardAxes.foldl (fun maps (code, a) => maps.bindAxis code a) maps

end CodeMaps

structure RawEvent where
  kind : UInt16
  code : UInt16
  value : Int
  deriving DecidableEq, Repr

namespace RawEvent

def key (code : UInt16) (value : Int) : RawEvent := ⟨1, code, value⟩

def abs (code : UInt16) (value : Int) : RawEvent := ⟨3, code, value⟩

def sync : RawEvent := ⟨0, 0, 0⟩

def isSync (e : RawEvent) : Bool := e.kind == 0 && e.code == 0

end RawEvent

/-- A value of a device range moved onto the range of an axis. A dpad axis has only the sides of
the centre; a range without extent leaves the value alone. The integers are unbounded here: in words
of 32 bits `high - low`, `low + high` or `v - (low + high) / 2` overflow where they do not fit. -/
def scale (a : Axis) (v low high : Int) : Int :=
  if high ≤ low then v
  else match a with
    | .dpadX | .dpadY => (v - (low + high).tdiv 2).sign
    | _ => a.min + ((Single.clamp low high v - low) * (a.max - a.min)).tdiv (high - low)

structure Assembler where
  maps : CodeMaps
  ranges : Std.ExtTreeMap UInt16 (Int × Int) := ∅
  frame : Message := .neutral
  pending : List RawEvent := []

namespace Assembler

def push (s : Assembler) (e : RawEvent) : Assembler := { s with pending := s.pending ++ [e] }

def hasPending (s : Assembler) : Bool := !s.pending.isEmpty

def applyKey (maps : CodeMaps) (code : UInt16) (v : Int) (m : Message) : Message :=
  match maps.keys[code]? with
  | none => m
  | some b =>
    let m := m.setButton b (v != 0)
    if b.isDpad then m.syncDpad else m

/-- The range of a code: what the device reports, or else the range of the axis. -/
def rangeOf (ranges : Std.ExtTreeMap UInt16 (Int × Int)) (code : UInt16) (a : Axis) : Int × Int :=
  ranges[code]?.getD (a.min, a.max)

def applyAxis (maps : CodeMaps) (ranges : Std.ExtTreeMap UInt16 (Int × Int)) (code : UInt16)
    (v : Int) (m : Message) : Message :=
  match maps.axes[code]? with
  | none => m
  | some a =>
    let (low, high) := rangeOf ranges code a
    let v := scale a v low high
    match a with
    | .dpadX | .dpadY => m.setDpadAxis a v
    | .lt | .rt => m.setTrigger a v
    | _ => m.setAxis a v

def apply (maps : CodeMaps) (ranges : Std.ExtTreeMap UInt16 (Int × Int)) (m : Message)
    (e : RawEvent) : Message :=
  if e.kind = 1 then applyKey maps e.code e.value m
  else if e.kind = 3 then applyAxis maps ranges e.code e.value m
  else m

/-- Applies events up to the first sync report: the message, and what follows if there was
one. -/
def advance (maps : CodeMaps) (ranges : Std.ExtTreeMap UInt16 (Int × Int)) :
    List RawEvent → Message → Message × Option (List RawEvent)
  | [], m => (m, none)
  | e :: es, m =>
    if e.isSync then (m, some es) else advance maps ranges es (apply maps ranges m e)

/-- The next complete frame, if there is one. Events of an incomplete frame are applied already. -/
def nextFrame (s : Assembler) : Assembler × Option Message :=
  match advance s.maps s.ranges s.pending s.frame with
  | (m, some rest) => ({ s with frame := m, pending := rest }, some m)
  | (m, none) => ({ s with frame := m, pending := [] }, none)

end Assembler

end PadRemap.Evdev
