import PadRemap.Output.DeviceId

/-! What virtual devices can do and what is written to them. -/

namespace PadRemap

inductive EventKind where
  | key | rel | abs
  deriving DecidableEq, Repr

structure Event where
  kind : EventKind
  code : UInt16
  value : Int
  deriving DecidableEq, Repr

structure AbsRange where
  min : Int
  max : Int
  fuzz : Int
  flat : Int
  deriving DecidableEq, Repr

namespace AbsRange

def plain (min max : Int) : AbsRange := ⟨min, max, 0, 0⟩

def stick (min max : Int) : AbsRange := ⟨min, max, 16, 128⟩

end AbsRange

/-- Identity and capabilities of a virtual device, fixed before it is activated. -/
structure Blueprint where
  name : String
  vendor : UInt16
  product : UInt16
  keys : Std.ExtTreeSet UInt16 := ∅
  rels : Std.ExtTreeSet UInt16 := ∅
  abs : Std.ExtTreeMap UInt16 AbsRange := ∅

namespace Blueprint

def forDevice (base : String) (d : DeviceId) : Blueprint where
  name := d.displayName base
  vendor := if d.kind = DeviceId.joystickKind then 0x045e else 0
  product := if d.kind = DeviceId.joystickKind then 0x028e else 0

def isEmpty (b : Blueprint) : Bool := b.keys.isEmpty && b.rels.isEmpty && b.abs.isEmpty

def addKey (b : Blueprint) (code : UInt16) : Blueprint := { b with keys := b.keys.insert code }

def addRel (b : Blueprint) (code : UInt16) : Blueprint := { b with rels := b.rels.insert code }

/-- The range declared last counts. -/
def addAbs (b : Blueprint) (code : UInt16) (range : AbsRange) : Blueprint :=
  { b with abs := b.abs.insert code range }

def allows (b : Blueprint) (kind : EventKind) (code : UInt16) : Bool :=
  match kind with
  | .key => b.keys.contains code
  | .rel => b.rels.contains code
  | .abs => b.abs.contains code

end Blueprint

end PadRemap
