import PadRemap.Text

/-! Paths of devices: the numbers in them, and why what a path leads to cannot be opened. -/

namespace PadRemap.Path

def word? (base : Nat) (cs : List Char) : Option UInt16 :=
  (Numeral.unsigned? base 65536 cs).map UInt16.ofNat

def trailingDigits (cs : List Char) : List Char :=
  (cs.reverse.takeWhile Char.isDigit).reverse

/-- Bus and device number of a path such as `0001:0004:00`, both hexadecimal; any other path has
bus 0 and the number at its end, or 0. -/
def usb (path : String) : UInt16 × UInt16 :=
  let cs := path.toList
  let node := (0, (word? 10 (trailingDigits cs)).getD 0)
  match Text.fields ':' cs with
  | bus :: device :: _ => match word? 16 bus, word? 16 device with
    | some b, some d => (b, d)
    | _, _ => node
  | _ => node

/-- The number of an input node such as `/dev/input/event12`, or 0. -/
def eventNode (path : String) : UInt16 :=
  let cs := path.toList
  let number := (Text.afterLast? "event".toList cs).getD cs
  (word? 10 number).getD 0

end PadRemap.Path

namespace PadRemap

inductive OpenFault where
  | nulInPath
  | pathTooLong
  | missing
  | directory
  | noInputDevice
  | rehearsed
  deriving DecidableEq, Repr

namespace OpenFault

def message : OpenFault → String
  | nulInPath => "file name contained an unexpected NUL byte"
  | pathTooLong => "File name too long (os error 36)"
  | missing => "No such file or directory (os error 2)"
  | directory => "Is a directory (os error 21)"
  | noInputDevice => "Inappropriate ioctl for device (os error 25)"
  | rehearsed => "mock device missing"

def longestPath : Nat := 4095

def longestPart : Nat := 255

def isUnnamed (part : String) : Bool := part ∈ ["", ".", ".."]

/-- The fault of a path that leads to no file. Parts are looked up from the left, so the first
one with a name decides: what comes after a missing part is not looked at. -/
def ofPath (path : String) : OpenFault :=
  if '\x00' ∈ path.toList then nulInPath
  else if longestPath < path.utf8ByteSize then pathTooLong
  else if path = "" then missing
  else match (path.splitOn "/").find? (!isUnnamed ·) with
    | none => directory
    | some part => if longestPart < part.utf8ByteSize then pathTooLong else missing

end OpenFault

inductive SourceError where
  | cannotOpen (path : String) (fault : OpenFault)
  | io (reason : String)
  | shortReport (length : Nat)
  | needsUsb (path : String)
  | noHardware (path : String)
  deriving DecidableEq, Repr

namespace SourceError

def message : SourceError → String
  | cannotOpen path fault => s!"Failed to open device {path}: {fault.message}"
  | io reason => s!"Device I/O error: {reason}"
  | shortReport length => s!"Protocol error: short report: {length} bytes"
  | needsUsb path => "Unsupported device: " ++ path ++ " needs the `usb` feature"
  | noHardware path => s!"Unsupported device: mock device {path} has no backing hardware"

end SourceError

end PadRemap
