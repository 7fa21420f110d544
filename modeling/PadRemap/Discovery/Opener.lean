import PadRemap.Device.Identity
import PadRemap.Device.Path

/-! Capture files, and opening a device that was found: without hardware only a capture can be
opened. A capture holds records of 64 bytes, a length byte and the frame filled up with zeros. -/

namespace PadRemap.Capture

def recordLength : Nat := 64

def frameLimit : Nat := 63

def encode (frame : List UInt8) : List UInt8 :=
  let kept := frame.take frameLimit
  UInt8.ofNat kept.length :: kept ++ List.replicate (frameLimit - kept.length) 0

def decodeRecord : List UInt8 → List UInt8
  | [] => []
  | n :: bytes => (bytes.take frameLimit).take n.toNat

def decodeCount : Nat → List UInt8 → List (List UInt8)
  | 0, _ => []
  | count + 1, bytes =>
    decodeRecord (bytes.take recordLength) :: decodeCount count (bytes.drop recordLength)

def decode (bytes : List UInt8) : List (List UInt8) :=
  decodeCount (bytes.length / recordLength) bytes

/-- The path of the capture file of a device: what is no ASCII letter or digit in the device's path
becomes an underscore, and underscores at the ends are dropped. -/
def path (directory devicePath : String) : String :=
  let stem := devicePath.toList.map fun c => if c.isAlphanum then c else '_'
  let stem := stem.dropWhile (· == '_')
  let stem := (stem.reverse.dropWhile (· == '_')).reverse
  let file := String.ofList stem ++ ".cap"
  if directory.isEmpty || directory.endsWith "/" then directory ++ file
  else directory ++ "/" ++ file

abbrev Delivery := Except SourceError (List UInt8)

def throughBuffer (size : Nat) (d : Delivery) : Delivery := d.map fun bytes => bytes.take size

/-- The capture file of some reads: one record for each that brought bytes. -/
def file (reads : List Delivery) : List UInt8 :=
  reads.flatMap fun d => match d with
    | .ok (b :: bytes) => encode (b :: bytes)
    | _ => []

/-- The reads of a replay: one frame each, then the end of the capture. -/
def replay (frames : List (List UInt8)) (reads : Nat) : List Delivery :=
  (List.range reads).map fun i => match frames[i]? with
    | some frame => .ok frame
    | none => .error (.io "end of capture")

end PadRemap.Capture

namespace PadRemap.Discovery

abbrev FileReader := String → Option (List UInt8)

/-- The frames that an opened capture file will deliver, or why a device cannot be opened. A file
or directory opens where a kernel device is wanted, and then turns out not to be one. -/
def openFrames (files : FileReader) (d : Identity) : Except SourceError (List (List UInt8)) :=
  let refuse (fault : OpenFault) := .error (.cannotOpen d.path fault)
  match d.transport, files d.path with
  | .replay, some bytes => .ok (Capture.decode bytes)
  | .replay, none => refuse (.ofPath d.path)
  | .evdev, some _ => refuse .noInputDevice
  | .evdev, none => match OpenFault.ofPath d.path with
    | .directory => refuse .noInputDevice
    | fault => refuse fault
  | .usb, _ | .wireless _, _ => .error (.needsUsb d.path)
  | .mock, _ => .error (.noHardware d.path)

end PadRemap.Discovery
