import PadRemap.Device.Path
import PadRemap.Pad.Message

/-! The 20-byte report of an Xbox 360 pad, and readers of pads on a cable and on one channel of a
wireless receiver. The pad counts stick Y upwards, messages downwards; the receiver repeats the
last LED status as soon as a pad shows up. -/

namespace PadRemap.Xbox

def reportLength : Nat := 20

def reportHeader : List UInt8 := [0x00, 0x14]

/-- A byte of a report; bytes past the end count as zero. -/
def byteAt (bytes : List UInt8) (i : Nat) : Nat := (bytes.getD i 0).toNat

def buttonBits : List (Button × Nat × Nat) :=
  [(.dpadUp, 2, 0), (.dpadDown, 2, 1), (.dpadLeft, 2, 2), (.dpadRight, 2, 3),
    (.start, 2, 4), (.back, 2, 5), (.thumbL, 2, 6), (.thumbR, 2, 7),
    (.lb, 3, 0), (.rb, 3, 1), (.guide, 3, 2),
    (.faceA, 3, 4), (.faceB, 3, 5), (.faceX, 3, 6), (.faceY, 3, 7)]

def stickAt (bytes : List UInt8) (i : Nat) : Int :=
  ((byteAt bytes i + 256 * byteAt bytes (i + 1) : Nat) : Int).bmod 65536

def decodeButtons (bytes : List UInt8) (m : Message) : Message :=
  buttonBits.foldl (fun m (b, i, bit) => m.setButton b ((byteAt bytes i).testBit bit)) m

def decodeAxes (bytes : List UInt8) (m : Message) : Message :=
  let m := m.setTrigger .lt (byteAt bytes 4)
  let m := m.setTrigger .rt (byteAt bytes 5)
  let m := m.setAxis .x1 (stickAt bytes 6)
  let m := m.setAxis .y1 (-1 - stickAt bytes 8)
  let m := m.setAxis .x2 (stickAt bytes 10)
  m.setAxis .y2 (-1 - stickAt bytes 12)

/-- The message after a report; a report that is too short changes nothing. -/
def decode (bytes : List UInt8) (m : Message) : Except SourceError Message :=
  if bytes.length < reportLength then .error (.shortReport bytes.length)
  else .ok (decodeAxes bytes (decodeButtons bytes m)).syncDpad

def bufferLength : Nat := 32

def wirelessLength : Nat := 29

def wirelessOffset : Nat := 4

structure Channel where
  connected : Bool := false
  led : Option UInt8 := none
  deriving DecidableEq, Repr

inductive Reader where
  | wired
  | wireless (channel : Channel)
  deriving DecidableEq, Repr

/-- What follows from one packet or timeout. -/
structure Received where
  reader : Reader
  message : Message
  fresh : Bool
  written : List (List UInt8) := []

namespace Reader

def ledPacket (status : UInt8) : Reader → List UInt8
  | wired => [0x01, 0x03, status]
  | wireless _ => [0x00, 0x00, 0x08, 0x40 + status] ++ List.replicate 8 0

def rumblePacket (left right : UInt8) : Reader → List UInt8
  | wired => [0x00, 0x08, 0x00, left, right, 0x00, 0x00, 0x00]
  | wireless _ => [0x00, 0x01, 0x0f, 0xc0, 0x00, left, right] ++ List.replicate 5 0

def setLed (status : UInt8) : Reader → Reader
  | wired => wired
  | wireless channel => wireless { channel with led := some status }

def connected? : Reader → Option Bool
  | wired => none
  | wireless channel => some channel.connected

def ignore (r : Reader) (m : Message) : Received := { reader := r, message := m, fresh := false }

def report (r : Reader) (bytes : List UInt8) (m : Message) : Except SourceError Received :=
  if reportHeader.isPrefixOf bytes then
    (decode bytes m).map fun m => { reader := r, message := m, fresh := true }
  else .ok (r.ignore m)

def presence (channel : Channel) (flags : UInt8) (m : Message) : Received :=
  let now := flags.toNat.testBit 7
  let r := wireless { channel with connected := now }
  let written := match now && !channel.connected, channel.led with
    | true, some status => [r.ledPacket status]
    | _, _ => []
  { reader := r, message := m, fresh := false, written }

/-- Takes one packet; a timeout is an empty one. -/
def receive (r : Reader) (packet : List UInt8) (m : Message) : Except SourceError Received :=
  let bytes := packet.take bufferLength
  match r with
  | wired => if bytes.length < reportLength then .ok (r.ignore m) else r.report bytes m
  | wireless channel =>
    match bytes with
    | 0x08 :: flags :: _ => .ok (presence channel flags m)
    | 0x00 :: 0x01 :: _ =>
      if bytes.length < wirelessLength then .ok (r.ignore m)
      else r.report ((bytes.drop wirelessOffset).take reportLength) m
    | _ => .ok (r.ignore m)

end Reader

end PadRemap.Xbox
