import PadRemap.Document.Value
import PadRemap.Json
import PadRemap.Text

/-! What is known about a physical device, and rules that say which devices a slot accepts. -/

namespace PadRemap

inductive Transport where
  | usb
  | wireless (channel : UInt8)
  | evdev
  | replay
  | mock
  deriving DecidableEq, Repr, Inhabited

namespace Transport

def text : Transport → String
  | usb => "usb"
  | wireless channel => s!"usb-wireless:{channel.toNat}"
  | evdev => "evdev"
  | replay => "replay"
  | mock => "mock"

def json : Transport → Json
  | usb => .text "usb_wired"
  | wireless channel => .table [("usb_wireless", .table [("port", .number channel.toNat)])]
  | evdev => .text "evdev"
  | replay => .text "replay"
  | mock => .text "mock"

def isUsb : Transport → Bool
  | usb | wireless _ => true
  | _ => false

end Transport

structure Identity where
  transport : Transport
  bus : UInt16
  address : UInt16
  vendor : UInt16
  product : UInt16
  path : String
  name : String
  deriving DecidableEq, Repr, Inhabited

namespace Identity

def text (d : Identity) : String :=
  let hex (w : UInt16) : String := Numeral.hexPadded 4 w.toNat
  let place (w : UInt16) : String := Numeral.zeroPadded 3 w.toNat
  s!"{d.name} [{hex d.vendor}:{hex d.product}] {d.transport.text} "
    ++ s!"({place d.bus}:{place d.address} {d.path})"

def fields (d : Identity) : List (String × Json) :=
  [("kind", d.transport.json), ("bus", .number d.bus.toNat),
    ("address", .number d.address.toNat), ("vendor", .number d.vendor.toNat),
    ("product", .number d.product.toNat), ("path", .text d.path), ("name", .text d.name)]

/-- What makes a device the one it is. -/
def anchor (d : Identity) : Transport × UInt16 × UInt16 × String :=
  (d.transport, d.bus, d.address, d.path)

def SameDevice (a b : Identity) : Prop := a.anchor = b.anchor

instance (a b : Identity) : Decidable (a.SameDevice b) :=
  inferInstanceAs (Decidable (_ = _))

theorem sameDevice_equivalence : Equivalence SameDevice where
  refl _ := rfl
  symm h := Eq.symm h
  trans h k := Eq.trans h k

end Identity

instance : ToString Identity := ⟨Identity.text⟩

inductive MatchRule where
  | any
  | usbPath (bus device : UInt16)
  | usbId (vendor product : UInt16)
  | evdevPath (path : String)
  | name (part : String)
  deriving DecidableEq, Repr

namespace MatchRule

def accepts : MatchRule → Identity → Bool
  | any, _ => true
  | usbPath bus device, d => d.transport.isUsb && d.bus == bus && d.address == device
  | usbId vendor product, d => d.vendor == vendor && d.product == product
  | evdevPath path, d => d.transport == .evdev && d.path == path
  | name part, d => Text.occursIn (part.toList.map Char.toLower) (d.name.toList.map Char.toLower)

/-- Whether some rules accept a device; no rules accept every device. -/
def anyAccepts (rules : List MatchRule) (d : Identity) : Bool :=
  rules.isEmpty || rules.any fun r => r.accepts d

def ofDocument? (doc : Document) : Option MatchRule := do
  let (tag, fs) ← doc.tagged?
  match tag with
  | "any" => if fs.atMost 0 then some any else none
  | "usbpath" => do
    let bus ← fs.required 0 "bus" Document.word16?
    let device ← fs.required 1 "dev" Document.word16?
    if fs.atMost 2 then some (usbPath bus device) else none
  | "usbid" => do
    let vendor ← fs.required 0 "vendor" Document.word16?
    let product ← fs.required 1 "product" Document.word16?
    if fs.atMost 2 then some (usbId vendor product) else none
  | "evdevpath" => do
    let path ← fs.required 0 "path" Document.text?
    if fs.atMost 1 then some (evdevPath path) else none
  | "name" => do
    let part ← fs.required 0 "contains" Document.text?
    if fs.atMost 1 then some (name part) else none
  | _ => none

end MatchRule

end PadRemap
