/-! The pads on a cable and the wireless receivers whose reports are understood. -/

namespace PadRemap

inductive Protocol where
  | wired
  | wireless
  deriving DecidableEq, Repr

structure SupportedDevice where
  vendor : UInt16
  product : UInt16
  protocol : Protocol
  name : String
  deriving DecidableEq, Repr

namespace SupportedDevice

def all : List SupportedDevice :=
  [⟨0x045e, 0x028e, .wired, "Microsoft Xbox 360 Controller"⟩,
    ⟨0x045e, 0x028f, .wired, "Microsoft Xbox 360 Controller (plug-and-charge)"⟩,
    ⟨0x045e, 0x0291, .wireless, "Microsoft Xbox 360 Wireless Receiver"⟩,
    ⟨0x045e, 0x0719, .wireless, "Microsoft Xbox 360 Wireless Receiver"⟩,
    ⟨0x046d, 0xc21d, .wired, "Logitech Gamepad F310"⟩,
    ⟨0x046d, 0xc21e, .wired, "Logitech Gamepad F510"⟩,
    ⟨0x046d, 0xc21f, .wired, "Logitech Gamepad F710"⟩,
    ⟨0x0738, 0x4716, .wired, "Mad Catz Wired Xbox 360 Controller"⟩,
    ⟨0x0738, 0x4726, .wired, "Mad Catz Xbox 360 Controller"⟩,
    ⟨0x0e6f, 0x0201, .wired, "Pelican TSZ360 Pad"⟩,
    ⟨0x12ab, 0x0004, .wired, "Honey Bee Xbox360 dancepad"⟩,
    ⟨0x1430, 0x4748, .wired, "RedOctane Guitar Hero X-plorer"⟩,
    ⟨0x1bad, 0xf016, .wired, "Mad Catz Xbox 360 Controller"⟩,
    ⟨0x24c6, 0x5300, .wired, "PowerA MINI PROEX Controller"⟩]

def find? (vendor product : UInt16) : Option SupportedDevice :=
  all.find? fun d => d.vendor == vendor && d.product == product

end SupportedDevice

end PadRemap
