import PadRemap.Code.Name
import PadRemap.Config.Slot
import PadRemap.Evdev.Assembler
import PadRemap.Toml.Text

/-! The configuration of the whole program, read from a TOML text and checked as a whole; the first
mistake is reported. -/

namespace PadRemap

structure Settings where
  readTimeout : Nat := 20
  scanInterval : Nat := 1000
  tick : Nat := 10
  deviceName : String := "padrelay"
  evdevGrab : Bool := true
  captureDirectory : Option String := none
  scanEvdev : Bool := true
  scanUsb : Bool := false
  replay : List String := []
  deriving DecidableEq, Repr, Inhabited

namespace Settings

def ofDocument? (surplus : Surplus) (doc : Document) : Option Settings := do
  let fs ← doc.record? surplus 9
  let d : Settings := {}
  let readTimeout ← fs.optional 0 "read_timeout_ms" d.readTimeout (Document.natural? 32)
  let scanInterval ← fs.optional 1 "scan_interval_ms" d.scanInterval (Document.natural? 64)
  let tick ← fs.optional 2 "tick_ms" d.tick (Document.natural? 64)
  let deviceName ← fs.optional 3 "device_name" d.deviceName Document.text?
  let evdevGrab ← fs.optional 4 "evdev_grab" d.evdevGrab Document.flag?
  let captureDirectory ←
    fs.optional 5 "capture_dir" d.captureDirectory (Document.nullable Document.text?)
  let scanEvdev ← fs.optional 6 "scan_evdev" d.scanEvdev Document.flag?
  let scanUsb ← fs.optional 7 "scan_usb" d.scanUsb Document.flag?
  let replay ← fs.optional 8 "replay" d.replay (Document.listOf Document.text?)
  pure
    { readTimeout, scanInterval, tick, deviceName, evdevGrab, captureDirectory, scanEvdev, scanUsb,
      replay }

end Settings

/-- Changes to the code tables, in ascending order of the code names. -/
structure CodeSection where
  keys : List (String × String) := []
  axes : List (String × String) := []
  deriving DecidableEq, Repr

structure Config where
  settings : Settings := {}
  codes : CodeSection := {}
  slots : List SlotSection := []

inductive ConfigFlaw where
  | readTimeout
  | scanInterval
  | tick
  | deviceName
  | noSlots
  | unknownKey (name : String)
  | keyTarget (name : String) (e : UnknownButton)
  | unknownAxisCode (name : String)
  | axisTarget (name : String) (e : UnknownAxis)
  | slot (index : Nat) (e : SectionError)
  deriving DecidableEq, Repr

def ConfigFlaw.message : ConfigFlaw → String
  | readTimeout => "read_timeout_ms must be positive"
  | scanInterval => "scan_interval_ms must be positive"
  | tick => "tick_ms must be positive"
  | deviceName => "device_name must not be empty"
  | noSlots => "At least one slot is required"
  | unknownKey name => s!"evdev.keys: unknown key '{name}'"
  | keyTarget name e => s!"evdev.keys.{name}: {e.message}"
  | unknownAxisCode name => s!"evdev.abs: unknown axis '{name}'"
  | axisTarget name e => s!"evdev.abs.{name}: {e.message}"
  | slot index e => s!"slot {index}: {e.message}"

inductive ConfigError where
  | unreadable (reason : String)
  | malformed
  | flawed (flaw : ConfigFlaw)
  deriving DecidableEq, Repr

def ConfigError.message : ConfigError → String
  | unreadable reason => s!"Failed to read config file: {reason}"
  | malformed => "Failed to parse config file"
  | flawed flaw => s!"Invalid configuration: {flaw.message}"

def CodeSection.ofDocument? (surplus : Surplus) (doc : Document) : Option CodeSection := do
  let fs ← doc.record? surplus 2
  let keys ← fs.optional 0 "keys" [] Document.textTable?
  let axes ← fs.optional 1 "abs" [] Document.textTable?
  pure { keys, axes }

namespace CodeSection

def bindKey (maps : Evdev.CodeMaps) (entry : String × String) :
    Except ConfigFlaw Evdev.CodeMaps := do
  match Code.key? entry.1 with
  | none => throw (.unknownKey entry.1)
  | some code => (Button.parse entry.2).mapError (.keyTarget entry.1) |>.map (maps.bindKey code)

def bindAxis (maps : Evdev.CodeMaps) (entry : String × String) :
    Except ConfigFlaw Evdev.CodeMaps := do
  match Code.absolute? entry.1 with
  | none => throw (.unknownAxisCode entry.1)
  | some code => (Axis.parse entry.2).mapError (.axisTarget entry.1) |>.map (maps.bindAxis code)

def maps (s : CodeSection) : Except ConfigFlaw Evdev.CodeMaps := do
  s.axes.foldlM bindAxis (← s.keys.foldlM bindKey .standard)

end CodeSection

namespace Config

def ofDocument? (surplus : Surplus) (doc : Document) : Option Config := do
  let fs ← doc.record? surplus 3
  let settings ← fs.optional 0 "settings" {} (Settings.ofDocument? surplus)
  let codes ← fs.optional 1 "evdev" {} (CodeSection.ofDocument? surplus)
  let slots ← fs.optional 2 "slots" [] (Document.listOf (SlotSection.ofDocument? surplus))
  pure { settings, codes, slots }

def slotConfigs (c : Config) : Except ConfigFlaw (List SlotConfig) :=
  (c.slots.zipIdx.mapM fun (s, index) => (s.check index).mapError (.slot index))

def settingsFlaw? (c : Config) : Option ConfigFlaw :=
  let s := c.settings
  if s.readTimeout = 0 then some .readTimeout
  else if s.scanInterval = 0 then some .scanInterval
  else if s.tick = 0 then some .tick
  else if (Text.trim s.deviceName.toList).isEmpty then some .deviceName
  else if c.slots.isEmpty then some .noSlots
  else none

/-- Checks the settings, then the code tables, then the slots. -/
def validate (c : Config) : Except ConfigFlaw Unit := do
  match c.settingsFlaw? with
  | some flaw => throw flaw
  | none => pure ()
  let _ ← c.codes.maps
  let _ ← c.slotConfigs
  pure ()

def ofToml (text : String) : Except ConfigError Config :=
  match Toml.document? text >>= ofDocument? .ignored with
  | none => .error .malformed
  | some c => (c.validate.mapError .flawed).map fun _ => c

/-- The configuration of a file; nothing stands for a missing file. -/
def load (file : Option (List UInt8)) : Except ConfigError Config :=
  match file with
  | none => .error (.unreadable "No such file or directory (os error 2)")
  | some bytes => match String.fromUTF8? ⟨bytes.toArray⟩ with
    | none => .error (.unreadable "stream did not contain valid UTF-8")
    | some text => ofToml text

end Config

end PadRemap
