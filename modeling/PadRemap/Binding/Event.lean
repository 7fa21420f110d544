import PadRemap.Code.Name
import PadRemap.Output.Multiplexer
import PadRemap.Pad.Axis
import PadRemap.Text

/-! What a button or an axis produces, written `[device:]NAME[:value[:repeat]]`, for example
`BTN_X` or `mouse:REL_WHEEL:1:200`. Relative motion is repeated unless its interval is negative. -/

namespace PadRemap

inductive ButtonEvent where
  | void
  | key (device code : UInt16)
  | rel (device code : UInt16) (value interval : Int)
  | abs (device code : UInt16) (value : Int)
  deriving DecidableEq, Repr, Inhabited

inductive AxisEvent where
  | void
  | abs (device code : UInt16)
  | rel (device code : UInt16) (speed interval : Int)
  deriving DecidableEq, Repr, Inhabited

inductive Parameter where
  | value | speed | interval
  deriving DecidableEq, Repr

inductive EventError where
  | empty (text : String)
  | tooMany (text : String)
  | unknownKey (name : String)
  | unknownRelative (name : String)
  | unknownAbsolute (name : String)
  | invalidNumber (parameter : Parameter) (token text : String)
  | notForAxis (text : String)
  deriving DecidableEq, Repr

namespace EventError

def parameterText : Parameter → String
  | .value => "value"
  | .speed => "speed"
  | .interval => "repeat"

def message : EventError → String
  | empty text => s!"empty event '{text}'"
  | tooMany text => s!"too many parameters in '{text}'"
  | unknownKey name => s!"unknown key '{name}'"
  | unknownRelative name => s!"unknown relative axis '{name}'"
  | unknownAbsolute name => s!"unknown absolute axis '{name}'"
  | invalidNumber parameter token text =>
    s!"invalid {parameterText parameter} '{token}' in '{text}'"
  | notForAxis text => s!"axis event must be void, ABS_* or REL_*, got '{text}'"

end EventError

structure EventText where
  text : String
  device : Option UInt16
  name : String
  parameters : List (List Char)
  deriving DecidableEq, Repr

namespace EventText

def device? (token : List Char) : Option UInt16 :=
  let lower := token.map Char.toLower
  match String.ofList lower with
  | "joystick" | "js" => some DeviceId.joystickKind
  | "mouse" => some DeviceId.mouseKind
  | "keyboard" | "kbd" => some DeviceId.keyboardKind
  | _ => Numeral.word16? lower

def deviceText (kind : UInt16) : String :=
  if kind = DeviceId.joystickKind then "joystick"
  else if kind = DeviceId.mouseKind then "mouse"
  else if kind = DeviceId.keyboardKind then "keyboard"
  else toString kind.toNat

def tokens (text : String) : List (List Char) :=
  (Text.fields ':' (Text.trim text.toList)).map Text.trim

def takeDevice : List (List Char) → Option UInt16 × List (List Char)
  | first :: second :: rest => match device? first with
    | some d => (some d, second :: rest)
    | none => (none, first :: second :: rest)
  | other => (none, other)

def parse (text : String) : Except EventError EventText :=
  match takeDevice (tokens text) with
  | (device, name :: parameters) =>
    if name.isEmpty then .error (.empty text)
    else .ok { text, device, name := String.ofList name, parameters }
  | (_, []) => .error (.empty text)

def isVoid (t : EventText) : Bool :=
  let lower := t.name.map Char.toLower
  lower == "void" || lower == "none"

def hasClass (t : EventText) (word : String) : Bool :=
  word.toList.isPrefixOf (t.name.toList.map Char.toUpper)

def atMost (t : EventText) (allowed : Nat) : Except EventError Unit :=
  if allowed < t.parameters.length then .error (.tooMany t.text) else .ok ()

def number (t : EventText) (i : Nat) (parameter : Parameter) (default : Int) :
    Except EventError Int :=
  match t.parameters[i]? with
  | none => .ok default
  | some token => match Numeral.int32? token with
    | some v => .ok v
    | none => .error (.invalidNumber parameter (String.ofList token) t.text)

def relativeCode (t : EventText) : Except EventError UInt16 :=
  match Code.relative? t.name with
  | some c => .ok c
  | none => .error (.unknownRelative t.name)

def absoluteCode (t : EventText) : Except EventError UInt16 :=
  match Code.absolute? t.name with
  | some c => .ok c
  | none => .error (.unknownAbsolute t.name)

def keyCode (t : EventText) : Except EventError UInt16 :=
  match Code.key? t.name with
  | some c => .ok c
  | none => .error (.unknownKey t.name)

/-- The device that is meant when none is written: keyboards for keys, mice for mouse buttons,
joysticks for other buttons. -/
def defaultKeyDevice (t : EventText) (code : UInt16) : UInt16 :=
  if t.hasClass "KEY_" then DeviceId.keyboardKind
  else if Code.isMouseButton code then DeviceId.mouseKind
  else DeviceId.joystickKind

end EventText

namespace ButtonEvent

def isVoid : ButtonEvent → Bool
  | void => true
  | _ => false

/-- Too many parameters are reported before an unknown code, and that before a bad number. -/
def ofText (t : EventText) : Except EventError ButtonEvent :=
  if t.isVoid then do
    t.atMost 0
    pure void
  else if t.hasClass "REL_" then do
    t.atMost 2
    let code ← t.relativeCode
    let value ← t.number 0 .value 3
    let interval ← t.number 1 .interval 100
    pure (rel (t.device.getD DeviceId.mouseKind) code value interval)
  else if t.hasClass "ABS_" then do
    t.atMost 1
    let code ← t.absoluteCode
    let value ← t.number 0 .value 1
    pure (abs (t.device.getD DeviceId.joystickKind) code value)
  else do
    t.atMost 0
    let code ← t.keyCode
    pure (key (t.device.getD (t.defaultKeyDevice code)) code)

def parse (text : String) : Except EventError ButtonEvent := EventText.parse text >>= ofText

def text : ButtonEvent → String
  | void => "void"
  | key d c => s!"{EventText.deviceText d}:{Code.keyName c}"
  | rel d c v ms => s!"{EventText.deviceText d}:{Code.relativeName c}:{v}:{ms}"
  | abs d c v => s!"{EventText.deviceText d}:{Code.absoluteName c}:{v}"

def declarations (group : UInt16) : ButtonEvent → List Call
  | void => []
  | key d c => [.addKey ⟨group, d⟩ c]
  | rel d c _ _ => [.addRel ⟨group, d⟩ c]
  | abs d c v =>
    let reach : Int := max v.natAbs 1
    [.addAbs ⟨group, d⟩ c (.plain (-reach) reach)]

end ButtonEvent

namespace AxisEvent

def isVoid : AxisEvent → Bool
  | void => true
  | _ => false

def ofText (t : EventText) : Except EventError AxisEvent :=
  if t.isVoid then do
    t.atMost 0
    pure void
  else if t.hasClass "REL_" then do
    t.atMost 2
    let code ← t.relativeCode
    let speed ← t.number 0 .speed 10
    let interval ← t.number 1 .interval 10
    pure (rel (t.device.getD DeviceId.mouseKind) code speed interval)
  else if t.hasClass "ABS_" then do
    t.atMost 0
    let code ← t.absoluteCode
    pure (abs (t.device.getD DeviceId.joystickKind) code)
  else .error (.notForAxis t.text)

def parse (text : String) : Except EventError AxisEvent := EventText.parse text >>= ofText

def text : AxisEvent → String
  | void => "void"
  | abs d c => s!"{EventText.deviceText d}:{Code.absoluteName c}"
  | rel d c speed ms => s!"{EventText.deviceText d}:{Code.relativeName c}:{speed}:{ms}"

/-- The declaration that an event needs on an output group; absolute output has the range of the
axis it comes from. -/
def declarations (group : UInt16) (source : Axis) : AxisEvent → List Call
  | void => []
  | abs d c =>
    let range := if source.isStick then AbsRange.stick source.min source.max
      else AbsRange.plain source.min source.max
    [.addAbs ⟨group, d⟩ c range]
  | rel d c _ _ => [.addRel ⟨group, d⟩ c]

end AxisEvent

end PadRemap
