import PadRemap.Binding.Table
import PadRemap.Device.Identity
import PadRemap.Filter.Spec

/-! One slot as it is configured: a section holds texts as they are written, checking turns it into
binding tables. -/

namespace PadRemap

structure SlotSection where
  led : Option UInt8 := none
  group : Option UInt16 := none
  standardBindings : Bool := true
  rules : List MatchRule := []
  buttons : List (String × String) := []
  axes : List (String × String) := []
  filters : List FilterSpec := []

structure SlotConfig where
  buttons : ButtonBindings
  axes : AxisBindings
  filters : List FilterSpec
  group : UInt16
  led : Option UInt8
  rules : List MatchRule

inductive SectionError where
  | filter (e : FilterError)
  | event (e : EventError)
  | button (e : UnknownButton)
  | axis (e : UnknownAxis)
  | ownShift (key : String) (b : Button)
  deriving DecidableEq, Repr

def SectionError.message : SectionError → String
  | filter e => e.message
  | event e => e.message
  | button e => e.message
  | axis e => e.message
  | ownShift key b => s!"'{key}' uses {b} as its own shift"

namespace SlotSection

def ofDocument? (surplus : Surplus) (doc : Document) : Option SlotSection := do
  let fs ← doc.record? surplus 7
  let led ← fs.optional 0 "led" none (Document.nullable Document.byte?)
  let group ← fs.optional 1 "output_group" none (Document.nullable Document.word16?)
  let standardBindings ← fs.optional 2 "default_bindings" true Document.flag?
  let rules ← fs.optional 3 "match" [] (Document.listOf MatchRule.ofDocument?)
  let buttons ← fs.optional 4 "buttons" [] Document.textTable?
  let axes ← fs.optional 5 "axes" [] Document.textTable?
  let filters ← fs.optional 6 "modifiers" [] (Document.listOf FilterSpec.ofDocument?)
  pure { led, group, standardBindings, rules, buttons, axes, filters }

def buttonOf (cs : List Char) : Except SectionError Button :=
  (Button.parse (String.ofList (Text.trim cs))).mapError .button

/-- The cell that a key names: a button, or shift and button joined by the first plus sign. -/
def cellOf (key : String) : Except SectionError (Option Button × Button) :=
  match Text.cut? '+' key.toList with
  | none => (buttonOf key.toList).map fun b => (none, b)
  | some (shift, name) => do
    let s ← buttonOf shift
    let b ← buttonOf name
    if s = b then throw (.ownShift key b)
    pure (some s, b)

/-- Binds an event under a key; the event is checked before the key. -/
def bindButton (t : ButtonBindings) (entry : String × String) :
    Except SectionError ButtonBindings := do
  let e ← (ButtonEvent.parse entry.2).mapError .event
  match ← cellOf entry.1 with
  | (none, b) => pure (t.bind b e)
  | (some s, b) => pure (t.bindShifted s b e)

def bindAxis (t : AxisBindings) (entry : String × String) : Except SectionError AxisBindings := do
  let a ← (Axis.parse (String.ofList (Text.trim entry.1.toList))).mapError .axis
  let e ← (AxisEvent.parse entry.2).mapError .event
  pure (t.bind a e)

def buttonBindings (s : SlotSection) : Except SectionError ButtonBindings :=
  s.buttons.foldlM bindButton (if s.standardBindings then .standard else .empty)

def axisBindings (s : SlotSection) : Except SectionError AxisBindings :=
  s.axes.foldlM bindAxis (if s.standardBindings then .standard else .empty)

/-- The checked slot at an index, which is also its output group unless another is given. -/
def check (s : SlotSection) (index : Nat) : Except SectionError SlotConfig := do
  let _ ← (Chain.ofSpecs s.filters).mapError .filter
  let buttons ← s.buttonBindings
  let axes ← s.axisBindings
  pure
    { buttons, axes, filters := s.filters, group := s.group.getD (UInt16.ofNat index), led := s.led,
      rules := s.rules }

end SlotSection

def SlotConfig.declarations (c : SlotConfig) : List Call :=
  c.buttons.declarations c.group ++ c.axes.declarations c.group

end PadRemap
