import PadRemap.Binding.Table
import PadRemap.Pad.Message

/-! A mapper compares each message with the one before and writes what changed as one frame. What
it does to the multiplexer is a plan: the single calls in order, each with the mapper as it stands
when the call is made. -/

namespace PadRemap

structure Mapper where
  buttons : ButtonBindings
  axes : AxisBindings
  group : UInt16
  last : Message := .neutral
  active : Table Button ButtonEvent := .fill .void
  relative : Table Axis Int := .fill 0
  frame : List (DeviceId × Event) := []
  deriving DecidableEq

/-- A call on the multiplexer and the mapper at that moment. If the call fails the mapper stays
as it is there. -/
structure Step where
  call : Call
  mapper : Mapper
  deriving DecidableEq

structure Draft where
  steps : List Step
  mapper : Mapper

namespace Draft

def push (d : Draft) (device : UInt16) (e : Event) : Draft :=
  { d with mapper :=
      { d.mapper with frame := d.mapper.frame ++ [(⟨d.mapper.group, device⟩, e)] } }

def call (d : Draft) (c : Call) : Draft := { d with steps := d.steps ++ [⟨c, d.mapper⟩] }

def setRepeat (d : Draft) (device code : UInt16) (value interval : Int) : Draft :=
  d.call (.setRepeat ⟨d.mapper.group, device⟩ code value interval)

def setActive (d : Draft) (b : Button) (e : ButtonEvent) : Draft :=
  { d with mapper := { d.mapper with active := d.mapper.active.set b e } }

def setRelative (d : Draft) (a : Axis) (v : Int) : Draft :=
  { d with mapper := { d.mapper with relative := d.mapper.relative.set a v } }

def press (d : Draft) : ButtonEvent → Draft
  | .void => d
  | .key device code => d.push device ⟨.key, code, 1⟩
  | .rel device code value interval =>
    let d := d.push device ⟨.rel, code, value⟩
    if 0 ≤ interval then d.setRepeat device code value interval else d
  | .abs device code value => d.push device ⟨.abs, code, value⟩

def release (d : Draft) : ButtonEvent → Draft
  | .void => d
  | .key device code => d.push device ⟨.key, code, 0⟩
  | .rel device code _ _ => d.setRepeat device code 0 (-1)
  | .abs device code _ => d.push device ⟨.abs, code, 0⟩

def drop (d : Draft) (b : Button) : Draft :=
  (d.setActive b .void).release (d.mapper.active.get b)

/-- A change of a shift button ends what was produced by the buttons held before it and bound
under it. -/
def dropShifted (d : Draft) (before : Message) (shift : Button) : Draft :=
  Button.all.foldl
    (fun d b =>
      if b ≠ shift ∧ before.button b ∧ !(d.mapper.buttons.lookupShifted shift b).isVoid then
        d.drop b
      else d)
    d

/-- The event that pressing a button produces: the first one bound under another held button, in
table order, or else the unshifted one. -/
def chosen (t : ButtonBindings) (now : Message) (b : Button) : ButtonEvent :=
  let held := Button.all.filter fun s => s ≠ b ∧ now.button s
  ((held.map fun s => t.lookupShifted s b).find? fun e => !e.isVoid).getD (t.lookup b)

def changeButton (d : Draft) (before now : Message) (b : Button) : Draft :=
  let d := d.dropShifted before b
  if now.button b then
    let e := chosen d.mapper.buttons now b
    (d.setActive b e).press e
  else d.drop b

def relativeValue (speed : Int) (now : Message) (a : Axis) : Int :=
  Single.nearestInt (Float32.ofInt speed * now.deflection a)

/-- An axis has changed. Relative motion is sent at once when the axis leaves its rest, and then
repeated until it is back. -/
def changeAxis (d : Draft) (now : Message) (a : Axis) : Draft :=
  match d.mapper.axes.lookup a with
  | .void => d
  | .abs device code => d.push device ⟨.abs, code, now.axis a⟩
  | .rel device code speed interval =>
    let value := relativeValue speed now a
    let previous := d.mapper.relative.get a
    let d := d.setRelative a value
    if value = 0 then d.setRepeat device code 0 (-1)
    else
      let d := if previous = 0 then d.push device ⟨.rel, code, value⟩ else d
      d.setRepeat device code value interval

def commit (d : Draft) (m : Message) : Draft :=
  let frame := d.mapper.frame
  { d with mapper := { d.mapper with last := m, frame := [] } }.call (.frame frame)

end Draft

namespace Mapper

def new (buttons : ButtonBindings) (axes : AxisBindings) (group : UInt16) : Mapper :=
  { buttons, axes, group }

/-- The plan for a message: changed buttons in table order, then changed axes, then one frame. -/
def process (s : Mapper) (now : Message) : List Step :=
  let before := s.last
  let d : Draft := ⟨[], s⟩
  let d := Button.all.foldl
    (fun d b => if now.button b ≠ before.button b then d.changeButton before now b else d) d
  let d := Axis.all.foldl
    (fun d a => if now.axis a ≠ before.axis a then d.changeAxis now a else d) d
  (d.commit now).steps

def restAxis (s : Mapper) (d : Draft) (a : Axis) : Draft :=
  match s.axes.lookup a with
  | .abs device code => if s.last.axis a ≠ 0 then d.push device ⟨.abs, code, 0⟩ else d
  | .rel device code _ _ =>
    if s.relative.get a ≠ 0 then (d.setRepeat device code 0 (-1)).setRelative a 0 else d
  | .void => d

/-- The plan that releases everything held, centres absolute outputs and stops the timers of
this mapper. -/
def reset (s : Mapper) : List Step :=
  let d : Draft := ⟨[], s⟩
  let d := Button.all.foldl (fun d b => if s.last.button b then d.drop b else d) d
  let d := Axis.all.foldl s.restAxis d
  (d.commit .neutral).steps

def held (s : Mapper) : List (Button × ButtonEvent) :=
  (Button.all.map fun b => (b, s.active.get b)).filter fun (_, e) => !e.isVoid

/-- Carries out a plan up to the first call that fails: the mapper and the multiplexer
afterwards, and the result. -/
def follow (b : Backend) : List Step → Mapper → Multiplexer → Mapper × Outcome
  | [], s, m => (s, m, .ok ())
  | step :: steps, _, m => match m.perform b step.call with
    | (m, .ok ()) => follow b steps step.mapper m
    | failed => (step.mapper, failed)

def runProcess (b : Backend) (s : Mapper) (now : Message) (m : Multiplexer) : Mapper × Outcome :=
  follow b (s.process now) s m

def runReset (b : Backend) (s : Mapper) (m : Multiplexer) : Mapper × Outcome :=
  follow b s.reset s m

end Mapper

end PadRemap
