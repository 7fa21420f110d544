import PadRemap.Mapper.Plan
import PadRemap.Proofs.Output.Level

/-! What a mapper can write to. The tables of a mapper fix which outputs its buttons and axes
reach; whatever it processes, and whichever call fails, its calls name only those outputs. -/

namespace PadRemap

inductive Origin where
  | button (b : Button)
  | axis (a : Axis)
  deriving DecidableEq, Repr

def ButtonEvent.output? (group : UInt16) : ButtonEvent → Option Output
  | .void => none
  | .key device code => some ⟨⟨group, device⟩, .key, code⟩
  | .rel device code _ _ => some ⟨⟨group, device⟩, .rel, code⟩
  | .abs device code _ => some ⟨⟨group, device⟩, .abs, code⟩

def AxisEvent.output? (group : UInt16) : AxisEvent → Option Output
  | .void => none
  | .abs device code => some ⟨⟨group, device⟩, .abs, code⟩
  | .rel device code _ _ => some ⟨⟨group, device⟩, .rel, code⟩

theorem ButtonEvent.group_of_output? {g : UInt16} {e : ButtonEvent} {o : Output}
    (h : e.output? g = some o) : o.device.group = g := by
  cases e <;> cases h <;> rfl

theorem AxisEvent.group_of_output? {g : UInt16} {e : AxisEvent} {o : Output}
    (h : e.output? g = some o) : o.device.group = g := by
  cases e <;> cases h <;> rfl

def ButtonBindings.Binds (t : ButtonBindings) (b : Button) (e : ButtonEvent) : Prop :=
  e = t.lookup b ∨ ∃ shift, e = t.lookupShifted shift b

/-- The part of a mapper that processing does not change. -/
structure Wiring where
  buttons : ButtonBindings
  axes : AxisBindings
  group : UInt16

namespace Wiring

def CanWrite (w : Wiring) : Origin → Output → Prop
  | .button b, o => ∃ e, w.buttons.Binds b e ∧ e.output? w.group = some o
  | .axis a, o => (w.axes.lookup a).output? w.group = some o

def Uses (w : Wiring) (o : Output) : Prop := ∃ x, w.CanWrite x o

theorem Uses.group {w : Wiring} {o : Output} (h : w.Uses o) : o.device.group = w.group := by
  obtain ⟨x | x, hx⟩ := h
  · obtain ⟨e, -, he⟩ := hx
    exact ButtonEvent.group_of_output? he
  · exact AxisEvent.group_of_output? hx

theorem uses_of_binds {w : Wiring} {b : Button} {e : ButtonEvent} {o : Output}
    (hb : w.buttons.Binds b e) (ho : e.output? w.group = some o) : w.Uses o :=
  ⟨.button b, e, hb, ho⟩

theorem uses_of_lookup {w : Wiring} {a : Axis} {o : Output}
    (ho : (w.axes.lookup a).output? w.group = some o) : w.Uses o :=
  ⟨.axis a, ho⟩

def single (group : UInt16) (b : Button) (e : ButtonEvent) : Wiring :=
  ⟨.bind .empty b e, .empty, group⟩

theorem canWrite_single {group : UInt16} {b : Button} {e : ButtonEvent} {x : Origin} {o : Output} :
    (single group b e).CanWrite x o ↔ x = .button b ∧ e.output? group = some o := by
  cases x with
  | axis a => simp [CanWrite, single, AxisBindings.lookup, AxisBindings.empty, AxisEvent.output?]
  | button c =>
    have hl : (single group b e).buttons.lookup c = if c = b then e else .void := by
      rw [single, ButtonBindings.lookup_bind]
      simp [ButtonBindings.lookup, ButtonBindings.empty]
    have hs : ∀ s, (single group b e).buttons.lookupShifted s c = .void := fun s => by
      simp [single, ButtonBindings.lookupShifted, ButtonBindings.bind, ButtonBindings.empty]
    simp only [CanWrite, ButtonBindings.Binds, hl, hs, Origin.button.injEq]
    constructor
    · rintro ⟨f, rfl | ⟨-, rfl⟩, ho⟩
      · split at ho
        · exact ⟨‹_›, ho⟩
        · cases ho
      · cases ho
    · rintro ⟨rfl, ho⟩
      exact ⟨e, Or.inl (if_pos rfl).symm, ho⟩

def mapper (w : Wiring) : Mapper := .new w.buttons w.axes w.group

end Wiring

namespace Mapper

def wiring (s : Mapper) : Wiring := ⟨s.buttons, s.axes, s.group⟩

/-- A mapper that stays within its wiring: every held event is bound to its button, and the
gathered events are for outputs in use. -/
structure Keeps (w : Wiring) (s : Mapper) : Prop where
  wiring : s.wiring = w
  bound : ∀ b, s.active.get b ≠ .void → w.buttons.Binds b (s.active.get b)
  frame : ∀ x ∈ s.frame, w.Uses (x.2.output x.1)

/-- One use of a mapper: a message to process, or a reset. -/
inductive Job where
  | process (now : Message)
  | reset
  deriving DecidableEq

def Job.message : Job → Message
  | .process now => now
  | .reset => .neutral

def plan (s : Mapper) : Job → List Step
  | .process now => s.process now
  | .reset => s.reset

def draft (s : Mapper) : Job → Draft
  | .process now =>
    Axis.all.foldl (fun d a => if now.axis a ≠ s.last.axis a then d.changeAxis now a else d)
      (Button.all.foldl
        (fun d b => if now.button b ≠ s.last.button b then d.changeButton s.last now b else d)
        ⟨[], s⟩)
  | .reset =>
    Axis.all.foldl s.restAxis
      (Button.all.foldl (fun d b => if s.last.button b then d.drop b else d) ⟨[], s⟩)

def after (s : Mapper) (job : Job) : Mapper :=
  { (s.draft job).mapper with last := job.message, frame := [] }

theorem plan_eq (s : Mapper) (job : Job) :
    s.plan job = (s.draft job).steps ++ [⟨.frame (s.draft job).mapper.frame, s.after job⟩] := by
  cases job <;> rfl

theorem plan_ne_nil (s : Mapper) (job : Job) : s.plan job ≠ [] := by
  rw [plan_eq]
  simp

@[elab_as_elim]
theorem draft_process_induct {motive : Draft → Prop} {s : Mapper} {now : Message}
    (start : motive ⟨[], s⟩)
    (button : ∀ d b, motive d → now.button b ≠ s.last.button b →
      motive (d.changeButton s.last now b))
    (axis : ∀ d a, motive d → now.axis a ≠ s.last.axis a → motive (d.changeAxis now a)) :
    motive (s.draft (.process now)) := by
  refine List.foldlRecOn _ _ (List.foldlRecOn _ _ start fun d hd b _ => ?_) fun d hd a _ => ?_
  · split
    · next hb => exact button d b hd hb
    · exact hd
  · split
    · next ha => exact axis d a hd ha
    · exact hd

@[elab_as_elim]
theorem draft_reset_induct {motive : Draft → Prop} {s : Mapper} (start : motive ⟨[], s⟩)
    (button : ∀ d b, motive d → motive (d.drop b))
    (axis : ∀ d a, motive d → motive (s.restAxis d a)) : motive (s.draft .reset) := by
  refine List.foldlRecOn _ _ (List.foldlRecOn _ _ start fun d hd b _ => ?_) fun d hd a _ =>
    axis d a hd
  split
  · exact button d b hd
  · exact hd

theorem keeps_mapper (w : Wiring) : w.mapper.Keeps w where
  wiring := rfl
  bound _ h := (h (Table.get_fill _ _)).elim
  frame _ h := nomatch h

end Mapper

namespace Draft

structure Keeps (w : Wiring) (d : Draft) : Prop where
  mapper : d.mapper.Keeps w
  steps : ∀ x ∈ d.steps, x.call.Targets w.Uses ∧ x.mapper.Keeps w

theorem chosen_binds (t : ButtonBindings) (now : Message) (b : Button) :
    t.Binds b (chosen t now b) := by
  unfold chosen
  simp only
  cases h : List.find? _ _ with
  | none => exact Or.inl rfl
  | some e =>
    obtain ⟨s, -, rfl⟩ := List.mem_map.mp (List.mem_of_find?_eq_some h)
    exact Or.inr ⟨s, rfl⟩

namespace Keeps

variable {w : Wiring} {d : Draft}

theorem group (h : d.Keeps w) : d.mapper.group = w.group := by rw [← h.mapper.wiring]; rfl

theorem buttons (h : d.Keeps w) : d.mapper.buttons = w.buttons := by rw [← h.mapper.wiring]; rfl

theorem axes (h : d.Keeps w) : d.mapper.axes = w.axes := by rw [← h.mapper.wiring]; rfl

theorem push (h : d.Keeps w) {device : UInt16} {e : Event}
    (hu : w.Uses ⟨⟨w.group, device⟩, e.kind, e.code⟩) : (d.push device e).Keeps w where
  mapper := ⟨h.mapper.wiring, h.mapper.bound, by
    intro x hx
    rcases List.mem_append.mp hx with hx | hx
    · exact h.mapper.frame x hx
    · rw [List.mem_singleton.mp hx, h.group]
      exact hu⟩
  steps := h.steps

theorem setRepeat (h : d.Keeps w) {device code : UInt16} (value interval : Int)
    (hu : w.Uses ⟨⟨w.group, device⟩, .rel, code⟩) :
    (d.setRepeat device code value interval).Keeps w where
  mapper := h.mapper
  steps := by
    intro x hx
    rcases List.mem_append.mp hx with hx | hx
    · exact h.steps x hx
    · rw [List.mem_singleton.mp hx, h.group]
      exact ⟨hu, h.mapper⟩

theorem setActive (h : d.Keeps w) {b : Button} {e : ButtonEvent}
    (he : e ≠ .void → w.buttons.Binds b e) : (d.setActive b e).Keeps w where
  mapper := ⟨h.mapper.wiring, by
    intro c hc
    change (d.mapper.active.set b e).get c ≠ .void at hc
    change w.buttons.Binds c ((d.mapper.active.set b e).get c)
    rw [Table.get_set] at hc ⊢
    split at hc
    · next hcb =>
      subst hcb
      rw [if_pos rfl]
      exact he hc
    · next hcb =>
      rw [if_neg hcb]
      exact h.mapper.bound c hc, h.mapper.frame⟩
  steps := h.steps

theorem setRelative (h : d.Keeps w) (a : Axis) (v : Int) : (d.setRelative a v).Keeps w :=
  ⟨⟨h.mapper.wiring, h.mapper.bound, h.mapper.frame⟩, h.steps⟩

theorem pressed (h : d.Keeps w) {b : Button} {e : ButtonEvent} (hb : w.buttons.Binds b e) :
    (d.press e).Keeps w := by
  cases e with
  | void => exact h
  | key device code => exact h.push (Wiring.uses_of_binds hb rfl)
  | rel device code v i =>
    have hu : w.Uses ⟨⟨w.group, device⟩, .rel, code⟩ := Wiring.uses_of_binds hb rfl
    unfold Draft.press
    simp only
    split
    · exact (h.push hu).setRepeat v i hu
    · exact h.push hu
  | abs device code v => exact h.push (Wiring.uses_of_binds hb rfl)

theorem release (h : d.Keeps w) {b : Button} {e : ButtonEvent}
    (hb : e ≠ .void → w.buttons.Binds b e) : (d.release e).Keeps w := by
  cases e with
  | void => exact h
  | key device code => exact h.push (Wiring.uses_of_binds (hb (by simp)) rfl)
  | rel device code v i => exact h.setRepeat _ _ (Wiring.uses_of_binds (hb (by simp)) rfl)
  | abs device code v => exact h.push (Wiring.uses_of_binds (hb (by simp)) rfl)

theorem drop (h : d.Keeps w) (b : Button) : (d.drop b).Keeps w :=
  (h.setActive fun hv => (hv rfl).elim).release (h.mapper.bound b)

theorem press (h : d.Keeps w) {b : Button} {e : ButtonEvent} (hb : w.buttons.Binds b e) :
    ((d.setActive b e).press e).Keeps w :=
  (h.setActive fun _ => hb).pressed hb

theorem dropShifted (h : d.Keeps w) (before : Message) (shift : Button) :
    (d.dropShifted before shift).Keeps w := by
  refine List.foldlRecOn _ _ h fun d h b _ => ?_
  split
  · exact h.drop b
  · exact h

theorem changeButton (h : d.Keeps w) (before now : Message) (b : Button) :
    (d.changeButton before now b).Keeps w := by
  have hd := h.dropShifted before b
  unfold Draft.changeButton
  simp only
  split
  · rw [hd.buttons]
    exact hd.press (chosen_binds _ _ _)
  · exact hd.drop b

theorem changeAxis (h : d.Keeps w) (now : Message) (a : Axis) : (d.changeAxis now a).Keeps w := by
  unfold Draft.changeAxis
  rw [h.axes]
  split
  · exact h
  · next device code he =>
    exact h.push (Wiring.uses_of_lookup (congrArg (AxisEvent.output? w.group) he))
  · next device code speed interval he =>
    have hu : w.Uses ⟨⟨w.group, device⟩, .rel, code⟩ :=
      Wiring.uses_of_lookup (congrArg (AxisEvent.output? w.group) he)
    have hd := h.setRelative a (relativeValue speed now a)
    simp only
    split
    · exact hd.setRepeat _ _ hu
    · split
      · exact (hd.push hu).setRepeat _ _ hu
      · exact hd.setRepeat _ _ hu

theorem restAxis (h : d.Keeps w) {s : Mapper} (hs : s.wiring = w) (a : Axis) :
    (s.restAxis d a).Keeps w := by
  subst hs
  unfold Mapper.restAxis
  split
  · next device code he =>
    split
    · exact h.push (Wiring.uses_of_lookup (congrArg (AxisEvent.output? s.group) he))
    · exact h
  · next device code speed interval he =>
    have hu : s.wiring.Uses ⟨⟨s.group, device⟩, .rel, code⟩ :=
      Wiring.uses_of_lookup (congrArg (AxisEvent.output? s.group) he)
    split
    · exact (h.setRepeat 0 (-1) hu).setRelative a 0
    · exact h
  · exact h

end Keeps

end Draft

namespace Mapper

variable {w : Wiring} {s : Mapper}

theorem Keeps.draft (h : s.Keeps w) (job : Job) : (s.draft job).Keeps w := by
  have hd : (⟨[], s⟩ : Draft).Keeps w := ⟨h, fun _ hx => nomatch hx⟩
  cases job with
  | process now =>
    refine draft_process_induct hd (fun d b hd _ => ?_) fun d a hd _ => ?_
    · exact hd.changeButton _ _ b
    · exact hd.changeAxis _ a
  | reset =>
    exact draft_reset_induct hd (fun d b hd => hd.drop b) fun d a hd => hd.restAxis h.wiring a

theorem Keeps.after (h : s.Keeps w) (job : Job) : (s.after job).Keeps w :=
  have hd := (h.draft job).mapper
  ⟨hd.wiring, hd.bound, fun _ hx => nomatch hx⟩

theorem Keeps.plan (h : s.Keeps w) (job : Job) :
    ∀ x ∈ s.plan job, x.call.Targets w.Uses ∧ x.mapper.Keeps w := by
  have hd := h.draft job
  intro x hx
  rw [plan_eq] at hx
  rcases List.mem_append.mp hx with hx | hx
  · exact hd.steps x hx
  · rw [List.mem_singleton.mp hx]
    exact ⟨hd.mapper.frame, h.after job⟩

end Mapper

end PadRemap
