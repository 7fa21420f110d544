import Mathlib.Logic.Function.Basic
import PadRemap.Proofs.Mapper.Wiring

/-! The levels that the sources of a mapper drive its outputs to. A plan writes differences only;
the main statement says that these are the right ones: the last level that a plan writes to an
output is driven by one of its sources afterwards, and an output that the plan does not write to is
driven as before. Nothing is assumed about sources that share an output. -/

namespace PadRemap

def ButtonEvent.level : ButtonEvent → Level
  | .void => none
  | .key .. => .hold 1
  | .rel _ _ value interval => .motion value interval
  | .abs _ _ value => .hold value

/-- The level that an axis with this event drives its output to, from the value of the axis and
the relative value sent last. -/
def AxisEvent.level (v r : Int) : AxisEvent → Level
  | .void => none
  | .abs .. => .hold v
  | .rel _ _ _ interval => if r = 0 then none else .motion r interval

def AxisEvent.motion (m : Message) (a : Axis) : AxisEvent → Int
  | .rel _ _ speed _ => Draft.relativeValue speed m a
  | _ => 0

theorem Message.deflection_of_rest {m : Message} {a : Axis} (h : m.axis a = 0) :
    m.deflection a = Float32.ofBits 0 := by
  unfold Message.deflection
  rw [h]
  cases a <;> decide +kernel

/-- Zero times any number, finite or not, counts as zero. -/
theorem Single.nearestInt_mul_zero (x : Float32) : nearestInt (x * Float32.ofBits 0) = 0 := by
  have hm : x * Float32.ofBits 0 = .ofModel (.pack
      (.mul .binary32 x.toModel.unpack (.zero .positive))) := rfl
  rw [hm]
  cases x.toModel.unpack with
  | infinity s => cases s <;> decide +kernel
  | notANumber => decide +kernel
  | zero s => cases s <;> decide +kernel
  | finite s m e h =>
    have hz : Float.Model.UnpackedFloat.mul .binary32 (.finite s m e h) (.zero .positive)
        = .zero (s * .positive) := rfl
    rw [hz]
    cases s <;> decide +kernel

theorem AxisEvent.motion_congr {m n : Message} {a : Axis} (h : m.axis a = n.axis a)
    (e : AxisEvent) : e.motion m a = e.motion n a := by
  cases e <;> simp [motion, Draft.relativeValue, Message.deflection, h]

theorem AxisEvent.motion_of_rest {m : Message} {a : Axis} (h : m.axis a = 0) (e : AxisEvent) :
    e.motion m a = 0 := by
  cases e with
  | rel device code speed interval =>
    rw [motion, Draft.relativeValue, Message.deflection_of_rest h]
    exact Single.nearestInt_mul_zero _
  | _ => rfl

/-- The level that a list of calls leaves on an output, if it sets one. -/
def Step.writes (o : Output) (steps : List Step) : Option Level :=
  steps.reverse.findSome? fun x => x.call.writes o

@[simp] theorem Step.writes_nil (o : Output) : Step.writes o [] = none := rfl

@[simp] theorem Step.writes_append (o : Output) (xs ys : List Step) :
    Step.writes o (xs ++ ys) = (Step.writes o ys).or (Step.writes o xs) := by
  simp [Step.writes, List.findSome?_append]

@[simp] theorem Step.writes_singleton (o : Output) (x : Step) :
    Step.writes o [x] = x.call.writes o := by
  simp [Step.writes]

theorem Step.writes_cons (o : Output) (x : Step) (xs : List Step) :
    Step.writes o (x :: xs) = (Step.writes o xs).or (x.call.writes o) := by
  rw [← List.singleton_append, Step.writes_append, Step.writes_singleton]

namespace Mapper

/-- The level that a source drives an output to, with the axes at given values. -/
def drives (s : Mapper) (f : Axis → Int) (o : Output) : Origin → Level
  | .button b =>
    if (s.active.get b).output? s.group = some o then (s.active.get b).level else none
  | .axis a =>
    if (s.axes.lookup a).output? s.group = some o then
      (s.axes.lookup a).level (f a) (s.relative.get a)
    else none

theorem drives_frame (s : Mapper) (es : List (DeviceId × Event)) (f : Axis → Int) (o : Output)
    (x : Origin) : { s with frame := es }.drives f o x = s.drives f o x := by
  cases x <;> rfl

def level (s : Mapper) (o : Output) (x : Origin) : Level := s.drives s.last.axis o x

/-- A mapper between two jobs, none of which has failed. -/
structure Settled (s : Mapper) : Prop where
  keeps : s.Keeps s.wiring
  frame : s.frame = []
  held : ∀ b, s.active.get b ≠ .void → s.last.button b = true
  relative : ∀ a, s.relative.get a = (s.axes.lookup a).motion s.last a

theorem settled_mapper (w : Wiring) : w.mapper.Settled where
  keeps := keeps_mapper w
  frame := rfl
  held _ h := (h (Table.get_fill _ _)).elim
  relative a := (Table.get_fill _ _).trans
    (AxisEvent.motion_of_rest (Message.axis_neutral a) _).symm

end Mapper

namespace Draft

def written (d : Draft) (o : Output) : Option Level :=
  ((Call.frame d.mapper.frame).writes o).or (Step.writes o d.steps)

theorem written_push (d : Draft) (device : UInt16) (e : Event) (o : Output) :
    (d.push device e).written o =
      if e.kind ≠ .rel ∧ o = e.output ⟨d.mapper.group, device⟩ then some (.hold e.value)
      else d.written o := by
  obtain ⟨a, k, c⟩ := o
  have hw : (Call.frame (d.push device e).mapper.frame).writes ⟨a, k, c⟩ =
      if e.kind ≠ .rel ∧ ⟨a, k, c⟩ = e.output ⟨d.mapper.group, device⟩ then some (.hold e.value)
      else (Call.frame d.mapper.frame).writes ⟨a, k, c⟩ := by
    simp only [Call.writes, push, Event.output, Output.mk.injEq, Journal.eventsOn_append,
      Journal.eventsOn_cons, Journal.eventsOn_nil, List.append_nil, Journal.lastValue_append]
    by_cases hk : k = .rel
    · subst hk
      have : ¬(e.kind ≠ .rel ∧ a = ⟨d.mapper.group, device⟩ ∧ .rel = e.kind ∧ c = e.code) :=
        fun h => h.1 h.2.2.1.symm
      rw [if_neg this]
      rfl
    · by_cases ha : a = ⟨d.mapper.group, device⟩
      · subst ha
        by_cases he : k = e.kind ∧ c = e.code
        · obtain ⟨rfl, rfl⟩ := he
          simp [hk]
        · have : ¬(e.kind = k ∧ e.code = c) := fun h => he ⟨h.1.symm, h.2.symm⟩
          simp [hk, he, this]
      · simp [hk, ha, Ne.symm ha]
  rw [written, hw]
  split
  · rfl
  · rfl

theorem written_setRepeat (d : Draft) (device code : UInt16) (value interval : Int) (o : Output) :
    (d.setRepeat device code value interval).written o =
      if o = ⟨⟨d.mapper.group, device⟩, .rel, code⟩ then some (.motion value interval)
      else d.written o := by
  unfold written setRepeat call
  rw [Step.writes_append, Step.writes_singleton]
  simp only [Call.writes]
  by_cases ho : o = ⟨⟨d.mapper.group, device⟩, .rel, code⟩
  · subst ho
    simp
  · simp [ho]

theorem written_release (d : Draft) (e : ButtonEvent) (o : Output) :
    (d.release e).written o =
      if e.output? d.mapper.group = some o then some none else d.written o := by
  cases e <;>
    simp [release, ButtonEvent.output?, written_push, written_setRepeat, Event.output,
      Level.motion, eq_comm]

theorem written_press (d : Draft) (e : ButtonEvent) {o : Output}
    (h : e.output? d.mapper.group = some o) :
    (d.press e).written o = some e.level ∨
      e.level = none ∧ (d.press e).written o = d.written o := by
  cases e with
  | void => cases h
  | key device code => cases h; simp [press, written_push, Event.output, ButtonEvent.level]
  | abs device code v => cases h; simp [press, written_push, Event.output, ButtonEvent.level]
  | rel device code v i =>
    cases h
    by_cases hi : 0 ≤ i
    · left
      simp only [press, if_pos hi, written_setRepeat]
      exact if_pos rfl
    · right
      refine ⟨Level.motion_of_neg v (by omega), ?_⟩
      simp [press, hi, written_push]

theorem written_press_of_ne (d : Draft) {e : ButtonEvent} {o : Output}
    (h : e.output? d.mapper.group ≠ some o) : (d.press e).written o = d.written o := by
  cases e with
  | void => rfl
  | key device code =>
    have h : ¬o = ⟨⟨d.mapper.group, device⟩, .key, code⟩ := fun ho => h (congrArg some ho.symm)
    simp [press, written_push, Event.output, h]
  | abs device code v =>
    have h : ¬o = ⟨⟨d.mapper.group, device⟩, .abs, code⟩ := fun ho => h (congrArg some ho.symm)
    simp [press, written_push, Event.output, h]
  | rel device code v i =>
    have h : ¬o = ⟨⟨d.mapper.group, device⟩, .rel, code⟩ := fun ho => h (congrArg some ho.symm)
    by_cases hi : 0 ≤ i
    · simp only [press, if_pos hi, written_setRepeat]
      rw [if_neg (by simpa [push] using h)]
      simp [written_push]
    · simp [press, hi, written_push]

theorem drives_setActive (d : Draft) (b : Button) (e : ButtonEvent) (f : Axis → Int)
    (o : Output) {x : Origin} (hx : x ≠ .button b) :
    (d.setActive b e).mapper.drives f o x = d.mapper.drives f o x := by
  cases x with
  | axis a => rfl
  | button c =>
    have hc : c ≠ b := fun h => hx (h ▸ rfl)
    simp [Mapper.drives, setActive, Table.get_set_ne _ e hc]

theorem release_mapper (d : Draft) (e : ButtonEvent) :
    ∃ es, (d.release e).mapper = { d.mapper with frame := es } := by
  cases e <;> exact ⟨_, rfl⟩

theorem press_mapper (d : Draft) (e : ButtonEvent) :
    ∃ es, (d.press e).mapper = { d.mapper with frame := es } := by
  cases e with
  | rel device code v i =>
    by_cases hi : 0 ≤ i
    · exact ⟨_, by rw [press]; simp only [if_pos hi]; rfl⟩
    · exact ⟨_, by rw [press]; simp only [if_neg hi]; rfl⟩
  | _ => exact ⟨_, rfl⟩

/-- A draft made for a settled mapper `s`: `held` says which buttons may hold an event, and `f`
gives the values of the axes as far as they are processed. -/
structure Tracks (s : Mapper) (held : Button → Bool) (f : Axis → Int) (d : Draft) : Prop where
  keeps : d.Keeps s.wiring
  held : ∀ b, d.mapper.active.get b ≠ .void → held b = true
  relative : ∀ a, ∃ m : Message, m.axis a = f a ∧
    d.mapper.relative.get a = (s.axes.lookup a).motion m a
  traced : ∀ o,
    (d.written o = none ∧ ∀ x, d.mapper.drives f o x = s.level o x) ∨
    ∃ x, s.wiring.CanWrite x o ∧ d.written o = some (d.mapper.drives f o x)

namespace Tracks

variable {s : Mapper} {held : Button → Bool} {f : Axis → Int} {d : Draft}

theorem imp (h : d.Tracks s held f) {held' : Button → Bool}
    (hh : ∀ b, held b = true → held' b = true) : d.Tracks s held' f :=
  ⟨h.keeps, fun b hb => hh b (h.held b hb), h.relative, h.traced⟩

theorem group (h : d.Tracks s held f) : d.mapper.group = s.group := h.keeps.group

theorem axes (h : d.Tracks s held f) : d.mapper.axes = s.axes := h.keeps.axes

/-- One source changes: where it writes, it writes the level that it drives from then on, and
where it does not, it drives what it drove before. -/
theorem change (h : d.Tracks s held f) {d' : Draft} {f' : Axis → Int} (y : Origin)
    (hother : ∀ x ≠ y, ∀ o, d'.mapper.drives f' o x = d.mapper.drives f o x)
    (hy : ∀ o, (d'.written o = d.written o ∧ d'.mapper.drives f' o y = d.mapper.drives f o y) ∨
      s.wiring.CanWrite y o ∧ d'.written o = some (d'.mapper.drives f' o y)) (o : Output) :
    (d'.written o = none ∧ ∀ x, d'.mapper.drives f' o x = s.level o x) ∨
    ∃ x, s.wiring.CanWrite x o ∧ d'.written o = some (d'.mapper.drives f' o x) := by
  rcases hy o with ⟨hw, hd⟩ | hw
  · have hall : ∀ x, d'.mapper.drives f' o x = d.mapper.drives f o x := fun x => by
      by_cases hx : x = y
      · exact hx ▸ hd
      · exact hother x hx o
    rw [hw]
    rcases h.traced o with ⟨hn, hs⟩ | ⟨x, hx, hs⟩
    · exact Or.inl ⟨hn, fun x => (hall x).trans (hs x)⟩
    · exact Or.inr ⟨x, hx, by rw [hall, hs]⟩
  · exact Or.inr ⟨y, hw⟩

theorem drop (h : d.Tracks s held f) (b : Button) :
    (d.drop b).Tracks s (Function.update held b false) f := by
  obtain ⟨es, hm⟩ := release_mapper (d.setActive b .void) (d.mapper.active.get b)
  change (d.drop b).mapper = _ at hm
  have hvoid : (d.drop b).mapper.active = d.mapper.active.set b .void := by rw [hm]; rfl
  refine ⟨h.keeps.drop b, fun c hc => ?_, fun a => ?_, h.change (.button b) ?_ ?_⟩
  · rw [hvoid] at hc
    by_cases hcb : c = b
    · subst hcb
      exact (hc (Table.get_set_self ..)).elim
    · rw [Table.get_set_ne _ _ hcb] at hc
      rw [Function.update_of_ne hcb]
      exact h.held c hc
  · rw [hm]
    exact h.relative a
  · intro x hx o
    rw [hm, Mapper.drives_frame]
    exact drives_setActive d b .void f o hx
  · intro o
    have hnone : (d.drop b).mapper.drives f o (.button b) = none := by
      rw [Mapper.drives, hvoid, Table.get_set_self]
      rfl
    rw [hnone]
    have hw : (d.drop b).written o = if (d.mapper.active.get b).output? d.mapper.group = some o
        then some none else d.written o := written_release (d.setActive b .void) _ o
    rw [hw]
    by_cases ho : (d.mapper.active.get b).output? d.mapper.group = some o
    · have hb : d.mapper.active.get b ≠ .void := fun hv => by rw [hv] at ho; cases ho
      rw [if_pos ho]
      rw [h.group] at ho
      exact Or.inr ⟨⟨_, h.keeps.mapper.bound b hb, ho⟩, rfl⟩
    · rw [if_neg ho]
      exact Or.inl ⟨rfl, (if_neg ho).symm⟩

theorem press (h : d.Tracks s held f) {b : Button} {e : ButtonEvent}
    (hb : s.buttons.Binds b e) (hv : d.mapper.active.get b = .void) :
    ((d.setActive b e).press e).Tracks s (Function.update held b true) f := by
  obtain ⟨es, hm⟩ := press_mapper (d.setActive b e) e
  have hact : ((d.setActive b e).press e).mapper.active = d.mapper.active.set b e := by
    rw [hm]; rfl
  refine ⟨h.keeps.press hb, fun c hc => ?_, fun a => ?_, h.change (.button b) ?_ ?_⟩
  · rw [hact] at hc
    by_cases hcb : c = b
    · rw [hcb, Function.update_self]
    · rw [Table.get_set_ne _ _ hcb] at hc
      rw [Function.update_of_ne hcb]
      exact h.held c hc
  · rw [hm]
    exact h.relative a
  · intro x hx o
    rw [hm, Mapper.drives_frame]
    exact drives_setActive d b e f o hx
  · intro o
    have hbefore : d.mapper.drives f o (.button b) = none := by rw [Mapper.drives, hv]; rfl
    have hafter : ((d.setActive b e).press e).mapper.drives f o (.button b) =
        if e.output? d.mapper.group = some o then e.level else none := by
      rw [hm, Mapper.drives_frame, Mapper.drives]
      simp [setActive]
    rw [hbefore, hafter]
    by_cases ho : e.output? d.mapper.group = some o
    · rw [if_pos ho]
      rcases written_press (d.setActive b e) e ho with hw | ⟨hl, hw⟩
      · rw [h.group] at ho
        exact Or.inr ⟨⟨e, hb, ho⟩, hw⟩
      · exact Or.inl ⟨hw, hl⟩
    · rw [if_neg ho]
      exact Or.inl ⟨written_press_of_ne (d.setActive b e) ho, rfl⟩

theorem dropShifted (h : d.Tracks s held f) (before : Message) (shift : Button) :
    (d.dropShifted before shift).Tracks s held f := by
  refine List.foldlRecOn _ _ h fun d h b _ => ?_
  split
  · refine (h.drop b).imp fun c hc => ?_
    by_cases hcb : c = b
    · rw [hcb, Function.update_self] at hc
      cases hc
    · rwa [Function.update_of_ne hcb] at hc
  · exact h

theorem changeButton (h : d.Tracks s held f) {now : Message} {b : Button}
    (hb : held b = s.last.button b) (hn : now.button b ≠ s.last.button b) :
    (d.changeButton s.last now b).Tracks s (Function.update held b (now.button b)) f := by
  have hd := h.dropShifted s.last b
  unfold Draft.changeButton
  simp only
  by_cases hp : now.button b = true
  · have hv : (d.dropShifted s.last b).mapper.active.get b = .void := by
      by_contra hv
      exact hn (hp.trans (hb ▸ hd.held b hv).symm)
    rw [if_pos hp, hp, hd.keeps.buttons]
    exact hd.press (chosen_binds _ _ _) hv
  · rw [if_neg hp, Bool.eq_false_iff.mpr hp]
    exact hd.drop b

theorem moveAxis (h : d.Tracks s held f) {d' : Draft} {a : Axis} {v : Int}
    (hk : d'.Keeps s.wiring) (hact : d'.mapper.active = d.mapper.active)
    (hrel : ∀ c ≠ a, d'.mapper.relative.get c = d.mapper.relative.get c)
    (hnew : ∃ m : Message, m.axis a = v ∧
      d'.mapper.relative.get a = (s.axes.lookup a).motion m a)
    (hne : ∀ o, (s.axes.lookup a).output? s.group ≠ some o → d'.written o = d.written o)
    (heq : ∀ o, (s.axes.lookup a).output? s.group = some o →
      d'.written o = some ((s.axes.lookup a).level v (d'.mapper.relative.get a)) ∨
      d'.written o = d.written o ∧
        (s.axes.lookup a).level v (d'.mapper.relative.get a) =
          (s.axes.lookup a).level (f a) (d.mapper.relative.get a)) :
    d'.Tracks s held (Function.update f a v) := by
  have hd : ∀ o, d.mapper.drives f o (.axis a) =
      if (s.axes.lookup a).output? s.group = some o then
        (s.axes.lookup a).level (f a) (d.mapper.relative.get a) else none := fun o => by
    rw [Mapper.drives, h.axes, h.group]
  have hd' : ∀ o, d'.mapper.drives (Function.update f a v) o (.axis a) =
      if (s.axes.lookup a).output? s.group = some o then
        (s.axes.lookup a).level v (d'.mapper.relative.get a) else none := fun o => by
    rw [Mapper.drives, hk.axes, hk.group, Function.update_self]
    rfl
  refine ⟨hk, fun b hb => h.held b (hact ▸ hb), fun c => ?_, h.change (.axis a) ?_ ?_⟩
  · by_cases hc : c = a
    · subst hc
      rwa [Function.update_self]
    · rw [hrel c hc, Function.update_of_ne hc]
      exact h.relative c
  · intro x hx o
    cases x with
    | button b => simp only [Mapper.drives, hact, hk.group, h.keeps.group]
    | axis c =>
      have hc : c ≠ a := fun h => hx (h ▸ rfl)
      simp only [Mapper.drives, hk.axes, hk.group, h.keeps.axes, h.keeps.group, hrel c hc,
        Function.update_of_ne hc]
  · intro o
    rw [hd, hd']
    by_cases ho : (s.axes.lookup a).output? s.group = some o
    · rw [if_pos ho, if_pos ho]
      rcases heq o ho with hw | hw
      · exact Or.inr ⟨ho, hw⟩
      · exact Or.inl hw
    · rw [if_neg ho, if_neg ho]
      exact Or.inl ⟨hne o ho, rfl⟩

theorem moveRelative (h : d.Tracks s held f) {d' : Draft} {a : Axis} {device code : UInt16}
    {speed interval : Int} (he : s.axes.lookup a = .rel device code speed interval) (m : Message)
    (hk : d'.Keeps s.wiring) (hact : d'.mapper.active = d.mapper.active)
    (hrel : d'.mapper.relative = d.mapper.relative.set a (relativeValue speed m a))
    (hw : ∀ o, d'.written o =
      if o = ⟨⟨d.mapper.group, device⟩, .rel, code⟩ then
        some (if relativeValue speed m a = 0 then none
          else Level.motion (relativeValue speed m a) interval)
      else d.written o) :
    d'.Tracks s held (Function.update f a (m.axis a)) := by
  have hval : d'.mapper.relative.get a = relativeValue speed m a := by
    rw [hrel, Table.get_set_self]
  refine h.moveAxis hk hact (fun c hc => ?_) ⟨m, rfl, ?_⟩ (fun o ho => ?_) fun o ho => Or.inl ?_
  · rw [hrel, Table.get_set_ne _ _ hc]
  · rw [hval, he]
    rfl
  · rw [hw, if_neg]
    rintro rfl
    rw [he, ← h.group] at ho
    exact ho rfl
  · rw [he, ← h.group] at ho
    cases ho
    rw [hw, if_pos rfl, hval, he]
    rfl

theorem moveAbsolute (h : d.Tracks s held f) {a : Axis} {device code : UInt16}
    (he : s.axes.lookup a = .abs device code) (m : Message) :
    (d.push device ⟨.abs, code, m.axis a⟩).Tracks s held (Function.update f a (m.axis a)) := by
  have hu : s.wiring.Uses ⟨⟨s.group, device⟩, .abs, code⟩ :=
    Wiring.uses_of_lookup (congrArg (AxisEvent.output? s.group) he)
  obtain ⟨n, -, hn⟩ := h.relative a
  refine h.moveAxis (h.keeps.push hu) rfl (fun _ _ => rfl) ⟨m, rfl, ?_⟩ (fun o ho => ?_)
    fun o ho => Or.inl ?_
  · rw [he] at hn ⊢
    exact hn
  · rw [written_push, if_neg]
    rintro ⟨-, rfl⟩
    rw [he, ← h.group] at ho
    exact ho rfl
  · rw [he, ← h.group] at ho
    cases ho
    rw [written_push, if_pos ⟨by simp, rfl⟩, he]
    rfl

theorem keepAxis (h : d.Tracks s held f) {a : Axis} (m : Message)
    (hr : d.mapper.relative.get a = (s.axes.lookup a).motion m a)
    (hl : (s.axes.lookup a).level (m.axis a) (d.mapper.relative.get a) =
      (s.axes.lookup a).level (f a) (d.mapper.relative.get a)) :
    d.Tracks s held (Function.update f a (m.axis a)) :=
  h.moveAxis h.keeps rfl (fun _ _ => rfl) ⟨m, rfl, hr⟩ (fun _ _ => rfl) fun _ _ => Or.inr ⟨rfl, hl⟩

theorem changeAxis (h : d.Tracks s held f) (now : Message) (a : Axis) :
    (d.changeAxis now a).Tracks s held (Function.update f a (now.axis a)) := by
  have hk := h.keeps.changeAxis now a
  unfold Draft.changeAxis at hk ⊢
  rw [h.axes] at hk ⊢
  cases he : s.axes.lookup a with
  | void =>
    obtain ⟨n, -, hn⟩ := h.relative a
    rw [he] at hn
    exact h.keepAxis now (by rw [he]; exact hn) (by rw [he]; rfl)
  | abs device code => exact h.moveAbsolute he now
  | rel device code speed interval =>
    simp only [he] at hk ⊢
    by_cases hz : relativeValue speed now a = 0
    · simp only [if_pos hz] at hk ⊢
      refine h.moveRelative he now hk rfl rfl fun o => ?_
      rw [written_setRepeat, if_pos hz]
      rfl
    · by_cases hp : d.mapper.relative.get a = 0
      · simp only [if_neg hz, if_pos hp] at hk ⊢
        refine h.moveRelative he now hk rfl rfl fun o => ?_
        rw [written_setRepeat, written_push, if_neg hz]
        simp [push, setRelative, written]
      · simp only [if_neg hz, if_neg hp] at hk ⊢
        refine h.moveRelative he now hk rfl rfl fun o => ?_
        rw [written_setRepeat, if_neg hz]
        rfl

theorem restAxis (h : d.Tracks s held f) (hs : s.Settled) {a : Axis} (hf : f a = s.last.axis a) :
    (s.restAxis d a).Tracks s held (Function.update f a (Message.neutral.axis a)) := by
  obtain ⟨m, hm, hr⟩ := h.relative a
  have hsame : d.mapper.relative.get a = s.relative.get a := by
    rw [hr, hs.relative, AxisEvent.motion_congr (hm.trans hf)]
  have hk := h.keeps.restAxis (s := s) rfl a
  unfold Mapper.restAxis at hk ⊢
  cases he : s.axes.lookup a with
  | void =>
    rw [he] at hr
    exact h.keepAxis .neutral (by rw [he]; exact hr) (by rw [he]; rfl)
  | abs device code =>
    simp only [he] at hk ⊢
    by_cases hz : s.last.axis a = 0
    · rw [if_neg (not_not.mpr hz)]
      rw [he] at hr
      refine h.keepAxis .neutral (by rw [he]; exact hr) ?_
      rw [hf, hz, Message.axis_neutral]
    · rw [if_pos hz]
      simpa using h.moveAbsolute he .neutral
  | rel device code speed interval =>
    have hzero : relativeValue speed .neutral a = 0 :=
      AxisEvent.motion_of_rest (Message.axis_neutral a) (.rel device code speed interval)
    simp only [he] at hk ⊢
    by_cases hz : s.relative.get a = 0
    · rw [if_neg (not_not.mpr hz)]
      refine h.keepAxis .neutral ?_ ?_
      · rw [hsame, hz, he]
        exact hzero.symm
      · rw [he, hsame, hz]
        rfl
    · simp only [if_pos hz] at hk ⊢
      refine h.moveRelative he .neutral hk rfl (by rw [hzero]; rfl) fun o => ?_
      rw [if_pos hzero]
      exact written_setRepeat d device code 0 (-1) o

theorem foldl_buttons (op : Draft → Button → Draft) (goal : Button → Bool)
    (hop : ∀ {d held b}, d.Tracks s held f → held b = s.last.button b →
      (op d b).Tracks s (Function.update held b (goal b)) f)
    {todo : List Button} (hn : todo.Nodup) (h : d.Tracks s held f)
    (hb : ∀ b ∈ todo, held b = s.last.button b) :
    (todo.foldl op d).Tracks s (fun b => if b ∈ todo then goal b else held b) f := by
  induction todo generalizing d held with
  | nil => exact h.imp fun b hb => by simpa using hb
  | cons b todo ih =>
    obtain ⟨hbt, hn⟩ := List.nodup_cons.mp hn
    refine (ih hn (hop h (hb b List.mem_cons_self)) fun c hc => ?_).imp fun c hc => ?_
    · have hcb : c ≠ b := by rintro rfl; exact hbt hc
      rw [Function.update_of_ne hcb]
      exact hb c (List.mem_cons_of_mem _ hc)
    · by_cases hcb : c = b
      · subst hcb
        simpa [hbt] using hc
      · simpa [hcb, Function.update_of_ne hcb] using hc

theorem foldl_axes (op : Draft → Axis → Draft) (goal : Axis → Int)
    (hop : ∀ {d f a}, d.Tracks s held f → f a = s.last.axis a →
      (op d a).Tracks s held (Function.update f a (goal a)))
    {todo : List Axis} (hn : todo.Nodup) (h : d.Tracks s held f)
    (ha : ∀ a ∈ todo, f a = s.last.axis a) :
    (todo.foldl op d).Tracks s held (fun a => if a ∈ todo then goal a else f a) := by
  induction todo generalizing d f with
  | nil => simpa using h
  | cons a todo ih =>
    obtain ⟨hat, hn⟩ := List.nodup_cons.mp hn
    have hd := ih hn (hop h (ha a List.mem_cons_self)) fun c hc => by
      have hca : c ≠ a := by rintro rfl; exact hat hc
      rw [Function.update_of_ne hca]
      exact ha c (List.mem_cons_of_mem _ hc)
    have hf : (fun c => if c ∈ todo then goal c else Function.update f a (goal a) c) =
        fun c => if c ∈ a :: todo then goal c else f c := by
      funext c
      by_cases hca : c = a
      · subst hca
        simp [hat]
      · simp [hca]
    exact hf ▸ hd

end Tracks

end Draft

namespace Mapper

variable {s : Mapper}

theorem Settled.draft (h : s.Settled) (job : Job) :
    (s.draft job).Tracks s job.message.button job.message.axis := by
  have hd : (⟨[], s⟩ : Draft).Tracks s s.last.button s.last.axis := by
    refine ⟨⟨h.keeps, fun _ hx => nomatch hx⟩, h.held, fun a => ⟨s.last, rfl, h.relative a⟩,
      fun o => Or.inl ⟨?_, fun _ => rfl⟩⟩
    simp [Draft.written, h.frame, Call.writes]
  have hb : ∀ m : Message, (fun b => if b ∈ Button.all then m.button b else s.last.button b)
      = m.button := fun m => funext fun b => if_pos (Enumerated.mem_all b)
  have ha : ∀ m : Message, (fun a => if a ∈ Axis.all then m.axis a else s.last.axis a)
      = m.axis := fun m => funext fun a => if_pos (Enumerated.mem_all a)
  have hbn : Button.all.Nodup := Enumerated.nodup_all
  have han : Axis.all.Nodup := Enumerated.nodup_all
  cases job with
  | process now =>
    have hbuttons := hd.foldl_buttons
      (fun d b => if now.button b ≠ s.last.button b then d.changeButton s.last now b else d)
      now.button (fun hd hb => ?_) hbn fun _ _ => rfl
    · rw [hb] at hbuttons
      have haxes := hbuttons.foldl_axes
        (fun d a => if now.axis a ≠ s.last.axis a then d.changeAxis now a else d)
        now.axis (fun hd hf => ?_) han fun _ _ => rfl
      · rw [ha] at haxes
        exact haxes
      · split
        · exact hd.changeAxis now _
        · next hne =>
          rw [not_not.mp hne, ← hf, Function.update_eq_self]
          exact hd
    · split
      · next hne => exact hd.changeButton hb hne
      · next hne =>
        rw [not_not.mp hne, ← hb, Function.update_eq_self]
        exact hd
  | reset =>
    have hbuttons := hd.foldl_buttons (fun d b => if s.last.button b then d.drop b else d)
      Message.neutral.button (fun {_ _ b} hd hb => ?_) hbn fun _ _ => rfl
    · rw [hb] at hbuttons
      have haxes := hbuttons.foldl_axes s.restAxis Message.neutral.axis
        (fun hd hf => hd.restAxis h hf) han fun _ _ => rfl
      rw [ha] at haxes
      exact haxes
    · rw [Message.button_neutral]
      split
      · exact hd.drop b
      · next hne =>
        rw [Bool.eq_false_iff.mpr hne] at hb
        rw [← hb, Function.update_eq_self]
        exact hd

theorem Settled.after (h : s.Settled) (job : Job) : (s.after job).Settled := by
  have hd := h.draft job
  have hk := h.keeps.after job
  refine ⟨by rwa [hk.wiring], rfl, hd.held, fun a => ?_⟩
  obtain ⟨m, hm, hr⟩ := hd.relative a
  have hax : (s.after job).axes = s.axes := hd.axes
  have hlast : (s.after job).last = job.message := rfl
  rw [hax, hlast, ← AxisEvent.motion_congr hm]
  exact hr

theorem Settled.eq_mapper (h : s.Settled) (hl : s.last = .neutral) : s = s.wiring.mapper := by
  have hact : s.active = .fill .void := by
    refine Table.ext fun b => ?_
    rw [Table.get_fill]
    by_contra hb
    have := h.held b hb
    rw [hl, Message.button_neutral] at this
    cases this
  have hrel : s.relative = .fill 0 := by
    refine Table.ext fun a => ?_
    rw [Table.get_fill, h.relative a, hl, AxisEvent.motion_of_rest (Message.axis_neutral a)]
  have hframe := h.frame
  obtain ⟨buttons, axes, group, last, active, relative, frame⟩ := s
  simp only at hl hact hrel hframe
  subst hl hact hrel hframe
  rfl

theorem level_mapper (w : Wiring) (o : Output) (x : Origin) : w.mapper.level o x = none := by
  cases x with
  | button b =>
    have hv : w.mapper.active.get b = .void := Table.get_fill _ _
    rw [level, drives, hv]
    rfl
  | axis a =>
    have hl : w.mapper.last.axis a = 0 := Message.axis_neutral a
    have hr : w.mapper.relative.get a = 0 := Table.get_fill _ _
    rw [level, drives, hl, hr]
    split
    · cases w.mapper.axes.lookup a <;> rfl
    · rfl

/-- What a plan writes to an output last is driven by a source afterwards, and what it does not
write to is driven as before. -/
theorem Settled.plan_writes (h : s.Settled) (job : Job) (o : Output) :
    (Step.writes o (s.plan job) = none ∧ ∀ x, (s.after job).level o x = s.level o x) ∨
    ∃ x, s.wiring.CanWrite x o ∧ Step.writes o (s.plan job) = some ((s.after job).level o x) := by
  have hl : ∀ x, (s.after job).level o x = (s.draft job).mapper.drives job.message.axis o x :=
    fun x => by cases x <;> rfl
  have hw : Step.writes o (s.plan job) = (s.draft job).written o := by
    rw [plan_eq, Step.writes_append, Step.writes_singleton]
    rfl
  rw [hw]
  simp only [hl]
  exact (h.draft job).traced o

end Mapper

end PadRemap
