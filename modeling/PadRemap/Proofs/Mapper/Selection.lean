import Mathlib.Data.List.Basic
import PadRemap.Proofs.Mapper.Failure

/-! Which events buttons hold. A mapper walks the buttons in table order, and each changed one may
end what others hold or choose another binding. The main statement says that the order leaves no
trace: what a button holds after a message, and what it makes the mapper write, depends only on the
two messages and on what it held before. -/

namespace PadRemap

def ButtonEvent.onset (group : UInt16) : ButtonEvent → List (DeviceId × Event)
  | .void => []
  | .key device code => [(⟨group, device⟩, ⟨.key, code, 1⟩)]
  | .rel device code value _ => [(⟨group, device⟩, ⟨.rel, code, value⟩)]
  | .abs device code value => [(⟨group, device⟩, ⟨.abs, code, value⟩)]

def ButtonEvent.ending (group : UInt16) : ButtonEvent → List (DeviceId × Event)
  | .key device code => [(⟨group, device⟩, ⟨.key, code, 0⟩)]
  | .abs device code _ => [(⟨group, device⟩, ⟨.abs, code, 0⟩)]
  | _ => []

namespace Draft

theorem drop_mapper (d : Draft) (b : Button) :
    (d.drop b).mapper =
      { d.mapper with
        active := d.mapper.active.set b .void
        frame := d.mapper.frame ++ (d.mapper.active.get b).ending d.mapper.group } := by
  unfold drop
  cases d.mapper.active.get b <;>
    simp [release, setActive, push, setRepeat, call, ButtonEvent.ending]

theorem press_setActive_mapper (d : Draft) (b : Button) (e : ButtonEvent) :
    ((d.setActive b e).press e).mapper =
      { d.mapper with
        active := d.mapper.active.set b e
        frame := d.mapper.frame ++ e.onset d.mapper.group } := by
  cases e with
  | rel device code v i =>
    by_cases hi : 0 ≤ i <;> simp [press, hi, setActive, push, setRepeat, call, ButtonEvent.onset]
  | _ => simp [press, setActive, push, ButtonEvent.onset]

end Draft

/-- One button's part of a draft: the event that it holds and what it has made the mapper write. -/
structure Share where
  event : ButtonEvent
  sent : List (DeviceId × Event) := []

namespace Share

variable (g : UInt16)

def drop (x : Share) : Share := ⟨.void, x.sent ++ x.event.ending g⟩

def begin (e : ButtonEvent) (x : Share) : Share := ⟨e, x.sent ++ e.onset g⟩

theorem drop_drop (x : Share) : (x.drop g).drop g = x.drop g := by
  simp [drop, ButtonEvent.ending]

theorem foldl_idem {op : Share → Share} (hop : ∀ x, op (op x) = op x) (p : Button → Prop)
    [DecidablePred p] (cs : List Button) (x : Share) :
    cs.foldl (fun x c => if p c then op x else x) x = if ∃ c ∈ cs, p c then op x else x := by
  induction cs generalizing x with
  | nil => simp
  | cons c cs ih =>
    rw [List.foldl_cons, ih]
    by_cases hc : p c
    · simp [hc, hop]
    · simp [hc]

theorem foldl_once (op : Share → Share) {b : Button} {cs : List Button} (hn : cs.Nodup)
    (x : Share) :
    cs.foldl (fun x c => if c = b then op x else x) x = if b ∈ cs then op x else x := by
  induction cs generalizing x with
  | nil => simp
  | cons c cs ih =>
    obtain ⟨hc, hn⟩ := List.nodup_cons.mp hn
    rw [List.foldl_cons, ih hn]
    by_cases hb : c = b
    · subst hb
      simp [hc]
    · simp [hb, Ne.symm hb]

end Share

namespace Draft

/-- Each button has its share of a draft that is made for a mapper. The frame holds the shares in
some order, after what was left from before. -/
structure Shares (s : Mapper) (f : Button → Share) (d : Draft) : Prop where
  wiring : d.mapper.wiring = s.wiring
  relative : d.mapper.relative = s.relative
  active : ∀ b, d.mapper.active.get b = (f b).event
  frame : ∃ es, d.mapper.frame = s.frame ++ es ∧ es.Perm (Button.all.flatMap fun b => (f b).sent)

theorem flatMap_update_perm {f : Button → Share} {b : Button} {x : Share} {es : List _}
    (hx : x.sent = (f b).sent ++ es) {bs : List Button} (hn : bs.Nodup) (hb : b ∈ bs) :
    (bs.flatMap fun c => (Function.update f b x c).sent).Perm
      ((bs.flatMap fun c => (f c).sent) ++ es) := by
  obtain ⟨l, r, rfl⟩ := List.append_of_mem hb
  have hother : ∀ cs : List Button, b ∉ cs →
      (cs.flatMap fun c => (Function.update f b x c).sent) = cs.flatMap fun c => (f c).sent := by
    intro cs hcs
    refine List.flatMap_congr fun c hc => ?_
    rw [Function.update_of_ne]
    rintro rfl
    exact hcs hc
  obtain ⟨-, hr, hlr⟩ := List.nodup_append.mp hn
  have hl : b ∉ l := fun h => hlr b h b List.mem_cons_self rfl
  rw [List.flatMap_append, List.flatMap_append, List.flatMap_cons, List.flatMap_cons, hother l hl,
    hother r (List.nodup_cons.mp hr).1, Function.update_self, hx]
  simp only [List.append_assoc]
  exact (List.perm_append_comm.append_left _).append_left _

namespace Shares

variable {s : Mapper} {f : Button → Share} {d d' : Draft}

theorem group (h : d.Shares s f) : d.mapper.group = s.group := congrArg Wiring.group h.wiring

theorem buttons (h : d.Shares s f) : d.mapper.buttons = s.buttons :=
  congrArg Wiring.buttons h.wiring

theorem change (h : d.Shares s f) (b : Button) {e : ButtonEvent} {es : List (DeviceId × Event)}
    (hd : d'.mapper = { d.mapper with
      active := d.mapper.active.set b e
      frame := d.mapper.frame ++ es }) :
    d'.Shares s (Function.update f b ⟨e, (f b).sent ++ es⟩) := by
  refine ⟨?_, ?_, fun c => ?_, ?_⟩
  · rw [hd]
    exact h.wiring
  · rw [hd]
    exact h.relative
  · rw [hd]
    by_cases hc : c = b
    · subst hc
      rw [Function.update_self]
      exact Table.get_set_self ..
    · rw [Function.update_of_ne hc]
      exact (Table.get_set_ne _ _ hc).trans (h.active c)
  · obtain ⟨sent, hframe, hperm⟩ := h.frame
    refine ⟨sent ++ es, ?_, ?_⟩
    · rw [hd, ← List.append_assoc, ← hframe]
    · exact (hperm.append_right es).trans
        (flatMap_update_perm rfl Enumerated.nodup_all (Enumerated.mem_all b)).symm

theorem drop (h : d.Shares s f) (b : Button) :
    (d.drop b).Shares s (Function.update f b ((f b).drop s.group)) := by
  have hd := d.drop_mapper b
  rw [h.active, h.group] at hd
  exact h.change b hd

theorem begin (h : d.Shares s f) (b : Button) (e : ButtonEvent) :
    ((d.setActive b e).press e).Shares s (Function.update f b ((f b).begin s.group e)) := by
  have hd := d.press_setActive_mapper b e
  rw [h.group] at hd
  exact h.change b hd

/-- A pass over the buttons in which each one changes its own share. -/
theorem foldl_own {op : Draft → Button → Draft} {g : Button → Share → Share}
    (hop : ∀ {d f} b, d.Shares s f → (op d b).Shares s (Function.update f b (g b (f b))))
    {bs : List Button} (hn : bs.Nodup) (h : d.Shares s f) :
    (bs.foldl op d).Shares s fun b => if b ∈ bs then g b (f b) else f b := by
  induction bs generalizing d f with
  | nil => simpa using h
  | cons b bs ih =>
    obtain ⟨hb, hn⟩ := List.nodup_cons.mp hn
    have hf : (fun c => if c ∈ bs then g c (Function.update f b (g b (f b)) c)
        else Function.update f b (g b (f b)) c) =
          fun c => if c ∈ b :: bs then g c (f c) else f c := by
      funext c
      by_cases hc : c = b
      · subst hc
        simp [hb]
      · simp [hc]
    exact hf ▸ ih hn (hop b h)

/-- A pass over the buttons in which each one may change every share. -/
theorem foldl_turns {op : Draft → Button → Draft} (turn : Button → Button → Share → Share)
    (hop : ∀ {d f} c, d.Shares s f → (op d c).Shares s fun b => turn c b (f b))
    (cs : List Button) (h : d.Shares s f) :
    (cs.foldl op d).Shares s fun b => cs.foldl (fun x c => turn c b x) (f b) := by
  induction cs generalizing d f with
  | nil => exact h
  | cons c cs ih => exact ih (hop c h)

end Shares

end Draft

namespace Mapper

/-- Whether a changed button, as a shift, ends the event of another one. -/
def Shifts (s : Mapper) (c b : Button) : Prop :=
  b ≠ c ∧ s.last.button b ∧ !(s.buttons.lookupShifted c b).isVoid

instance (s : Mapper) (c b : Button) : Decidable (s.Shifts c b) :=
  inferInstanceAs (Decidable (_ ∧ _ ∧ _))

def turn (s : Mapper) (now : Message) (c b : Button) (x : Share) : Share :=
  if b = c then
    if now.button c then x.begin s.group (Draft.chosen s.buttons now c) else x.drop s.group
  else if s.Shifts c b then x.drop s.group
  else x

end Mapper

namespace Draft.Shares

variable {s : Mapper} {f : Button → Share} {d : Draft}

theorem dropShifted (h : d.Shares s f) (c : Button) :
    (d.dropShifted s.last c).Shares s fun b =>
      if s.Shifts c b then (f b).drop s.group else f b := by
  have hfold : (d.dropShifted s.last c).Shares s _ := foldl_own
    (g := fun b x => if s.Shifts c b then x.drop s.group else x) (fun {d _} b h => ?_)
    Enumerated.nodup_all h
  · have hall : (fun b => if b ∈ Button.all then (if s.Shifts c b then (f b).drop s.group else f b)
        else f b) = fun b => if s.Shifts c b then (f b).drop s.group else f b :=
      funext fun b => if_pos (Enumerated.mem_all b)
    exact hall ▸ hfold
  · rw [h.buttons]
    change Shares s _ (if s.Shifts c b then d.drop b else d)
    split
    · exact h.drop b
    · rw [Function.update_eq_self]
      exact h

theorem changeButton (h : d.Shares s f) (now : Message) (c : Button) :
    (d.changeButton s.last now c).Shares s fun b => s.turn now c b (f b) := by
  have hd := h.dropShifted c
  have hself : ¬s.Shifts c c := fun hc => hc.1 rfl
  have hturn : ∀ x : Share, x = s.turn now c c (f c) → Function.update (fun b =>
      if s.Shifts c b then (f b).drop s.group else f b) c x = fun b => s.turn now c b (f b) := by
    rintro _ rfl
    funext b
    by_cases hb : b = c
    · rw [hb, Function.update_self]
    · rw [Function.update_of_ne hb, Mapper.turn, if_neg hb]
  unfold Draft.changeButton
  simp only
  by_cases hc : now.button c = true
  · have hbegin := hd.begin c (chosen s.buttons now c)
    rw [hturn _ (by simp [Mapper.turn, hc, hself])] at hbegin
    rw [if_pos hc, hd.buttons]
    exact hbegin
  · have hdrop := hd.drop c
    rw [hturn _ (by simp [Mapper.turn, hc, hself])] at hdrop
    rw [if_neg hc]
    exact hdrop

end Draft.Shares

namespace Mapper

variable (s : Mapper) (now : Message) (b : Button)

def share : Share :=
  Button.all.foldl (fun x c => if now.button c ≠ s.last.button c then s.turn now c b x else x)
    ⟨s.active.get b, []⟩

theorem share_idle (hl : s.last.button b = false) (hn : now.button b = false) :
    s.share now b = ⟨s.active.get b, []⟩ := by
  refine List.foldl_fixed' (fun c => ?_) Button.all
  by_cases hc : b = c
  · subst hc
    rw [if_neg (not_not.mpr (hn.trans hl.symm))]
  · rw [turn, if_neg hc, if_neg fun h : s.Shifts c b => Bool.false_ne_true (hl.symm.trans h.2.1),
      ite_self]

theorem share_pressed (hl : s.last.button b = false) (hn : now.button b = true) :
    s.share now b = ⟨Draft.chosen s.buttons now b,
      (Draft.chosen s.buttons now b).onset s.group⟩ := by
  have hturn : ∀ x c, (if now.button c ≠ s.last.button c then s.turn now c b x else x) =
      if c = b then x.begin s.group (Draft.chosen s.buttons now b) else x := by
    intro x c
    by_cases hc : c = b
    · subst hc
      rw [if_pos (by simp [hl, hn]), turn, if_pos rfl, if_pos hn, if_pos rfl]
    · rw [turn, if_neg (Ne.symm hc), if_neg hc,
        if_neg fun h : s.Shifts c b => Bool.false_ne_true (hl.symm.trans h.2.1), ite_self]
  have hfold : s.share now b = _ := congrArg (fun op => Button.all.foldl op _)
    (funext fun x => funext fun c => hturn x c)
  have hnodup : Button.all.Nodup := Enumerated.nodup_all
  have hmem : b ∈ Button.all := Enumerated.mem_all b
  rw [hfold, Share.foldl_once _ hnodup, if_pos hmem]
  rfl

/-- Whether a message ends what a button held: it is released, or a shift above it changes. -/
def Ends : Prop := ∃ c ∈ Button.all, now.button c ≠ s.last.button c ∧ (c = b ∨ s.Shifts c b)

instance : Decidable (s.Ends now b) := inferInstanceAs (Decidable (∃ c ∈ Button.all, _))

theorem share_held (hl : s.last.button b = true) :
    s.share now b = if s.Ends now b then ⟨.void, (s.active.get b).ending s.group⟩
      else ⟨s.active.get b, []⟩ := by
  have hturn : ∀ x c, (if now.button c ≠ s.last.button c then s.turn now c b x else x) =
      if now.button c ≠ s.last.button c ∧ (c = b ∨ s.Shifts c b) then x.drop s.group else x := by
    intro x c
    by_cases hchanged : now.button c ≠ s.last.button c
    · rw [if_pos hchanged]
      by_cases hc : c = b
      · subst hc
        have hn : ¬now.button c = true := fun h => hchanged (h.trans hl.symm)
        rw [if_pos ⟨hchanged, Or.inl rfl⟩, turn, if_pos rfl, if_neg hn]
      · rw [turn, if_neg (Ne.symm hc)]
        simp only [hchanged, hc, ne_eq, not_false_eq_true, true_and, false_or]
    · rw [if_neg hchanged, if_neg fun h => hchanged h.1]
  have hfold : s.share now b = _ := congrArg (fun op => Button.all.foldl op _)
    (funext fun x => funext fun c => hturn x c)
  rw [hfold, Share.foldl_idem (Share.drop_drop s.group)
    (fun c => now.button c ≠ s.last.button c ∧ (c = b ∨ s.Shifts c b))]
  rfl

def axisEvents (a : Axis) : List (DeviceId × Event) :=
  if now.axis a = s.last.axis a then []
  else match s.axes.lookup a with
    | .void => []
    | .abs device code => [(⟨s.group, device⟩, ⟨.abs, code, now.axis a⟩)]
    | .rel device code speed _ =>
      let value := Draft.relativeValue speed now a
      if value ≠ 0 ∧ s.relative.get a = 0 then [(⟨s.group, device⟩, ⟨.rel, code, value⟩)] else []

variable {s now b}

theorem changeAxis_mapper {d : Draft} (hw : d.mapper.wiring = s.wiring) {a : Axis}
    (hr : d.mapper.relative.get a = s.relative.get a) (ha : now.axis a ≠ s.last.axis a) :
    (d.changeAxis now a).mapper.wiring = s.wiring ∧
      (d.changeAxis now a).mapper.active = d.mapper.active ∧
      (∀ c ≠ a, (d.changeAxis now a).mapper.relative.get c = d.mapper.relative.get c) ∧
      (d.changeAxis now a).mapper.frame = d.mapper.frame ++ s.axisEvents now a := by
  have hax : d.mapper.axes = s.axes := congrArg Wiring.axes hw
  have hg : d.mapper.group = s.group := congrArg Wiring.group hw
  unfold Draft.changeAxis axisEvents
  rw [if_neg ha, hax]
  cases s.axes.lookup a with
  | void => exact ⟨hw, rfl, fun _ _ => rfl, (List.append_nil _).symm⟩
  | abs device code => exact ⟨hw, rfl, fun _ _ => rfl, by rw [← hg]; rfl⟩
  | rel device code speed interval =>
    have hset : ∀ c ≠ a, (d.mapper.relative.set a (Draft.relativeValue speed now a)).get c =
        d.mapper.relative.get c := fun c hc => Table.get_set_ne _ _ hc
    simp only [hr]
    by_cases hv : Draft.relativeValue speed now a = 0
    · rw [if_pos hv, if_neg fun h => h.1 hv]
      exact ⟨hw, rfl, hset, (List.append_nil _).symm⟩
    · rw [if_neg hv]
      by_cases hp : s.relative.get a = 0
      · rw [if_pos hp, if_pos ⟨hv, hp⟩, ← hg]
        exact ⟨hw, rfl, hset, rfl⟩
      · rw [if_neg hp, if_neg fun h => hp h.2]
        exact ⟨hw, rfl, hset, (List.append_nil _).symm⟩

theorem foldl_axes_mapper {d : Draft} (hw : d.mapper.wiring = s.wiring) (now : Message)
    {as : List Axis} (hn : as.Nodup) (hr : ∀ a ∈ as, d.mapper.relative.get a = s.relative.get a) :
    let d' := as.foldl (fun d a => if now.axis a ≠ s.last.axis a then d.changeAxis now a else d) d
    d'.mapper.active = d.mapper.active ∧
      d'.mapper.frame = d.mapper.frame ++ as.flatMap (s.axisEvents now) := by
  induction as generalizing d with
  | nil => exact ⟨rfl, (List.append_nil _).symm⟩
  | cons a as ih =>
    obtain ⟨hna, hn⟩ := List.nodup_cons.mp hn
    obtain ⟨hra, hr⟩ := List.forall_mem_cons.mp hr
    rw [List.foldl_cons, List.flatMap_cons]
    by_cases ha : now.axis a = s.last.axis a
    · rw [if_neg (not_not.mpr ha), axisEvents, if_pos ha]
      exact ih hw hn hr
    · rw [if_pos ha]
      obtain ⟨hw', hactive, hrel, hframe⟩ := changeAxis_mapper hw hra ha
      have hr' : ∀ c ∈ as, (d.changeAxis now a).mapper.relative.get c = s.relative.get c :=
        fun c hc => (hrel c fun h => hna (h ▸ hc)).trans (hr c hc)
      obtain ⟨hactive', hframe'⟩ := ih hw' hn hr'
      exact ⟨hactive'.trans hactive, by rw [hframe', hframe, List.append_assoc]⟩

theorem draft_process (s : Mapper) (now : Message) :
    (∀ b, (s.draft (.process now)).mapper.active.get b = (s.share now b).event) ∧
      ∃ es, (s.draft (.process now)).mapper.frame =
          s.frame ++ es ++ Axis.all.flatMap (s.axisEvents now) ∧
        es.Perm (Button.all.flatMap fun b => (s.share now b).sent) := by
  have hstart : (⟨[], s⟩ : Draft).Shares s fun b => ⟨s.active.get b, []⟩ := by
    refine ⟨rfl, rfl, fun _ => rfl, [], (List.append_nil _).symm, ?_⟩
    rw [List.flatMap_eq_nil_iff.mpr fun _ _ => rfl]
  have hturn : ∀ {d : Draft} {f : Button → Share} (c : Button), d.Shares s f →
      (if now.button c ≠ s.last.button c then d.changeButton s.last now c else d).Shares s
        fun b => if now.button c ≠ s.last.button c then s.turn now c b (f b) else f b := by
    intro d f c h
    split
    · exact h.changeButton now c
    · exact h
  have hbuttons := Draft.Shares.foldl_turns
    (fun c b x => if now.button c ≠ s.last.button c then s.turn now c b x else x)
    hturn Button.all hstart
  have haxes : Axis.all.Nodup := Enumerated.nodup_all
  obtain ⟨es, hframe, hperm⟩ := hbuttons.frame
  obtain ⟨hactive, hframe'⟩ := foldl_axes_mapper hbuttons.wiring now haxes fun a _ => by
    rw [hbuttons.relative]
  refine ⟨fun b => ?_, es, hframe'.trans (by rw [hframe]), hperm⟩
  exact (congrArg (·.get b) hactive).trans (hbuttons.active b)

/-- The events of the buttons once a message has been processed, from the message before it and
from what was held. -/
structure Selects (s : Mapper) (now : Message) (s' : Mapper) : Prop where
  pressed : ∀ b, s.last.button b = false → now.button b = true →
    s'.active.get b = Draft.chosen s.buttons now b
  released : ∀ b, s.last.button b = true → now.button b = false → s'.active.get b = .void
  shifted : ∀ b c, s.last.button b = true → now.button b = true → c ≠ b →
    now.button c ≠ s.last.button c → (s.buttons.lookupShifted c b).isVoid = false →
      s'.active.get b = .void
  kept : ∀ b, s.last.button b = true → now.button b = true →
    (∀ c ≠ b, now.button c ≠ s.last.button c → (s.buttons.lookupShifted c b).isVoid = true) →
      s'.active.get b = s.active.get b
  idle : ∀ b, s.last.button b = false → now.button b = false → s'.active.get b = s.active.get b

/-- What a button makes a mapper `s` write for a message after which it is `s'`: the onset of an
event if it has been pressed, the ending of one if it has lost it, and nothing else. -/
def caused (s : Mapper) (now : Message) (s' : Mapper) (b : Button) : List (DeviceId × Event) :=
  if s.last.button b = false ∧ now.button b = true then (s'.active.get b).onset s.group
  else if s.last.button b = true ∧ s'.active.get b = .void then (s.active.get b).ending s.group
  else []

theorem selects_after (s : Mapper) (now : Message) : s.Selects now (s.after (.process now)) := by
  have hactive := (s.draft_process now).1
  refine ⟨fun b hl hn => ?_, fun b hl hn => ?_, fun b c hl hn hc hne hv => ?_,
    fun b hl hn hall => ?_, fun b hl hn => ?_⟩
  · exact (hactive b).trans (congrArg Share.event (s.share_pressed now b hl hn))
  · have hends : s.Ends now b :=
      ⟨b, Enumerated.mem_all b, fun h => Bool.false_ne_true (hn.symm.trans (h.trans hl)),
        Or.inl rfl⟩
    refine (hactive b).trans (congrArg Share.event ((s.share_held now b hl).trans (if_pos hends)))
  · have hends : s.Ends now b :=
      ⟨c, Enumerated.mem_all c, hne, Or.inr ⟨hc.symm, hl, by rw [hv]; rfl⟩⟩
    refine (hactive b).trans (congrArg Share.event ((s.share_held now b hl).trans (if_pos hends)))
  · have hends : ¬s.Ends now b := by
      rintro ⟨c, -, hne, rfl | ⟨hc, -, hv⟩⟩
      · exact hne (hn.trans hl.symm)
      · rw [hall c hc.symm hne] at hv
        exact Bool.false_ne_true hv
    exact (hactive b).trans (congrArg Share.event ((s.share_held now b hl).trans (if_neg hends)))
  · exact (hactive b).trans (congrArg Share.event (s.share_idle now b hl hn))

theorem sent_eq_caused (s : Mapper) (now : Message) (b : Button) :
    (s.share now b).sent = s.caused now (s.after (.process now)) b := by
  have hactive : (s.after (.process now)).active.get b = (s.share now b).event :=
    (s.draft_process now).1 b
  rw [caused, hactive]
  cases hl : s.last.button b with
  | false =>
    cases hn : now.button b with
    | false => simp [s.share_idle now b hl hn]
    | true => simp [s.share_pressed now b hl hn]
  | true =>
    rw [s.share_held now b hl]
    split
    · simp
    · by_cases hv : s.active.get b = .void
      · simp [hv, ButtonEvent.ending]
      · simp [hv]

/-- A message is taken: it is processed without failure, or only its frame fails. -/
def Takes (s : Mapper) (b : Backend) (now : Message) (m : Multiplexer) : Prop :=
  (s.runProcess b now m).2.2 = .ok () ∨ (s.runProcess b now m).1.last = now

/-- The mappers that messages and resets lead to, on any multiplexers and whatever their backends
answer, as long as every message is taken. -/
inductive Reached : Mapper → Prop where
  | new (w : Wiring) : Reached w.mapper
  | process {s : Mapper} (h : Reached s) {b : Backend} {now : Message} {m : Multiplexer}
    (ht : s.Takes b now m) : Reached (s.runProcess b now m).1
  | reset {s : Mapper} (h : Reached s) (b : Backend) (m : Multiplexer) :
    Reached (s.runReset b m).1

/-- A plan is carried out to its last call, or one of the calls before it fails. -/
theorem follow_cases (b : Backend) (xs : List Step) (y : Step) (s : Mapper) (m : Multiplexer) :
    (follow b (xs ++ [y]) s m).1 = y.mapper ∨
      ∃ x ∈ xs, (follow b (xs ++ [y]) s m).1 = x.mapper ∧
        (follow b (xs ++ [y]) s m).2.2 ≠ .ok () ∧
        ∃ n : Multiplexer, (n.perform b x.call).2 ≠ .ok () := by
  induction xs generalizing s m with
  | nil =>
    left
    change (follow b [y] s m).1 = y.mapper
    rw [follow]
    rcases m.perform b y.call with ⟨n, _ | _⟩ <;> rfl
  | cons x xs ih =>
    rw [List.cons_append, follow]
    cases he : m.perform b x.call with
    | mk n r =>
      cases r with
      | error e =>
        have hfail : (Except.error e : Except OutputError Unit) ≠ .ok () := by
          intro h
          cases h
        exact Or.inr ⟨x, List.mem_cons_self, rfl, hfail, m, by rw [he]; exact hfail⟩
      | ok u =>
        rcases ih x.mapper n with h | ⟨z, hz, h⟩
        · exact Or.inl h
        · exact Or.inr ⟨z, List.mem_cons_of_mem x hz, h⟩

theorem last_of_mem_steps {s : Mapper} {job : Job} {x : Step} (hx : x ∈ (s.draft job).steps) :
    x.mapper.last = s.last := by
  let P : Draft → Prop := fun d => d.mapper.last = s.last ∧ ∀ x ∈ d.steps, x.mapper.last = s.last
  have hstable : Draft.Stable P := by
    refine ⟨fun _ _ hd => hd, fun device code v i hd => ⟨hd.1, fun x hx => ?_⟩, fun _ _ hd => hd,
      fun _ _ hd => hd⟩
    rcases List.mem_append.mp hx with hx | hx
    · exact hd.2 x hx
    · rw [List.mem_singleton.mp hx]
      exact hd.1
  exact (hstable.draft (P := P) ⟨rfl, fun _ hx => nomatch hx⟩ job).2 x hx

theorem draft_last (s : Mapper) : s.draft (.process s.last) = ⟨[], s⟩ := by
  have hbuttons : ∀ b, (if s.last.button b ≠ s.last.button b
      then (⟨[], s⟩ : Draft).changeButton s.last s.last b else ⟨[], s⟩) = ⟨[], s⟩ :=
    fun b => if_neg (not_not.mpr rfl)
  have haxes : ∀ a, (if s.last.axis a ≠ s.last.axis a
      then (⟨[], s⟩ : Draft).changeAxis s.last a else ⟨[], s⟩) = ⟨[], s⟩ :=
    fun a => if_neg (not_not.mpr rfl)
  rw [draft, List.foldl_fixed' hbuttons Button.all, List.foldl_fixed' haxes Axis.all]

/-- Once the devices of its timers are active, a mapper takes every message, whatever the backend
answers. -/
theorem Settled.takes {s : Mapper} {m : Multiplexer} (h : s.Settled) (hm : m.InService)
    (ht : s.wiring.TimersActive m) (b : Backend) (now : Message) : s.Takes b now m := by
  obtain ⟨n, -, -, -, hrun⟩ := h.follow_plan hm ht b (.process now)
  have hlast : (s.runProcess b now m).1 = s.after (.process now) := congrArg Prod.fst hrun
  refine Or.inr ?_
  rw [hlast]
  rfl

theorem Takes.eq_after {s : Mapper} {b : Backend} {now : Message} {m : Multiplexer}
    (h : s.Takes b now m) : (s.runProcess b now m).1 = s.after (.process now) := by
  have hplan : s.process now = _ := s.plan_eq (.process now)
  have hrun : s.runProcess b now m = _ := congrArg (follow b · s m) hplan
  rcases follow_cases b (s.draft (.process now)).steps
    ⟨.frame (s.draft (.process now)).mapper.frame, s.after (.process now)⟩ s m with
    hend | ⟨x, hx, hmapper, hfail, -⟩
  · rw [hrun]
    exact hend
  · exfalso
    rcases h with hok | hlast
    · rw [hrun] at hok
      exact hfail hok
    · rw [hrun] at hlast
      have hsame : s.last = now := by
        rw [← last_of_mem_steps hx, ← hmapper]
        exact hlast
      rw [← hsame, draft_last] at hx
      exact nomatch hx

theorem removal_of_mem_reset {s : Mapper} {x : Step} (hx : x ∈ (s.draft .reset).steps) :
    ∃ d code, x.call = .setRepeat d code 0 (-1) := by
  let P : Draft → Prop := fun d => ∀ x ∈ d.steps, ∃ d code, x.call = .setRepeat d code 0 (-1)
  have hremove : ∀ {d : Draft} (device code : UInt16),
      P d → P (d.setRepeat device code 0 (-1)) := by
    intro d device code hd x hx
    rcases List.mem_append.mp hx with hx | hx
    · exact hd x hx
    · rw [List.mem_singleton.mp hx]
      exact ⟨_, code, rfl⟩
  have hdraft : P (s.draft .reset) := by
    refine draft_reset_induct (fun _ hx => nomatch hx) (fun d b hd => ?_) fun d a hd => ?_
    · unfold Draft.drop
      cases d.mapper.active.get b with
      | rel device code v i => exact hremove device code hd
      | _ => exact hd
    · unfold restAxis
      split
      · split <;> exact hd
      · split
        · exact hremove _ _ hd
        · exact hd
      · exact hd
  exact hdraft x hx

theorem runReset_eq_after (s : Mapper) (b : Backend) (m : Multiplexer) :
    (s.runReset b m).1 = s.after .reset := by
  have hrun : s.runReset b m = _ := congrArg (follow b · s m) (s.plan_eq .reset)
  rw [hrun]
  rcases follow_cases b (s.draft .reset).steps
    ⟨.frame (s.draft .reset).mapper.frame, s.after .reset⟩ s m with
    hend | ⟨x, hx, -, -, n, hn⟩
  · exact hend
  · obtain ⟨d, code, hcall⟩ := removal_of_mem_reset hx
    rw [hcall, Multiplexer.perform, Multiplexer.setRepeat_neg n d code 0 (by decide)] at hn
    exact (hn rfl).elim

theorem Reached.settled {s : Mapper} (h : s.Reached) : s.Settled := by
  induction h with
  | new w => exact settled_mapper w
  | process _ ht ih =>
    rw [ht.eq_after]
    exact ih.after _
  | reset _ b m ih =>
    rw [runReset_eq_after]
    exact ih.after .reset

/-- Once a message is taken, the event of each button and what it has written follow from the
message before, the new one and the events held before; the order of the buttons does not show,
nor that several of them have changed at once. Nothing was left over before the message if every
message so far has been taken, and a button that is not pressed then holds no event. On active
devices every message is taken. -/
theorem selection_of_taken {s : Mapper} {now : Message} {b : Backend} {m : Multiplexer}
    (h : s.Takes b now m) :
    let s' := (s.runProcess b now m).1
    s.Selects now s' ∧
    (∃ timers es, s.process now =
        timers ++ [⟨.frame (s.frame ++ es ++ Axis.all.flatMap (s.axisEvents now)), s'⟩] ∧
      (∀ x ∈ timers, ∃ d code v i, x.call = .setRepeat d code v i) ∧
      es.Perm (Button.all.flatMap (s.caused now s'))) ∧
    (s.Reached → s.frame = [] ∧ (∀ c, now.button c = false → s'.active.get c = .void) ∧
      ∀ n : Multiplexer, n.InService → s.wiring.TimersActive n → ∀ a later, s.Takes a later n) := by
  intro s'
  have hs' : s' = s.after (.process now) := h.eq_after
  rw [hs']
  refine ⟨s.selects_after now, ?_, fun hr => ⟨hr.settled.frame, fun c hc => ?_,
    fun n hn ht => hr.settled.takes hn ht⟩⟩
  · obtain ⟨-, es, hframe, hperm⟩ := s.draft_process now
    refine ⟨(s.draft (.process now)).steps, es, ?_, fun x => Draft.timers_of_mem_steps, ?_⟩
    · rw [← hframe]
      exact s.plan_eq (.process now)
    · refine hperm.trans (List.Perm.of_eq ?_)
      exact List.flatMap_congr fun c _ => s.sent_eq_caused now c
  · by_contra hv
    have hlast : now.button c = true := (hr.settled.after (.process now)).held c hv
    exact Bool.false_ne_true (hc.symm.trans hlast)

/-- A shift button is pressed together with one button under it, while another one is held. -/
theorem selection_of_taken_same_frame :
    let w : Wiring :=
      ⟨.bindShifted (.bindShifted (.bind (.bind .empty .faceA (.key 0 304)) .faceB (.key 0 305))
        .rb .faceA (.key 0 308)) .rb .faceB (.key 0 309), .empty, 0⟩
    let m : Multiplexer :=
      { base := "pad"
        devices := (∅ : DeviceMap Device).insert ⟨0, 0⟩ (.active (.forDevice "pad" ⟨0, 0⟩) [])
        finished := true }
    let first := Message.neutral.setButton .faceA true
    let now := (first.setButton .faceB true).setButton .rb true
    let x := w.mapper.runProcess .reliable first m
    let y := x.1.runProcess .reliable now x.2.1
    y.2.2 = .ok () ∧ y.1.active.get .faceA = .void ∧ y.1.active.get .faceB = .key 0 309 ∧
      x.1.frame = [] ∧ y.1.active.get .lb = .void ∧
      ∃ timers es, x.1.process now = timers ++ [⟨.frame es, y.1⟩] ∧
        es.Perm [(⟨0, 0⟩, ⟨.key, 304, 0⟩), (⟨0, 0⟩, ⟨.key, 309, 1⟩)] := by
  intro w m first now x y
  have hok : y.2.2 = .ok () := by decide +kernel
  have hfirst : w.mapper.Takes .reliable first m := Or.inl (by decide +kernel)
  have htaken : x.1.Takes .reliable now x.2.1 := Or.inl (by decide +kernel)
  have hcaused : Button.all.flatMap (x.1.caused now y.1) =
      [(⟨0, 0⟩, ⟨.key, 304, 0⟩), (⟨0, 0⟩, ⟨.key, 309, 1⟩)] := by decide +kernel
  have haxes : Axis.all.flatMap (x.1.axisEvents now) = [] := by decide +kernel
  have hheld : y.1.active.get .faceA = .void ∧ y.1.active.get .faceB = .key 0 309 := by
    decide +kernel
  have hreached : x.1.Reached := .process (.new w) hfirst
  have hy : x.1.runProcess .reliable now x.2.1 = y := rfl
  have hselection := selection_of_taken htaken
  simp only [hy] at hselection
  obtain ⟨-, ⟨timers, es, hplan, -, hperm⟩, hclean⟩ := hselection
  obtain ⟨hframe, hidle, -⟩ := hclean hreached
  rw [hframe, haxes, List.nil_append, List.append_nil] at hplan
  exact ⟨hok, hheld.1, hheld.2, hframe, hidle .lb (by decide), timers, es, hplan, hcaused ▸ hperm⟩

end Mapper

end PadRemap
