import PadRemap.Proofs.Mapper.Selection
import PadRemap.Proofs.Mapper.Upkeep

/-! How long relative motion is repeated. Several buttons and axes may repeat motion on one outlet,
but the outlet has one timer, and whichever of them stops removes it. The main statement says that
this is all that can go wrong: as long as a source repeats motion its timer is there, unless it was
removed for another source that stopped meanwhile and has not been set since. -/

namespace PadRemap

open Mapper (Job)

namespace Mapper

/-- A source that repeats motion on an outlet: a button holds such an event, or an axis that is
bound to it stands off its rest. -/
def Repeats (s : Mapper) (device code : UInt16) : Origin → Prop
  | .button b => ∃ v i, s.active.get b = .rel device code v i ∧ 0 ≤ i
  | .axis a => ∃ speed i, s.axes.lookup a = .rel device code speed i ∧ 0 ≤ i ∧
      Draft.relativeValue speed s.last a ≠ 0

/-- A message stops the motion of a source on an outlet: it ends the event of a button, or it
moves an axis to where it has no motion, or none that is repeated. -/
def Stops (s : Mapper) (now : Message) (device code : UInt16) : Origin → Prop
  | .button b => (∃ v i, s.active.get b = .rel device code v i) ∧ s.Ends now b
  | .axis a => ∃ speed i, s.axes.lookup a = .rel device code speed i ∧
      now.axis a ≠ s.last.axis a ∧ (Draft.relativeValue speed now a = 0 ∨ i < 0)

end Mapper

namespace Draft

variable {s : Mapper} {now : Message} {d : Draft}

/-- A draft made for a message. Buttons held before it have kept their event or lost it, and
timers are removed only for sources that stop. -/
structure Ending (s : Mapper) (now : Message) (d : Draft) : Prop where
  wiring : d.mapper.wiring = s.wiring
  held : ∀ b, s.last.button b = true →
    d.mapper.active.get b = s.active.get b ∨ d.mapper.active.get b = .void
  removed : ∀ x ∈ d.steps, ∀ device code v i,
    x.call = .setRepeat ⟨s.group, device⟩ code v i → i < 0 → ∃ y, s.Stops now device code y

namespace Ending

theorem group (h : d.Ending s now) : d.mapper.group = s.group := congrArg Wiring.group h.wiring

theorem push (h : d.Ending s now) (device : UInt16) (e : Event) : (d.push device e).Ending s now :=
  ⟨h.wiring, h.held, h.removed⟩

theorem setRelative (h : d.Ending s now) (a : Axis) (v : Int) : (d.setRelative a v).Ending s now :=
  ⟨h.wiring, h.held, h.removed⟩

theorem setRepeat (h : d.Ending s now) {device code : UInt16} (v : Int) {i : Int}
    (hi : i < 0 → ∃ y, s.Stops now device code y) :
    (d.setRepeat device code v i).Ending s now := by
  refine ⟨h.wiring, h.held, fun x hx device' code' v' i' hc hneg => ?_⟩
  rcases List.mem_append.mp hx with hx | hx
  · exact h.removed x hx device' code' v' i' hc hneg
  · have hcall : x.call = .setRepeat ⟨s.group, device⟩ code v i := by
      rw [List.mem_singleton.mp hx, ← h.group]
    cases hcall.symm.trans hc
    exact hi hneg

theorem setActive (h : d.Ending s now) {b : Button} {e : ButtonEvent}
    (he : s.last.button b = true → e = .void) : (d.setActive b e).Ending s now := by
  refine ⟨h.wiring, fun c hc => ?_, h.removed⟩
  change (d.mapper.active.set b e).get c = _ ∨ (d.mapper.active.set b e).get c = _
  by_cases hcb : c = b
  · subst hcb
    rw [Table.get_set_self]
    exact Or.inr (he hc)
  · rw [Table.get_set_ne _ _ hcb]
    exact h.held c hc

theorem press (h : d.Ending s now) (e : ButtonEvent) : (d.press e).Ending s now := by
  cases e with
  | void => exact h
  | key device code => exact h.push _ _
  | abs device code v => exact h.push _ _
  | rel device code v i =>
    unfold Draft.press
    simp only
    split
    · exact (h.push _ _).setRepeat _ fun hneg => by omega
    · exact h.push _ _

theorem drop (h : d.Ending s now) {b : Button} (hb : s.last.button b = true)
    (he : s.Ends now b) : (d.drop b).Ending s now := by
  have hv : (d.setActive b .void).Ending s now := h.setActive fun _ => rfl
  unfold Draft.drop
  cases ha : d.mapper.active.get b with
  | void => exact hv
  | key device code => exact hv.push _ _
  | abs device code v => exact hv.push _ _
  | rel device code v i =>
    refine hv.setRepeat 0 fun _ => ⟨.button b, ⟨v, i, ?_⟩, he⟩
    rcases h.held b hb with hsame | hvoid
    · exact hsame.symm.trans ha
    · cases hvoid.symm.trans ha

theorem dropShifted (h : d.Ending s now) {c : Button} (hc : now.button c ≠ s.last.button c) :
    (d.dropShifted s.last c).Ending s now := by
  refine List.foldlRecOn _ _ h fun d h b _ => ?_
  have hbuttons : d.mapper.buttons = s.buttons := congrArg Wiring.buttons h.wiring
  rw [hbuttons]
  split
  · next hs => exact h.drop hs.2.1 ⟨c, Enumerated.mem_all c, hc, Or.inr hs⟩
  · exact h

theorem changeButton (h : d.Ending s now) {c : Button} (hc : now.button c ≠ s.last.button c) :
    (d.changeButton s.last now c).Ending s now := by
  have hd := h.dropShifted hc
  unfold Draft.changeButton
  simp only
  split
  · next hn =>
    refine (hd.setActive fun hl => ?_).press _
    exact (hc (hn.trans hl.symm)).elim
  · next hn =>
    have hl : s.last.button c = true := by
      by_contra hl
      exact hc ((Bool.eq_false_iff.mpr hn).trans (Bool.eq_false_iff.mpr hl).symm)
    exact hd.drop hl ⟨c, Enumerated.mem_all c, hc, Or.inl rfl⟩

theorem changeAxis (h : d.Ending s now) {a : Axis} (ha : now.axis a ≠ s.last.axis a) :
    (d.changeAxis now a).Ending s now := by
  have haxes : d.mapper.axes = s.axes := congrArg Wiring.axes h.wiring
  unfold Draft.changeAxis
  rw [haxes]
  split
  · exact h
  · exact h.push _ _
  · next device code speed interval he =>
    have hr := h.setRelative a (relativeValue speed now a)
    have hstops : relativeValue speed now a = 0 ∨ interval < 0 →
        ∃ y, s.Stops now device code y :=
      fun hz => ⟨.axis a, speed, interval, he, ha, hz⟩
    simp only
    split
    · next hz => exact hr.setRepeat _ fun _ => hstops (Or.inl hz)
    · split
      · exact (hr.push _ _).setRepeat _ fun hi => hstops (Or.inr hi)
      · exact hr.setRepeat _ fun hi => hstops (Or.inr hi)

theorem draft (s : Mapper) (now : Message) : (s.draft (.process now)).Ending s now := by
  have hstart : (⟨[], s⟩ : Draft).Ending s now :=
    ⟨rfl, fun _ _ => Or.inl rfl, fun _ hx => nomatch hx⟩
  refine Mapper.draft_process_induct hstart (fun d b hd hb => ?_) fun d a hd ha => ?_
  · exact hd.changeButton hb
  · exact hd.changeAxis ha

end Ending

end Draft

namespace Mapper

variable {s : Mapper} {now : Message} {g device code : UInt16}

theorem Settled.repeats_iff (h : s.Settled) (hg : s.group = g) (x : Origin) :
    s.Repeats device code x ↔ s.level ⟨⟨g, device⟩, .rel, code⟩ x ≠ none := by
  subst hg
  have hmotion : ∀ v i, Level.motion v i ≠ none ↔ 0 ≤ i := fun v i => by
    rw [Option.ne_none_iff_exists']
    simp [Level.motion_eq_some]
  cases x with
  | button b =>
    rw [level, drives]
    cases hb : s.active.get b with
    | rel device' code' v i =>
      simp [Repeats, hb, ButtonEvent.output?, ButtonEvent.level, hmotion, and_assoc]
    | _ => simp [Repeats, hb, ButtonEvent.output?]
  | axis a =>
    have hr := h.relative a
    rw [level, drives, hr]
    cases ha : s.axes.lookup a with
    | rel device' code' speed i =>
      by_cases hz : Draft.relativeValue speed s.last a = 0
      · simp [Repeats, ha, AxisEvent.output?, AxisEvent.level, AxisEvent.motion, hz]
      · simp [Repeats, ha, AxisEvent.output?, AxisEvent.level, AxisEvent.motion, hz, hmotion,
          and_assoc]
    | _ => simp [Repeats, ha, AxisEvent.output?]

theorem Settled.not_repeats_of_stops (h : s.Settled) {y : Origin}
    (hy : s.Stops now device code y) : ¬(s.after (.process now)).Repeats device code y := by
  cases y with
  | button b =>
    obtain ⟨⟨v, i, hb⟩, hends⟩ := hy
    have hl : s.last.button b = true := h.held b (by rw [hb]; simp)
    have hvoid : (s.after (.process now)).active.get b = .void := by
      refine ((s.draft_process now).1 b).trans ?_
      rw [s.share_held now b hl, if_pos hends]
    rintro ⟨v', i', hb', -⟩
    cases hvoid.symm.trans hb'
  | axis a =>
    obtain ⟨speed, i, ha, -, hz⟩ := hy
    have haxes : (s.after (.process now)).axes = s.axes :=
      congrArg Wiring.axes (h.wiring_after (.process now))
    rintro ⟨speed', i', ha', hi, hne⟩
    rw [haxes, ha] at ha'
    cases ha'
    rcases hz with hz | hneg
    · exact hne hz
    · omega

/-- A plan whose last word on a timer is to remove it has stopped a source. -/
theorem stops_of_removed (hg : s.group = g)
    (h : Step.writes ⟨⟨g, device⟩, .rel, code⟩ (s.process now) = some none) :
    ∃ y, s.Stops now device code y := by
  subst hg
  have hplan : s.process now = _ := s.plan_eq (.process now)
  rw [hplan, Step.writes_append, Step.writes_singleton] at h
  change Step.writes _ (s.draft (.process now)).steps = some none at h
  obtain ⟨x, hx, hw⟩ := List.exists_of_findSome?_eq_some h
  have hmem := List.mem_reverse.mp hx
  obtain ⟨d, c, v, i, hc⟩ := Draft.timers_of_mem_steps hmem
  rw [hc, Call.writes, Option.ite_none_right_eq_some] at hw
  obtain ⟨ho, hnone⟩ := hw
  cases ho
  refine (Draft.Ending.draft s now).removed x hmem device code v i hc ?_
  by_contra hn
  have hsome := (Level.motion_eq_some (v := v) (x := (v, max i.toNat 1))).mpr ⟨by omega, rfl⟩
  cases (Option.some.inj hnone).symm.trans hsome

theorem Settled.repeats_heard (h : s.Settled) (hg : s.group = g) {ms : List Message}
    (hn : Step.writes ⟨⟨g, device⟩, .rel, code⟩ (s.orders ms) = none) (x : Origin) :
    (s.heard ms).Repeats device code x ↔ s.Repeats device code x := by
  rw [h.repeats_iff hg, (h.heard ms).repeats_iff ((h.group_heard ms).trans hg)]
  rcases h.orders_writes ms ⟨⟨g, device⟩, .rel, code⟩ with ⟨-, hsame⟩ | ⟨z, hz⟩
  · rw [hsame]
  · cases hn.symm.trans hz

/-- A timer that was set last by an order repeats the motion of a source. -/
theorem Settled.exists_repeats_of_set (h : s.Settled) {ms : List Message} {t : Int × Nat}
    (hw : Step.writes ⟨⟨s.group, device⟩, .rel, code⟩ (s.orders ms) = some (some t)) :
    ∃ x, (s.heard ms).Repeats device code x ∧
      (s.heard ms).level ⟨⟨s.group, device⟩, .rel, code⟩ x = some t := by
  rcases h.orders_writes ms ⟨⟨s.group, device⟩, .rel, code⟩ with ⟨hn, -⟩ | ⟨x, hx⟩
  · cases hn.symm.trans hw
  · have hlevel := Option.some.inj (hx.symm.trans hw)
    refine ⟨x, ((h.heard ms).repeats_iff (h.group_heard ms) x).mpr ?_, hlevel⟩
    rw [hlevel]
    exact Option.some_ne_none t

theorem not_repeats_mapper (w : Wiring) (x : Origin) : ¬w.mapper.Repeats device code x := by
  rw [(settled_mapper w).repeats_iff rfl, level_mapper]
  exact fun h => h rfl

/-- A source repeats motion without a timer: the timer was removed for another source that stopped
with the message `now`, and has not been set since, while this one has gone on. -/
structure Deprived (s : Mapper) (before : List Message) (now : Message) (later : List Message)
    (device code : UInt16) (x : Origin) : Prop where
  stopped : ∃ y ≠ x, (s.heard before).Stops now device code y
  removed : Step.writes ⟨⟨s.group, device⟩, .rel, code⟩ ((s.heard before).process now) = some none
  silent : Step.writes ⟨⟨s.group, device⟩, .rel, code⟩
    ((s.heard (before ++ [now])).orders later) = none
  repeating : ∀ past, past <+: later →
    (s.heard (before ++ now :: past)).Repeats device code x

/-- If the last order for an outlet has removed its timer, every source that still repeats motion
there is without one. -/
theorem Settled.deprived_of_removed (h : s.Settled) {ms : List Message} {x : Origin}
    (hw : Step.writes ⟨⟨s.group, device⟩, .rel, code⟩ (s.orders ms) = some none)
    (hx : (s.heard ms).Repeats device code x) :
    ∃ before now later, ms = before ++ now :: later ∧
      s.Deprived before now later device code x := by
  obtain ⟨before, now, later, rfl, hremoved, hsilent⟩ := orders_split hw
  have hafter : ∀ past, s.heard (before ++ now :: past) =
      (s.heard (before ++ [now])).heard past := fun past => by
    rw [← heard_append, List.append_assoc, List.singleton_append]
  have hsettled := h.heard (before ++ [now])
  have hgroup := h.group_heard (before ++ [now])
  rw [hafter, hsettled.repeats_heard hgroup hsilent] at hx
  -- nothing is ordered after `now`, so what repeats at the end has done so all the time since
  have hrepeating : ∀ past, past <+: later →
      (s.heard (before ++ now :: past)).Repeats device code x := by
    rintro past ⟨rest, rfl⟩
    rw [orders_append, Step.writes_append, Option.or_eq_none_iff] at hsilent
    rw [hafter, hsettled.repeats_heard hgroup hsilent.2]
    exact hx
  obtain ⟨y, hy⟩ := stops_of_removed (h.group_heard before) hremoved
  refine ⟨before, now, later, rfl, ⟨⟨y, ?_, hy⟩, hremoved, hsilent, hrepeating⟩⟩
  rintro rfl
  refine (h.heard before).not_repeats_of_stops hy ?_
  rwa [heard_append] at hx

theorem timer_or_deprived {w : Wiring} (ms : List Message) {t : Level}
    (ht : t = (Step.writes ⟨⟨w.group, device⟩, .rel, code⟩ (w.mapper.orders ms)).getD none) :
    (∀ y, t = some y → ∃ x, (w.mapper.heard ms).Repeats device code x ∧
      (w.mapper.heard ms).level ⟨⟨w.group, device⟩, .rel, code⟩ x = some y) ∧
    ∀ x, (w.mapper.heard ms).Repeats device code x →
      (∃ y, t = some y) ∨ t = none ∧ ∃ before now later, ms = before ++ now :: later ∧
        w.mapper.Deprived before now later device code x := by
  have h := settled_mapper w
  cases hw : Step.writes ⟨⟨w.group, device⟩, .rel, code⟩ (w.mapper.orders ms) with
  | none =>
    rw [hw] at ht
    refine ⟨fun y hy => (nomatch ht.symm.trans hy), fun x hx => ?_⟩
    exact (not_repeats_mapper w x ((h.repeats_heard rfl hw x).mp hx)).elim
  | some z =>
    have hz : t = z := by rw [ht, hw]; rfl
    subst hz
    refine ⟨fun y hy => h.exists_repeats_of_set (hy ▸ hw), fun x hx => ?_⟩
    cases t with
    | none => exact Or.inr ⟨rfl, h.deprived_of_removed hw hx⟩
    | some y => exact Or.inl ⟨y, rfl⟩

end Mapper

def Wiring.AsOrdered (w : Wiring) (jobs : List Job) (s : Mapper) (l : Output → Level) : Prop :=
  ∀ ms, jobs = ms.map .process → s = w.mapper.heard ms ∧ ∀ o, o.device.group = w.group →
    l o = (Step.writes o (w.mapper.orders ms)).getD none

theorem Wiring.lasting_asOrdered (w : Wiring) : w.Lasting w.AsOrdered where
  congr hl hd ms hms := by
    obtain ⟨hs, hd⟩ := hd ms hms
    exact ⟨hs, fun o ho => (hl o ho).trans (hd o ho)⟩
  plan {js s l} job _ _ hd ms hms := by
    obtain ⟨before, last, rfl, hbefore, hlast⟩ := List.map_eq_append_iff.mp hms.symm
    obtain ⟨now, rfl, rfl⟩ := List.map_eq_singleton_iff.mp hlast
    obtain ⟨rfl, hlevel⟩ := hd before hbefore.symm
    rw [Mapper.heard_append, Mapper.orders_append]
    refine ⟨rfl, fun o ho => ?_⟩
    have hplan : (w.mapper.heard before).orders [now] =
        (w.mapper.heard before).plan (.process now) := List.append_nil _
    simp only [hplan, Step.writes_append, hlevel o ho]
    cases Step.writes o ((w.mapper.heard before).plan (.process now)) <;> rfl

namespace Ensemble

variable {ι : Type} [DecidableEq ι] {m : Multiplexer}

/-- A mapper alone in its group that has only processed messages, without failure. Each timer
there is repeats the motion of a source, and each source that repeats motion has its timer, except
where the timer was removed for another source that stopped and has not been set since. -/
theorem repeats_or_deprived (hm : m.Fresh) (w : ι → Wiring) (i : ι)
    (halone : ∀ j, j ≠ i → (w j).group ≠ (w i).group) (scripts : ι → List Job)
    (moves : List (Move ι)) :
    let e := (Ensemble.start m w scripts).run moves
    (∀ r ∈ (e.players i).results, r = .ok ()) → (e.players i).Idle →
      ∀ ms, (e.players i).begun = ms.map .process →
        (e.players i).mapper = (w i).mapper.heard ms ∧
        ∀ device code,
          (∀ t, e.mux.timerOn ⟨⟨(w i).group, device⟩, code⟩ = some t →
            ∃ x, (e.players i).mapper.Repeats device code x ∧
              (e.players i).mapper.level ⟨⟨(w i).group, device⟩, .rel, code⟩ x = some t) ∧
          ∀ x, (e.players i).mapper.Repeats device code x →
            (∃ t, e.mux.timerOn ⟨⟨(w i).group, device⟩, code⟩ = some t) ∨
            e.mux.timerOn ⟨⟨(w i).group, device⟩, code⟩ = none ∧
              ∃ before now later, ms = before ++ now :: later ∧
                (w i).mapper.Deprived before now later device code x := by
  intro e hr hi ms hms
  have hcompletes : e.Completes m w i (w i).AsOrdered := by
    refine run_induct (.start hm w scripts i (w i).lasting_asOrdered fun ns hns => ?_)
      fun _ he mv _ => he.next (w i).lasting_asOrdered halone mv
    obtain rfl := List.map_eq_nil_iff.mp hns.symm
    exact ⟨rfl, fun _ _ => rfl⟩
  obtain ⟨-, hd⟩ := hcompletes.holds hr
  rw [hi, Player.target_of_idle hi] at hd
  obtain ⟨hmapper, hlevel⟩ := hd ms hms
  refine ⟨hmapper, fun device code => ?_⟩
  rw [hmapper]
  exact Mapper.timer_or_deprived ms (hlevel ⟨⟨(w i).group, device⟩, .rel, code⟩ rfl)

/-- A button and an axis turn the same wheel. While the axis is off its rest the button is pressed
and released, and the axis goes on without a timer. -/
theorem repeats_or_deprived_axis :
    let w : Wiring := ⟨.bind .empty .faceB (.rel 1 8 1 50), .bind .empty .x1 (.rel 1 8 4 50), 0⟩
    let m : Multiplexer :=
      { base := "pad"
        devices := (∅ : DeviceMap Device).insert ⟨0, 1⟩ (.active (.forDevice "pad" ⟨0, 1⟩) [])
        finished := true }
    let tilted := Message.neutral.setAxis .x1 32767
    let ms := [tilted, tilted.setButton .faceB true, tilted]
    let e := (start m (fun _ : Unit => w) fun _ => ms.map .process).run
      (List.replicate 9 (.advance () .reliable))
    e.mux.timerOn ⟨⟨0, 1⟩, 8⟩ = none ∧
      (e.players ()).mapper.Repeats 1 8 (.axis .x1) ∧
      ∃ before now later, ms = before ++ now :: later ∧
        w.mapper.Deprived before now later 1 8 (.axis .x1) := by
  intro w m tilted ms e
  have hm : m.Fresh := Multiplexer.fresh_insert _ _ _
  have hrun : (e.players ()).results = [.ok (), .ok (), .ok ()] ∧ (e.players ()).pending = [] ∧
      (e.players ()).begun = ms.map .process ∧ e.mux.timerOn ⟨⟨0, 1⟩, 8⟩ = none := by
    decide +kernel
  have haxis : (e.players ()).mapper.axes.lookup .x1 = .rel 1 8 4 50 ∧
      Draft.relativeValue 4 (e.players ()).mapper.last .x1 ≠ 0 := by
    decide +kernel
  obtain ⟨hok, hi, hbegun, hnone⟩ := hrun
  have hx : (e.players ()).mapper.Repeats 1 8 (.axis .x1) :=
    ⟨4, 50, haxis.1, by decide, haxis.2⟩
  have hresults : ∀ r ∈ (e.players ()).results, r = .ok () := by
    rw [hok]
    simp
  obtain ⟨-, htimers⟩ := repeats_or_deprived hm (fun _ => w) () (fun _ h => (h rfl).elim)
    (fun _ => ms.map .process) (List.replicate 9 (.advance () .reliable)) hresults hi ms hbegun
  rcases (htimers 1 8).2 _ hx with ⟨t, ht⟩ | ⟨-, hdeprived⟩
  · cases hnone.symm.trans ht
  · exact ⟨hnone, hx, hdeprived⟩

/-- Two buttons turn a wheel in opposite directions. The second one is pressed and released while
the first one is held, which then holds its event without a timer. -/
theorem repeats_lost_by_release :
    let w : Wiring := ⟨.bind (.bind .empty .faceA (.rel 1 8 1 50)) .faceB (.rel 1 8 (-1) 50),
      .empty, 0⟩
    let m : Multiplexer :=
      { base := "pad"
        devices := (∅ : DeviceMap Device).insert ⟨0, 1⟩ (.active (.forDevice "pad" ⟨0, 1⟩) [])
        finished := true }
    let held := Message.neutral.setButton .faceA true
    let ms := [held, held.setButton .faceB true, held]
    let e := (start m (fun _ : Unit => w) fun _ => ms.map .process).run
      (List.replicate 9 (.advance () .reliable))
    (e.players ()).results = [.ok (), .ok (), .ok ()] ∧ (e.players ()).Idle ∧
      (e.players ()).begun = ms.map .process ∧
      (e.players ()).mapper.active.get .faceA = .rel 1 8 1 50 ∧
      ¬∀ device code x, (e.players ()).mapper.Repeats device code x →
        ∃ t, e.mux.timerOn ⟨⟨0, device⟩, code⟩ = some t := by
  intro w m held ms e
  have hrun : (e.players ()).results = [.ok (), .ok (), .ok ()] ∧ (e.players ()).pending = [] ∧
      (e.players ()).begun = ms.map .process ∧
      (e.players ()).mapper.active.get .faceA = .rel 1 8 1 50 ∧
      e.mux.timerOn ⟨⟨0, 1⟩, 8⟩ = none := by
    decide +kernel
  obtain ⟨hok, hi, hbegun, hheld, hnone⟩ := hrun
  refine ⟨hok, hi, hbegun, hheld, fun hall => ?_⟩
  obtain ⟨t, ht⟩ := hall 1 8 (.button .faceA) ⟨1, 50, hheld, by decide⟩
  cases hnone.symm.trans ht

end Ensemble

end PadRemap
