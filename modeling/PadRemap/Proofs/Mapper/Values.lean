import PadRemap.Proofs.Mapper.Reach
import PadRemap.Proofs.Mapper.Selection

/-! The values that mappers write to absolute axes. A button brings the value of its event and
zero, an axis brings whatever lies in its own range; nothing else is ever written, and each of
these values is written in some run. -/

namespace PadRemap

open Mapper (Job)

/-- An event that pressing a button can choose; no button is a shift for itself. -/
def ButtonBindings.Yields (t : ButtonBindings) (b : Button) (e : ButtonEvent) : Prop :=
  e = t.lookup b ∨ ∃ shift ≠ b, e = t.lookupShifted shift b

theorem ButtonBindings.Yields.binds {t : ButtonBindings} {b : Button} {e : ButtonEvent}
    (h : t.Yields b e) : t.Binds b e :=
  h.imp_right fun ⟨s, _, he⟩ => ⟨s, he⟩

theorem Draft.chosen_yields (t : ButtonBindings) (now : Message) (b : Button) :
    t.Yields b (chosen t now b) := by
  unfold chosen
  simp only
  cases h : List.find? _ _ with
  | none => exact Or.inl rfl
  | some e =>
    obtain ⟨s, hs, rfl⟩ := List.mem_map.mp (List.mem_of_find?_eq_some h)
    exact Or.inr ⟨s, (of_decide_eq_true (List.mem_filter.mp hs).2).1, rfl⟩

theorem Draft.exists_chosen {t : ButtonBindings} {b : Button} {e : ButtonEvent}
    (h : t.Yields b e) (hv : e ≠ .void) : ∃ now : Message, now.InRange ∧ now.button b = true ∧
      chosen t now b = e := by
  have hvoid : e.isVoid = false := by
    cases e with
    | void => exact (hv rfl).elim
    | _ => rfl
  rcases h with rfl | ⟨s, hs, rfl⟩
  · refine ⟨Message.neutral.setButton b true, .neutral, by simp, ?_⟩
    have hheld : Button.all.filter (fun s => s ≠ b ∧
        (Message.neutral.setButton b true).button s) = [] := by
      refine List.filter_eq_nil_iff.mpr fun s _ => ?_
      by_cases hs : s = b <;> simp [hs]
    rw [chosen, hheld]
    rfl
  · refine ⟨(Message.neutral.setButton b true).setButton s true, .neutral, by simp, ?_⟩
    have hheld : ∀ c, c ∈ Button.all.filter (fun c => c ≠ b ∧
        ((Message.neutral.setButton b true).setButton s true).button c) ↔ c = s := by
      intro c
      have hall : c ∈ Button.all := Enumerated.mem_all c
      simp only [List.mem_filter, hall, true_and, Message.button_setButton, decide_eq_true_eq]
      constructor
      · rintro ⟨hb, hc⟩
        by_contra hne
        simp [hb, hne] at hc
      · rintro rfl
        exact ⟨hs, if_pos rfl⟩
    unfold chosen
    simp only
    cases hf : List.find? _ _ with
    | none =>
      have hnone := List.find?_eq_none.mp hf (t.lookupShifted s b)
        (List.mem_map.mpr ⟨s, (hheld s).mpr rfl, rfl⟩)
      simp [hvoid] at hnone
    | some f =>
      obtain ⟨c, hc, rfl⟩ := List.mem_map.mp (List.mem_of_find?_eq_some hf)
      rw [(hheld c).mp hc]
      rfl

namespace Wiring

def Brings (w : Wiring) (o : Outlet) (v : Int) : Origin → Prop
  | .button b => w.group = o.device.group ∧ w.buttons.Yields b (.abs o.device.kind o.code v)
  | .axis a => w.group = o.device.group ∧ w.axes.lookup a = .abs o.device.kind o.code ∧ a.InRange v

/-- An event that a wiring accounts for: an absolute axis is put to rest, or some source has
brought the value. -/
def Sends (w : Wiring) (x : DeviceId × Event) : Prop :=
  x.2.kind = .abs → x.2.value = 0 ∨ ∃ y, w.Brings ⟨x.1, x.2.code⟩ x.2.value y

variable {w : Wiring} {b : Button} {e : ButtonEvent} {x : DeviceId × Event}

theorem sends_onset (h : w.buttons.Yields b e) (hx : x ∈ e.onset w.group) : w.Sends x := by
  intro hk
  cases e with
  | void => cases hx
  | key device code | rel device code v i =>
    cases List.mem_singleton.mp hx
    cases hk
  | abs device code v =>
    cases List.mem_singleton.mp hx
    exact Or.inr ⟨.button b, rfl, h⟩

theorem sends_ending {g : UInt16} (hx : x ∈ e.ending g) : w.Sends x := by
  intro hk
  cases e with
  | void | rel => cases hx
  | key device code | abs device code v =>
    cases List.mem_singleton.mp hx
    exact Or.inl rfl

end Wiring

namespace Mapper

variable {w : Wiring} {s : Mapper}

theorem sends_share (hw : s.wiring = w) (now : Message) (b : Button) {x : DeviceId × Event}
    (hx : x ∈ (s.share now b).sent) : w.Sends x := by
  subst hw
  cases hl : s.last.button b with
  | false =>
    cases hn : now.button b with
    | false =>
      rw [s.share_idle now b hl hn] at hx
      cases hx
    | true =>
      rw [s.share_pressed now b hl hn] at hx
      exact Wiring.sends_onset (Draft.chosen_yields s.buttons now b) hx
  | true =>
    rw [s.share_held now b hl] at hx
    split at hx
    · exact Wiring.sends_ending hx
    · cases hx

theorem sends_axisEvents (hw : s.wiring = w) {now : Message} (hn : now.InRange) {a : Axis}
    {x : DeviceId × Event} (hx : x ∈ s.axisEvents now a) : w.Sends x := by
  subst hw
  intro hk
  unfold axisEvents at hx
  split at hx
  · cases hx
  · split at hx
    · cases hx
    · next device code he =>
      cases List.mem_singleton.mp hx
      exact Or.inr ⟨.axis a, rfl, he, hn a⟩
    · simp only at hx
      split at hx
      · cases List.mem_singleton.mp hx
        cases hk
      · cases hx

theorem sends_draft (hw : s.wiring = w) {job : Job} (hj : job.message.InRange)
    {x : DeviceId × Event} (hx : x ∈ (s.draft job).mapper.frame) : x ∈ s.frame ∨ w.Sends x := by
  cases job with
  | process now =>
    obtain ⟨-, es, hframe, hperm⟩ := s.draft_process now
    rw [hframe, List.append_assoc] at hx
    rcases List.mem_append.mp hx with hx | hx
    · exact Or.inl hx
    · right
      rcases List.mem_append.mp hx with hx | hx
      · obtain ⟨b, -, hb⟩ := List.mem_flatMap.mp (hperm.mem_iff.mp hx)
        exact sends_share hw now b hb
      · obtain ⟨a, -, ha⟩ := List.mem_flatMap.mp hx
        exact sends_axisEvents hw hj ha
  | reset =>
    refine draft_reset_induct (motive := fun d => ∀ x ∈ d.mapper.frame, x ∈ s.frame ∨ w.Sends x)
      (fun x hx => Or.inl hx) (fun d b hd x hx => ?_) (fun d a hd x hx => ?_) x hx
    · rw [Draft.drop_mapper] at hx
      rcases List.mem_append.mp hx with hx | hx
      · exact hd x hx
      · exact Or.inr (Wiring.sends_ending hx)
    · unfold restAxis at hx
      split at hx
      · split at hx
        · rcases List.mem_append.mp hx with hx | hx
          · exact hd x hx
          · cases List.mem_singleton.mp hx
            exact Or.inr fun _ => Or.inl rfl
        · exact hd x hx
      · split at hx <;> exact hd x hx
      · exact hd x hx

theorem frame_of_mem_steps {job : Job} {y : Step} (hy : y ∈ (s.draft job).steps)
    {x : DeviceId × Event} (hx : x ∈ y.mapper.frame) : x ∈ (s.draft job).mapper.frame := by
  let P : Draft → Prop := fun d => ∀ y ∈ d.steps, ∀ x ∈ y.mapper.frame, x ∈ d.mapper.frame
  have hstable : Draft.Stable P := by
    refine ⟨fun _ _ hd y hy x hx => List.mem_append_left _ (hd y hy x hx),
      fun _ _ _ _ hd y hy => ?_, fun _ _ hd => hd, fun _ _ hd => hd⟩
    rcases List.mem_append.mp hy with hy | hy
    · exact hd y hy
    · rw [List.mem_singleton.mp hy]
      exact fun _ hx => hx
  exact hstable.draft (P := P) (fun _ hy => nomatch hy) job y hy x hx

theorem sends_plan (hw : s.wiring = w) (hs : ∀ x ∈ s.frame, w.Sends x) {job : Job}
    (hj : job.message.InRange) {y : Step} (hy : y ∈ s.plan job) :
    (∀ x ∈ y.mapper.frame, w.Sends x) ∧ ∀ es, y.call = .frame es → ∀ x ∈ es, w.Sends x := by
  have hdraft : ∀ x ∈ (s.draft job).mapper.frame, w.Sends x := fun x hx =>
    (sends_draft hw hj hx).elim (hs x) id
  rw [plan_eq] at hy
  rcases List.mem_append.mp hy with hy | hy
  · refine ⟨fun x hx => hdraft x (frame_of_mem_steps hy hx), fun es hc => ?_⟩
    obtain ⟨_, _, _, _, ht⟩ := Draft.timers_of_mem_steps hy
    cases ht.symm.trans hc
  · rw [List.mem_singleton.mp hy]
    refine ⟨fun x hx => (nomatch hx), fun es hc => ?_⟩
    cases hc
    exact hdraft

theorem exists_draft {o : Outlet} {v : Int} {y : Origin} (h : w.Brings o v y) (hv : v ≠ 0) :
    ∃ job : Job, job.message.InRange ∧
      (o.device, ⟨.abs, o.code, v⟩) ∈ (w.mapper.draft job).mapper.frame := by
  obtain ⟨⟨group, kind⟩, code⟩ := o
  cases y with
  | button b =>
    obtain ⟨hg, hy⟩ := h
    cases hg
    obtain ⟨now, hn, hb, hc⟩ := Draft.exists_chosen hy fun h => nomatch h
    refine ⟨.process now, hn, ?_⟩
    obtain ⟨-, es, hframe, hperm⟩ := w.mapper.draft_process now
    have hshare := w.mapper.share_pressed now b (Message.button_neutral b) hb
    have hmem : (⟨w.group, kind⟩, ⟨.abs, code, v⟩) ∈ (w.mapper.share now b).sent := by
      rw [hshare, show Draft.chosen w.mapper.buttons now b = _ from hc]
      exact List.mem_singleton.mpr rfl
    rw [hframe]
    exact List.mem_append_left _ (List.mem_append_right _ (hperm.mem_iff.mpr
      (List.mem_flatMap.mpr ⟨b, Enumerated.mem_all b, hmem⟩)))
  | axis a =>
    obtain ⟨hg, he, ha⟩ := h
    cases hg
    have hvalue : (Message.neutral.setAxis a v).axis a = v := by
      rw [Message.axis_setAxis, if_pos rfl, Axis.clamp_of_inRange ha]
    refine ⟨.process (Message.neutral.setAxis a v), Message.InRange.neutral.setAxis a v, ?_⟩
    obtain ⟨-, es, hframe, -⟩ := w.mapper.draft_process (Message.neutral.setAxis a v)
    have hmem : (⟨w.group, kind⟩, ⟨.abs, code, v⟩) ∈
        w.mapper.axisEvents (Message.neutral.setAxis a v) a := by
      have hmoved : ¬(Message.neutral.setAxis a v).axis a = w.mapper.last.axis a := by
        rw [hvalue, show w.mapper.last.axis a = 0 from Message.axis_neutral a]
        exact hv
      rw [axisEvents, if_neg hmoved, show w.mapper.axes.lookup a = _ from he, hvalue]
      exact List.mem_singleton.mpr rfl
    rw [hframe]
    exact List.mem_append_right _ (List.mem_flatMap.mpr ⟨a, Enumerated.mem_all a, hmem⟩)

end Mapper

structure Player.Sends (w : Wiring) (p : Player) : Prop where
  jobs : ∀ job ∈ p.jobs, job.message.InRange
  frame : ∀ x ∈ p.mapper.frame, w.Sends x
  pending : ∀ y ∈ p.pending, (∀ x ∈ y.mapper.frame, w.Sends x) ∧
    ∀ es, y.call = .frame es → ∀ x ∈ es, w.Sends x

theorem Player.Sends.advance {w : Wiring} {p : Player} (h : p.Sends w) (hp : p.Wired w)
    (b : Backend) (m : Multiplexer) : (p.advance b m).2.Sends w := by
  rcases p.advance_cases b m with ⟨-, -, he⟩ | ⟨job, jobs, -, hj, he⟩ | ⟨x, xs, hx, -, he⟩ |
    ⟨x, xs, e, hx, -, he⟩
  · rw [he]
    exact h
  · have hjobs := h.jobs
    rw [hj] at hjobs
    obtain ⟨hjob, hjobs⟩ := List.forall_mem_cons.mp hjobs
    rw [he]
    exact ⟨hjobs, h.frame, fun y hy => Mapper.sends_plan hp.mapper.wiring h.frame hjob hy⟩
  · rw [he]
    exact ⟨h.jobs, (h.pending x (hx ▸ List.mem_cons_self)).1,
      fun y hy => h.pending y (hx ▸ List.mem_cons_of_mem x hy)⟩
  · rw [he]
    exact ⟨h.jobs, (h.pending x (hx ▸ List.mem_cons_self)).1, fun _ hy => nomatch hy⟩

namespace Ensemble

variable {ι : Type} [DecidableEq ι] {m : Multiplexer} {w : ι → Wiring} {e : Ensemble ι}

structure Sends (m : Multiplexer) (w : ι → Wiring) (e : Ensemble ι) : Prop where
  wired : e.Wired m w
  players : ∀ i, (e.players i).Sends (w i)
  events : ∀ x ∈ Journal.events e.mux.journal.batches, x.2.kind = .abs →
    x.2.value = 0 ∨ ∃ i y, (w i).Brings ⟨x.1, x.2.code⟩ x.2.value y

omit [DecidableEq ι] in
theorem Sends.start (h : m.Fresh) (w : ι → Wiring) {scripts : ι → List Job}
    (hs : ∀ i, ∀ job ∈ scripts i, job.message.InRange) : (start m w scripts).Sends m w where
  wired := .start h.inService w scripts
  players i := ⟨hs i, fun _ hx => (nomatch hx), fun _ hy => nomatch hy⟩
  events x hx := by
    change x ∈ Journal.events m.journal.batches at hx
    rw [h.batches] at hx
    cases hx

theorem Sends.next (h : e.Sends m w) (mv : Move ι) : (e.next mv).Sends m w := by
  cases mv with
  | update ms b =>
    refine ⟨h.wired.next _, h.players, fun x hx hk => ?_⟩
    rcases h.wired.service.events_update b ms hx with hx | ⟨d, code, -, ho⟩
    · exact h.events x hx hk
    · -- timers send relative motion only
      cases hk.symm.trans (congrArg Output.kind ho)
  | advance i b =>
    refine ⟨h.wired.next _,
      forall_players_next h.players ((h.players i).advance (h.wired.players i) b e.mux),
      fun x hx hk => ?_⟩
    rcases Player.mux_advance b e.mux (e.players i) with he | ⟨y, hy, he⟩
    · exact h.events x (he ▸ hx) hk
    · change x ∈ Journal.events ((e.players i).advance b e.mux).1.journal.batches at hx
      rw [he] at hx
      have htargets := ((h.wired.players i).pending y hy).1
      rcases h.wired.service.events_perform_frame b htargets hx with hx | ⟨es, hc, hx⟩
      · exact h.events x hx hk
      · exact (((h.players i).pending y hy).2 es hc x hx hk).imp_right fun hb => ⟨i, hb⟩

theorem Sends.run (h : m.Fresh) (w : ι → Wiring) {scripts : ι → List Job}
    (hs : ∀ i, ∀ job ∈ scripts i, job.message.InRange) (moves : List (Move ι)) :
    ((Ensemble.start m w scripts).run moves).Sends m w :=
  run_induct (.start h w hs) fun _ he mv _ => he.next mv

theorem run_replicate (e : Ensemble ι) (i : ι) (b : Backend) (n : Nat) :
    ((e.run (List.replicate n (.advance i b))).mux,
      (e.run (List.replicate n (.advance i b))).players i) =
      (fun q : Multiplexer × Player => q.2.advance b q.1)^[n] (e.mux, e.players i) := by
  induction n generalizing e with
  | zero => rfl
  | succ n ih =>
    rw [List.replicate_succ, Function.iterate_succ_apply]
    refine (ih (e.next (.advance i b))).trans ?_
    rw [players_next_self]
    rfl

/-- What a new mapper gathers for a job is written in some run. -/
theorem exists_run (h : m.Fresh) {i : ι} (ha : ∀ o, (w i).Uses o → m.IsActive o.device)
    (job : Job) : ∃ moves : List (Move ι),
      ∀ x ∈ ((w i).mapper.draft job).mapper.frame, x ∈ Journal.events
        ((start m w fun j => if j = i then [job] else []).run moves).mux.journal.batches := by
  let e := start m w fun j => if j = i then [job] else []
  have hjobs : (e.players i).jobs = [job] := if_pos rfl
  obtain ⟨n, hn⟩ := Player.iterate_advance_job .reliable (m := m) (p := e.players i) rfl hjobs
  have hsettled := Mapper.settled_mapper (w i)
  obtain ⟨k, hk, hdevices, -, hfollow⟩ := hsettled.follow_plan h.inService
    (fun d code hu => ha _ hu) .reliable job
  have hactive : ∀ x ∈ ((w i).mapper.draft job).mapper.frame, k.IsActive x.1 := by
    intro x hx
    obtain ⟨p, q, hd⟩ := ha _ ((hsettled.keeps.draft job).mapper.frame x hx)
    exact ⟨p, q, hdevices ▸ hd⟩
  have hmux : (e.run (List.replicate n (.advance i .reliable))).mux =
      k.log (Multiplexer.batchesOf .reliable ((w i).mapper.draft job).mapper.frame) := by
    have hrun := congrArg Prod.fst ((run_replicate e i .reliable n).trans hn)
    have hstart : (e.players i).mapper = (w i).mapper := rfl
    rw [hstart, hfollow, Multiplexer.frame_eq .reliable hk.finished hk.quiet hactive] at hrun
    exact hrun
  refine ⟨List.replicate n (.advance i .reliable), fun x hx => ?_⟩
  change x ∈ Journal.events (e.run _).mux.journal.batches
  rw [hmux]
  change x ∈ Journal.events (k.journal.batches ++ Multiplexer.batchesOf _ _)
  rw [Journal.events_append]
  exact List.mem_append_right _
    ((Multiplexer.mem_events_batchesOf_iff fun _ _ => rfl).mpr hx)

end Ensemble

end PadRemap
