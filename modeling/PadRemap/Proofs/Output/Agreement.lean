import PadRemap.Proofs.Output.Level
import PadRemap.Proofs.Output.Reaction

/-! Multiplexers that cannot be told apart on some devices. Calls that name only those devices have
the same results on both and keep them alike; calls that name none of them, and the passing of
time, keep them alike whatever the backend answers on the other devices. -/

namespace PadRemap

def Backend.AgreeOn (p : DeviceId → Prop) (b c : Backend) : Prop :=
  ∀ d, p d → b.emit d = c.emit d

theorem DeviceId.filter_ascending (s : DeviceId → Bool) (ids : List DeviceId) :
    (DeviceId.ascending ids).filter s = DeviceId.ascending (ids.filter s) := by
  unfold DeviceId.ascending
  rw [← Std.ExtTreeSet.toList_filter]
  congr 1
  refine Std.ExtTreeSet.ext_mem fun d => ?_
  simp [Std.ExtTreeSet.mem_filter, Std.ExtTreeSet.mem_ofList]

theorem Journal.eventsOn_filter {s : DeviceId → Bool} {d : DeviceId} (hd : s d = true)
    (es : List (DeviceId × Event)) :
    Journal.eventsOn d (es.filter fun p => s p.1) = Journal.eventsOn d es := by
  induction es with
  | nil => rfl
  | cons p es ih =>
    by_cases hp : s p.1 = true
    · rw [List.filter_cons, if_pos hp, eventsOn_cons, eventsOn_cons, ih]
    · have hne : p.1 ≠ d := by
        rintro rfl
        exact hp hd
      rw [List.filter_cons, if_neg hp, eventsOn_cons, ih, if_neg hne, List.nil_append]

namespace Multiplexer

theorem filter_flatMap_of_forall {α β : Type} {p : α → Bool} {q : β → Bool} {f : α → List β}
    (h : ∀ a, ∀ x ∈ f a, q x = p a) (l : List α) :
    (l.flatMap f).filter q = (l.filter p).flatMap f := by
  induction l with
  | nil => rfl
  | cons a l ih =>
    rw [List.flatMap_cons, List.filter_append, ih]
    by_cases hp : p a = true
    · have hall : (f a).filter q = f a := List.filter_eq_self.mpr fun x hx => (h a x hx).trans hp
      rw [hall, List.filter_cons_of_pos hp, List.flatMap_cons]
    · have hnone : (f a).filter q = [] := List.filter_eq_nil_iff.mpr fun x hx => h a x hx ▸ hp
      rw [hnone, List.filter_cons_of_neg hp, List.nil_append]

theorem filter_touched (s : DeviceId → Bool) (es : List (DeviceId × Event)) :
    (touched es).filter s = touched (es.filter fun p => s p.1) := by
  rw [touched, DeviceId.filter_ascending, List.filter_map]
  rfl

theorem filter_attempts (s : DeviceId → Bool) (b : Backend) (q : DeviceId → List Event)
    (ds : List DeviceId) :
    (ds.flatMap fun d => attempt b d (q d)).filter (fun x => s x.device) =
      (ds.filter s).flatMap fun d => attempt b d (q d) := by
  refine filter_flatMap_of_forall (fun d x hx => ?_) ds
  rw [attempt_eq] at hx
  rw [(mem_hand.mp (List.mem_filter.mp hx).1).2]

/-- Multiplexers on which some devices and their timers are in the same state and have been given
the same batches. -/
structure AgreeOn (s : DeviceId → Bool) (m n : Multiplexer) : Prop where
  finished : m.finished = n.finished
  active : ∀ d, s d = true → (m.IsActive d ↔ n.IsActive d)
  waiting : ∀ d, s d = true → m.waiting d = n.waiting d
  repeats : ∀ o : Outlet, s o.device = true → m.repeats[o]? = n.repeats[o]?
  batches : m.journal.batches.filter (fun x => s x.device) =
    n.journal.batches.filter fun x => s x.device

namespace AgreeOn

variable {s : DeviceId → Bool} {m n : Multiplexer} {b c : Backend}

theorem refl (s : DeviceId → Bool) (m : Multiplexer) : m.AgreeOn s m :=
  ⟨rfl, fun _ _ => Iff.rfl, fun _ _ => rfl, fun _ _ => rfl, rfl⟩

theorem accepts (h : m.AgreeOn s n) {d : DeviceId} (hd : s d = true) :
    m.Accepts d ↔ n.Accepts d := by
  rw [Accepts, Accepts, h.finished, h.active d hd]

theorem queue (h : m.AgreeOn s n) {d : DeviceId} (hd : s d = true) : m.queue d = n.queue d := by
  by_cases ha : m.Accepts d
  · have hn : n.Accepts d := (h.accepts hd).mp ha
    rw [queue_eq ha.2 ha.1, queue_eq hn.2 hn.1, h.waiting d hd]
  · have hn : ¬n.Accepts d := mt (h.accepts hd).mpr ha
    rw [queue_of_not_accepts ha, queue_of_not_accepts hn, h.finished]

theorem checkAll (h : m.AgreeOn s n) {ds : List DeviceId} (hds : ∀ d ∈ ds, s d = true) :
    m.checkAll ds = n.checkAll ds := by
  induction ds with
  | nil => rfl
  | cons d ds ih =>
    rw [Multiplexer.checkAll, Multiplexer.checkAll, h.queue (hds d List.mem_cons_self),
      ih fun a ha => hds a (List.mem_cons_of_mem _ ha)]

theorem withRepeats (h : m.AgreeOn s n) {r r' : OutletMap Repeat}
    (hr : ∀ o : Outlet, s o.device = true → r[o]? = r'[o]?) :
    ({ m with repeats := r } : Multiplexer).AgreeOn s { n with repeats := r' } :=
  ⟨h.finished, h.active, h.waiting, hr, h.batches⟩

theorem aged (h : m.AgreeOn s n) (ms : Nat) : (m.aged ms).AgreeOn s (n.aged ms) := by
  refine h.withRepeats fun o ho => ?_
  rw [Std.ExtTreeMap.getElem?_map, Std.ExtTreeMap.getElem?_map, h.repeats o ho]

theorem armed (h : m.AgreeOn s n) {o : Outlet} (ho : s o.device = true) (v : Int) (i : Nat) :
    (m.armed o v i).AgreeOn s (n.armed o v i) := by
  refine h.withRepeats fun a ha => ?_
  rw [Std.ExtTreeMap.getElem?_insert, Std.ExtTreeMap.getElem?_insert, h.repeats o ho,
    h.repeats a ha]

theorem disarmed (h : m.AgreeOn s n) (o : Outlet) : (m.disarmed o).AgreeOn s (n.disarmed o) := by
  refine h.withRepeats fun a ha => ?_
  rw [Std.ExtTreeMap.getElem?_erase, Std.ExtTreeMap.getElem?_erase, h.repeats a ha]

theorem filter_dueEvents (h : m.AgreeOn s n) (ms : Nat) :
    (m.dueEvents ms).filter (fun p => s p.1) = (n.dueEvents ms).filter fun p => s p.1 := by
  have hdue : ∀ k : Multiplexer, (k.dueEvents ms).filter (fun p => s p.1) =
      (k.repeats.filter fun o _ => s o.device).toList.flatMap
        fun p => firingEvents ms p.1 p.2 := by
    intro k
    rw [Std.ExtTreeMap.toList_filter]
    refine filter_flatMap_of_forall (fun a x hx => ?_) _
    rw [(List.mem_replicate.mp hx).2]
  have hsame : (m.repeats.filter fun o _ => s o.device) =
      n.repeats.filter fun o _ => s o.device := by
    refine Std.ExtTreeMap.ext_getElem? fun o => ?_
    by_cases ho : s o.device = true
    · simp [Std.ExtTreeMap.getElem?_filter, h.repeats o ho, ho]
    · simp [Std.ExtTreeMap.getElem?_filter, ho]
  rw [hdue, hdue, hsame]

theorem settle (h : m.AgreeOn s n) (hb : b.AgreeOn (s · = true) c) {es fs : List (DeviceId × Event)}
    (hm : ∀ p ∈ es, m.Accepts p.1) (hn : ∀ p ∈ fs, n.Accepts p.1)
    (hsame : es.filter (fun p => s p.1) = fs.filter fun p => s p.1) :
    (m.settle b es (touched es)).AgreeOn s (n.settle c fs (touched fs)) := by
  have hevents : ∀ d, s d = true → Journal.eventsOn d es = Journal.eventsOn d fs := by
    intro d hd
    rw [← Journal.eventsOn_filter hd es, hsame, Journal.eventsOn_filter hd]
  have hback : ∀ d, s d = true → m.backlog es d = n.backlog fs d := by
    intro d hd
    rw [backlog, backlog, h.waiting d hd, hevents d hd]
  have htouched : ∀ d, s d = true → (d ∈ touched es ↔ d ∈ touched fs) := by
    intro d hd
    rw [← not_iff_not, ← eventsOn_eq_nil_iff, ← eventsOn_eq_nil_iff, hevents d hd]
  refine ⟨h.finished, fun d hd => ?_, fun d hd => ?_, h.repeats, ?_⟩
  · exact (isActive_withQueues _).trans ((h.active d hd).trans (isActive_withQueues _).symm)
  · rw [waiting_settle b hm, waiting_settle c hn]
    simp only [htouched d hd, hback d hd]
  · have hattempts : (touched es).filter s = (touched fs).filter s := by
      rw [filter_touched, filter_touched, hsame]
    change (m.journal.batches ++ _).filter _ = (n.journal.batches ++ _).filter _
    rw [List.filter_append, List.filter_append, h.batches, filter_attempts, filter_attempts,
      hattempts]
    refine congrArg _ (List.flatMap_congr fun d hd => ?_)
    have hd : s d = true := (List.mem_filter.mp hd).2
    rw [hback d hd, attempt, attempt, hb d hd]

theorem update (h : m.AgreeOn s n) (hm : m.Regular) (hn : n.Regular) (hb : b.AgreeOn (s · = true) c)
    (ms : Nat) : (m.update b ms).1.AgreeOn s (n.update c ms).1 := by
  rw [hm.update_eq, hn.update_eq]
  exact (h.aged ms).settle hb (hm.accepts_dueEvents ms) (hn.accepts_dueEvents ms)
    (h.filter_dueEvents ms)

/-- A call for the devices has the same result on both multiplexers. -/
theorem perform (h : m.AgreeOn s n) (hb : b.AgreeOn (s · = true) c) {x : Call}
    (hx : x.Targets fun o => s o.device = true) :
    (m.perform b x).2 = (n.perform c x).2 ∧ (m.perform b x).1.AgreeOn s (n.perform c x).1 := by
  cases x with
  | frame es =>
    have hes : ∀ p ∈ es, s p.1 = true := hx
    have hds : ∀ d ∈ touched es, s d = true := by
      intro d hd
      obtain ⟨e, he⟩ := mem_touched.mp hd
      exact hes _ he
    rw [Multiplexer.perform, Multiplexer.perform]
    rcases m.checkAll_cases (touched es) with ⟨ha, -⟩ | ⟨e, -, he⟩
    · have hm : ∀ p ∈ es, m.Accepts p.1 := fun p hp => ha _ (mem_touched.mpr ⟨p.2, hp⟩)
      have hn : ∀ p ∈ es, n.Accepts p.1 := fun p hp => (h.accepts (hes p hp)).mp (hm p hp)
      rw [frame_eq_deliver b hm, deliver_eq_of_accepts b hm, frame_eq_deliver c hn,
        deliver_eq_of_accepts c hn]
      refine ⟨verdict_congr fun d hd => ⟨?_, hb d (hds d hd)⟩, h.settle hb hm hn rfl⟩
      rw [backlog, backlog, h.waiting d (hds d hd)]
    · rw [frame_eq_error b he, frame_eq_error c (h.checkAll hds ▸ he)]
      exact ⟨rfl, h⟩
  | setRepeat d code v i =>
    have hd : s d = true := hx
    rw [Multiplexer.perform, Multiplexer.perform]
    by_cases hi : i < 0
    · rw [setRepeat_neg m d code v hi, setRepeat_neg n d code v hi]
      exact ⟨rfl, h.disarmed _⟩
    · have hi : 0 ≤ i := by omega
      rcases m.queue_cases d with ⟨hm, -⟩ | ⟨e, -, he⟩
      · rw [setRepeat_of_accepts hm code v hi,
          setRepeat_of_accepts ((h.accepts hd).mp hm) code v hi]
        exact ⟨rfl, h.armed hd _ _⟩
      · rw [setRepeat_eq_error hi he, setRepeat_eq_error hi (h.queue hd ▸ he)]
        exact ⟨rfl, h⟩
  | _ => exact hx.elim

/-- A call for other devices changes nothing for the devices, however it ends. -/
theorem perform_left (h : m.AgreeOn s n) (b : Backend) {x : Call}
    (hx : x.Targets fun o => s o.device = false) : (m.perform b x).1.AgreeOn s n := by
  cases x with
  | frame es =>
    have hnone : es.filter (fun p => s p.1) = [] :=
      List.filter_eq_nil_iff.mpr fun p hp => by simp [show s p.1 = false from hx p hp]
    rw [Multiplexer.perform]
    rcases m.checkAll_cases (touched es) with ⟨ha, -⟩ | ⟨e, -, he⟩
    · have hm : ∀ p ∈ es, m.Accepts p.1 := fun p hp => ha _ (mem_touched.mpr ⟨p.2, hp⟩)
      have hs : (m.settle b es (touched es)).AgreeOn s (n.settle b [] []) :=
        h.settle (fun _ _ => rfl) hm (by simp) hnone
      rw [frame_eq_deliver b hm, deliver_eq_of_accepts b hm]
      rwa [settle_nil] at hs
    · rw [frame_eq_error b he]
      exact h
  | setRepeat d code v i =>
    have hne : ∀ o : Outlet, s o.device = true → (⟨d, code⟩ : Outlet) ≠ o := by
      rintro o ho rfl
      exact Bool.false_ne_true (Eq.trans (Eq.symm hx) ho)
    rw [Multiplexer.perform]
    by_cases hi : i < 0
    · rw [setRepeat_neg m d code v hi]
      refine h.withRepeats fun o ho => ?_
      simp [Std.ExtTreeMap.getElem?_erase, hne o ho, h.repeats o ho]
    · have hi : 0 ≤ i := by omega
      rcases m.queue_cases d with ⟨hm, -⟩ | ⟨e, -, he⟩
      · rw [setRepeat_of_accepts hm code v hi]
        refine h.withRepeats fun o ho => ?_
        simp [Std.ExtTreeMap.getElem?_insert, hne o ho, h.repeats o ho]
      · rw [setRepeat_eq_error hi he]
        exact h
  | _ => exact hx.elim

end AgreeOn

end Multiplexer

end PadRemap
