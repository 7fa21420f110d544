import PadRemap.Proofs.Output.Service

/-! Histories of a multiplexer. Whatever calls a new multiplexer has received, and whatever the
backend answered, a call is either rejected as a whole, or it sets up devices, changes one timer,
or queues events and flushes devices. The main statements say which of these a call does. -/

namespace PadRemap

/-- A call together with the answers of the backend to it. -/
structure Request where
  call : Call
  backend : Backend

/-- Whether it is the backend that failed, and not the multiplexer that rejected the call. -/
def OutputError.isRefusal : OutputError → Bool
  | .backend _ => true
  | _ => false

namespace Call

def writesOut : Call → Bool
  | .send .. | .frame _ | .update _ | .sync => true
  | _ => false

def setsUp : Call → Bool
  | .addKey .. | .addRel .. | .addAbs .. | .finish => true
  | _ => false

end Call

namespace Multiplexer

def serve (m : Multiplexer) (rs : List Request) : Multiplexer :=
  rs.foldl (fun m r => (m.perform r.backend r.call).1) m

@[simp] theorem serve_nil (m : Multiplexer) : m.serve [] = m := rfl

@[simp] theorem serve_cons (m : Multiplexer) (r : Request) (rs : List Request) :
    m.serve (r :: rs) = (m.perform r.backend r.call).1.serve rs := rfl

def elapsed (m : Multiplexer) : Call → Multiplexer
  | .update ms => m.aged ms
  | _ => m

/-- The events that a call asks to be queued. -/
def offered (m : Multiplexer) : Call → List (DeviceId × Event)
  | .send d e => [(d, e)]
  | .frame es => es
  | .update ms => m.dueEvents ms
  | _ => []

def named (m : Multiplexer) : Call → List DeviceId
  | .frame es => touched es
  | .update ms => touched (m.dueEvents ms)
  | .sync => m.deviceIds
  | _ => []

theorem nothing_of_setsUp {c : Call} (h : c.setsUp = true) (m : Multiplexer) :
    m.offered c = [] ∧ m.named c = [] := by
  cases c with
  | send d e | frame es | setRepeat d code v i | update ms | sync => cases h
  | _ => exact ⟨rfl, rfl⟩

def hand (d : DeviceId) (q : List Event) : List Batch :=
  if q = [] then [] else [⟨d, q⟩]

theorem mem_hand {d : DeviceId} {q : List Event} {x : Batch} :
    x ∈ hand d q ↔ q ≠ [] ∧ x = ⟨d, q⟩ := by
  by_cases hq : q = [] <;> simp [hand, hq]

theorem map_device_hand (q : DeviceId → List Event) (ds : List DeviceId) :
    (ds.flatMap fun d => hand d (q d)).map Batch.device = ds.filter fun d => q d ≠ [] := by
  induction ds with
  | nil => rfl
  | cons d ds ih =>
    rw [List.flatMap_cons, List.map_append, ih]
    by_cases hq : q d = [] <;> simp [hand, hq]

theorem eventsOn_hand (d : DeviceId) (q : DeviceId → List Event) {ds : List DeviceId}
    (hn : ds.Nodup) : Journal.eventsOn d (Journal.events (ds.flatMap fun a => hand a (q a))) =
      if d ∈ ds then q d else [] := by
  have hand_eq : ∀ a, hand a (q a) = attempt .reliable a (q a) := by
    intro a
    simp [hand, attempt, Backend.reliable]
  simp only [hand_eq]
  rw [eventsOn_attempts .reliable d q hn]
  rfl

def handed (b : Backend) : List DeviceId → Multiplexer → List Batch
  | [], _ => []
  | d :: ds, m => hand d (m.waiting d) ++ handed b ds (m.flush b d).1

/-- The batches that the backend is given during a call, refused ones included. -/
def emits (m : Multiplexer) (b : Backend) : Call → List Batch
  | .frame es => match m.checkAll (touched es) with
    | .error _ => []
    | .ok () => handed b (touched es) (sendAll es m).1
  | .update ms => match sendAll (m.dueEvents ms) (m.aged ms) with
    | (m', .ok ()) => handed b (touched (m.dueEvents ms)) m'
    | _ => []
  | .sync => if m.finished then handed b m.deviceIds m else []
  | _ => []

/-- A multiplexer that a new one can become. -/
structure Regular (m : Multiplexer) : Prop where
  timers : ∀ o : Outlet, o ∈ m.repeats → m.Accepts o.device
  quiet : m.finished = false → m.Quiet

/-- What a call can do: its outcome, and what the backend is given meanwhile. -/
inductive Reaction (m : Multiplexer) (b : Backend) : Call → Outcome → List Batch → Prop where
  | rejected {c e} : e.isRefusal = false → Reaction m b c (m, .error e) []
  | setUp {c n r} : c.setsUp = true → m.finished = false → n.repeats = m.repeats →
      n.journal.batches = m.journal.batches → n.Quiet →
      (∀ f, r = .error (.backend f) → c = .finish) → Reaction m b c (n, r) []
  | disarmed {d code v i} : i < 0 →
      Reaction m b (.setRepeat d code v i) (m.disarmed ⟨d, code⟩, .ok ()) []
  | armed {d code v i} : 0 ≤ i → m.Accepts d →
      Reaction m b (.setRepeat d code v i) (m.armed ⟨d, code⟩ v (max i.toNat 1), .ok ()) []
  | settled {c} : c.writesOut = true → (∀ p ∈ m.offered c, m.Accepts p.1) →
      Reaction m b c
        ((m.elapsed c).settle b (m.offered c) (m.named c),
          verdict b (m.backlog (m.offered c)) (m.named c))
        ((m.named c).flatMap fun d => hand d (m.backlog (m.offered c) d))

variable {m : Multiplexer}

theorem queue_eq_error {d : DeviceId} (h : ¬m.Accepts d) :
    ∃ e : OutputError, e.isRefusal = false ∧ m.queue d = .error e := by
  refine ⟨_, ?_, queue_of_not_accepts h⟩
  split <;> rfl

theorem queue_cases (m : Multiplexer) (d : DeviceId) :
    (m.Accepts d ∧ m.queue d = .ok (m.waiting d)) ∨
    ∃ e : OutputError, e.isRefusal = false ∧ m.queue d = .error e := by
  by_cases h : m.Accepts d
  · exact Or.inl ⟨h, queue_eq h.2 h.1⟩
  · exact Or.inr (queue_eq_error h)

theorem checkAll_cases (m : Multiplexer) (ds : List DeviceId) :
    ((∀ d ∈ ds, m.Accepts d) ∧ m.checkAll ds = .ok ()) ∨
    ∃ e : OutputError, e.isRefusal = false ∧ m.checkAll ds = .error e := by
  induction ds with
  | nil => exact Or.inl ⟨by simp, rfl⟩
  | cons d ds ih =>
    rcases m.queue_cases d with ⟨hd, hq⟩ | ⟨e, he, hq⟩
    · rcases ih with ⟨hds, hc⟩ | ⟨e, he, hc⟩
      · exact Or.inl ⟨List.forall_mem_cons.mpr ⟨hd, hds⟩, by rw [checkAll, hq]; exact hc⟩
      · exact Or.inr ⟨e, he, by rw [checkAll, hq]; exact hc⟩
    · exact Or.inr ⟨e, he, by rw [checkAll, hq]⟩

theorem frame_eq_error (b : Backend) {es : List (DeviceId × Event)} {e : OutputError}
    (h : m.checkAll (touched es) = .error e) : m.frame b es = (m, .error e) := by
  have hne : es.isEmpty = false := by
    cases es with
    | nil => cases h
    | cons p es => rfl
  rw [frame, hne, h]
  rfl

theorem setRepeat_eq_error {d : DeviceId} {code : UInt16} {v i : Int} (hi : 0 ≤ i)
    {e : OutputError} (h : m.queue d = .error e) : m.setRepeat d code v i = (m, .error e) := by
  rw [setRepeat, if_neg (by omega), h]

theorem handed_eq (b : Backend) {ds : List DeviceId} (m : Multiplexer) (hn : ds.Nodup) :
    handed b ds m = ds.flatMap fun d => hand d (m.waiting d) := by
  induction ds generalizing m with
  | nil => rfl
  | cons d ds ih =>
    obtain ⟨hd, hn⟩ := List.nodup_cons.mp hn
    have hw : (m.flush b d).1.waiting = fun a => if a = d then [] else m.waiting a := by
      rw [flush_eq]
      refine waiting_withQueues_eq fun a ha => ?_
      rw [waiting_of_not_active ha, ite_self]
    rw [handed, ih _ hn, hw, List.flatMap_cons]
    congr 1
    refine List.flatMap_congr fun a ha => ?_
    have hne : a ≠ d := by
      rintro rfl
      exact hd ha
    simp only [hne, if_false]

theorem handed_backlog (b : Backend) {es : List (DeviceId × Event)} (ha : ∀ p ∈ es, m.Accepts p.1) :
    handed b (touched es) (m.withQueues (m.backlog es)) =
      (touched es).flatMap fun d => hand d (m.backlog es d) := by
  rw [handed_eq b _ (nodup_touched es), waiting_backlog ha]

theorem Quiet.insert {m n : Multiplexer} (h : m.Quiet) {d : DeviceId} {v : Device}
    (hv : v.waiting = []) (hn : n.devices = m.devices.insert d v) : n.Quiet := by
  intro a
  unfold waiting
  rw [hn, Std.ExtTreeMap.getElem?_insert]
  split
  · exact hv
  · exact h a

theorem Quiet.erase {m n : Multiplexer} (h : m.Quiet) {d : DeviceId}
    (hn : n.devices = m.devices.erase d) : n.Quiet := by
  intro a
  unfold waiting
  rw [hn, Std.ExtTreeMap.getElem?_erase]
  split
  · rfl
  · exact h a

theorem activate_keeps (b : Backend) (ids : List DeviceId) {m : Multiplexer} (h : m.Quiet) :
    (activate b ids m).1.repeats = m.repeats ∧
      (activate b ids m).1.journal.batches = m.journal.batches ∧ (activate b ids m).1.Quiet := by
  induction ids generalizing m with
  | nil => exact ⟨rfl, rfl, h⟩
  | cons d ids ih =>
    have hrest : ({ m with devices := m.devices.erase d } : Multiplexer).Quiet := h.erase rfl
    unfold activate
    split
    · next p hd =>
      split
      · exact ih hrest
      · split
        · exact ⟨rfl, rfl, hrest⟩
        · exact ih (h.insert rfl rfl)
    · exact ih hrest

namespace Regular

variable (h : m.Regular) (b : Backend)

include h in
theorem reaction_declare {c : Call} (hc : c.setsUp = true) (d : DeviceId)
    (grow : Blueprint → Blueprint) : Reaction m b c (m.declare d grow) [] := by
  unfold declare
  split
  · exact .rejected rfl
  · next hf =>
    have hq : m.Quiet := h.quiet (by simpa using hf)
    split
    · exact .rejected rfl
    · exact .setUp hc (by simpa using hf) rfl rfl (hq.insert rfl rfl) (fun _ hr => nomatch hr)
    · exact .setUp hc (by simpa using hf) rfl rfl (hq.insert rfl rfl) (fun _ hr => nomatch hr)

include h in
theorem reaction_finish : Reaction m b .finish (m.finish b) [] := by
  unfold finish
  split
  · exact .rejected rfl
  · next hf =>
    have hf : m.finished = false := by simpa using hf
    obtain ⟨hr, hb, hq⟩ := activate_keeps b m.deviceIds (h.quiet hf)
    split
    · next n heq =>
      rw [heq] at hr hb hq
      exact .setUp rfl hf hr hb hq fun _ _ => rfl
    · exact .setUp rfl hf hr hb hq fun _ _ => rfl

theorem reaction_setRepeat (m : Multiplexer) (d : DeviceId) (code : UInt16) (v i : Int) :
    Reaction m b (.setRepeat d code v i) (m.setRepeat d code v i) [] := by
  by_cases hi : i < 0
  · rw [setRepeat_neg m d code v hi]
    exact .disarmed hi
  · by_cases hd : m.Accepts d
    · rw [setRepeat_of_accepts hd code v (by omega)]
      exact .armed (by omega) hd
    · obtain ⟨e, he, hq⟩ := queue_eq_error hd
      rw [setRepeat_eq_error (by omega) hq]
      exact .rejected he

theorem reaction_send (m : Multiplexer) (d : DeviceId) (e : Event) :
    Reaction m b (.send d e) (m.send d e) [] := by
  unfold send
  rcases m.queue_cases d with ⟨hd, hq⟩ | ⟨err, he, hq⟩
  · rw [hq]
    have hs : m.setQueue d (m.waiting d ++ [e]) = m.settle b [(d, e)] [] := by
      rw [setQueue_eq, settle, List.flatMap_nil, log_nil]
      refine withQueues_congr fun a _ => ?_
      by_cases had : a = d
      · subst had
        simp [backlog]
      · simp [backlog, had, Ne.symm had]
    simp only [hs]
    exact .settled rfl (by simpa [offered] using hd)
  · rw [hq]
    exact .rejected he

theorem reaction_frame (m : Multiplexer) (es : List (DeviceId × Event)) :
    Reaction m b (.frame es) (m.frame b es) (m.emits b (.frame es)) := by
  rcases m.checkAll_cases (touched es) with ⟨ha, hc⟩ | ⟨e, he, hc⟩
  · have ha : ∀ p ∈ es, m.Accepts p.1 := fun p hp => ha _ (mem_touched.mpr ⟨p.2, hp⟩)
    rw [frame_eq_deliver b ha, deliver_eq_of_accepts b ha, emits, hc]
    simp only
    rw [sendAll_eq_backlog ha, handed_backlog b ha]
    exact .settled rfl ha
  · rw [frame_eq_error b hc, emits, hc]
    exact .rejected he

include h in
theorem accepts_dueEvents (ms : Nat) : ∀ p ∈ m.dueEvents ms, m.Accepts p.1 := by
  intro p hp
  obtain ⟨o, x, ho, rfl⟩ := mem_dueEvents hp
  exact h.timers o (mem_repeats_iff.mpr ⟨x, ho⟩)

include h in
theorem update_eq (ms : Nat) :
    m.update b ms = ((m.aged ms).settle b (m.dueEvents ms) (touched (m.dueEvents ms)),
      verdict b (m.backlog (m.dueEvents ms)) (touched (m.dueEvents ms))) := by
  have ha : ∀ p ∈ m.dueEvents ms, (m.aged ms).Accepts p.1 := h.accepts_dueEvents ms
  have hu : m.update b ms = deliver b (m.dueEvents ms) (m.aged ms) := rfl
  rw [hu, deliver_eq_of_accepts b ha]
  rfl

include h in
theorem reaction_update (ms : Nat) :
    Reaction m b (.update ms) (m.update b ms) (m.emits b (.update ms)) := by
  have ha : ∀ p ∈ m.dueEvents ms, (m.aged ms).Accepts p.1 := h.accepts_dueEvents ms
  rw [h.update_eq, emits, sendAll_eq_backlog ha]
  simp only
  rw [handed_backlog b ha]
  exact .settled rfl (h.accepts_dueEvents ms)

theorem reaction_sync (m : Multiplexer) : Reaction m b .sync (m.sync b) (m.emits b .sync) := by
  have hn : m.deviceIds.Nodup := Std.ExtTreeMap.nodup_keys
  unfold sync
  rw [emits]
  split
  · rw [flushAll_eq b m hn, handed_eq b m hn, ← backlog_nil]
    exact .settled rfl (by simp [offered])
  · exact .rejected rfl

include h in
theorem reaction (c : Call) : Reaction m b c (m.perform b c) (m.emits b c) := by
  cases c with
  | addKey d code => exact h.reaction_declare b rfl d _
  | addRel d code => exact h.reaction_declare b rfl d _
  | addAbs d code range => exact h.reaction_declare b rfl d _
  | finish => exact h.reaction_finish b
  | send d e => exact reaction_send b m d e
  | frame es => exact reaction_frame b m es
  | setRepeat d code v i => exact reaction_setRepeat b m d code v i
  | update ms => exact h.reaction_update b ms
  | sync => exact reaction_sync b m

end Regular

theorem regular_new (base : String) : (new base).Regular where
  timers o ho := by simp [new] at ho
  quiet _ d := by simp [waiting, new]

theorem accepts_settle (m : Multiplexer) (b : Backend) (c : Call) (es : List (DeviceId × Event))
    (ds : List DeviceId) (d : DeviceId) :
    ((m.elapsed c).settle b es ds).Accepts d ↔ m.Accepts d := by
  cases c <;> exact and_congr_right' (isActive_withQueues _)

theorem mem_repeats_settle (m : Multiplexer) (b : Backend) (c : Call)
    (es : List (DeviceId × Event)) (ds : List DeviceId) (o : Outlet) :
    o ∈ ((m.elapsed c).settle b es ds).repeats ↔ o ∈ m.repeats := by
  cases c with
  | update ms => exact mem_repeats_aged
  | _ => exact Iff.rfl

theorem waiting_settle_elapsed (m : Multiplexer) (b : Backend) (c : Call)
    {es : List (DeviceId × Event)} (ha : ∀ p ∈ es, m.Accepts p.1) (ds : List DeviceId) :
    ((m.elapsed c).settle b es ds).waiting = fun d => if d ∈ ds then [] else m.backlog es d := by
  cases c with
  | update ms => exact waiting_settle b (m := m.aged ms) ha ds
  | _ => exact waiting_settle b ha ds

theorem Regular.perform (h : m.Regular) (b : Backend) (c : Call) : (m.perform b c).1.Regular := by
  have hr := h.reaction b c
  generalize m.perform b c = out at hr
  generalize m.emits b c = xs at hr
  cases hr with
  | rejected _ => exact h
  | setUp _ hf hrep _ hq _ =>
    refine ⟨fun o ho => ?_, fun _ => hq⟩
    have := (h.timers o (hrep ▸ ho)).1
    rw [hf] at this
    cases this
  | disarmed _ => exact ⟨fun o ho => h.timers o (mem_repeats_disarmed ho), h.quiet⟩
  | armed _ hd =>
    refine ⟨fun o ho => ?_, h.quiet⟩
    rcases mem_repeats_armed ho with e | ho
    · exact e ▸ hd
    · exact h.timers o ho
  | settled _ ha =>
    refine ⟨fun o ho => ?_, fun hf d => ?_⟩
    · exact (accepts_settle m b c _ _ _).mpr (h.timers o ((mem_repeats_settle m b c _ _ _).mp ho))
    · have hfm : m.finished = false := by
        cases c <;> exact hf
      have hno : m.offered c = [] := by
        rw [List.eq_nil_iff_forall_not_mem]
        intro p hp
        have := (ha p hp).1
        rw [hfm] at this
        cases this
      rw [waiting_settle_elapsed m b c ha, hno]
      simp [backlog, h.quiet hfm d]

theorem Regular.serve (h : m.Regular) (rs : List Request) : (m.serve rs).Regular := by
  induction rs generalizing m with
  | nil => exact h
  | cons r rs ih => exact ih (h.perform r.backend r.call)

theorem verdict_error {b : Backend} {q : DeviceId → List Event} {ds : List DeviceId}
    {e : OutputError} (h : verdict b q ds = .error e) : e.isRefusal = true := by
  induction ds with
  | nil => cases h
  | cons d ds ih =>
    rw [verdict] at h
    split at h
    · next e' he =>
      cases h
      exact ih he
    · split at h
      · cases h
      · split at h
        · cases h
        · cases h
          rfl

theorem attempt_eq (b : Backend) (d : DeviceId) (q : List Event) :
    attempt b d q = (hand d q).filter fun x => (b.emit x.device x.events).isNone := by
  unfold attempt hand
  by_cases hq : q = []
  · simp [hq]
  · cases he : b.emit d q <;> simp [hq, he]

end Multiplexer

end PadRemap
