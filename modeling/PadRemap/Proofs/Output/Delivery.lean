import Mathlib.Data.List.Basic
import PadRemap.Output.Multiplexer

/-! What reaches the devices of a multiplexer. A call that delivers events queues all of them and
then flushes the devices they name; on a multiplexer whose queues are empty this adds at most one
batch for each named device to the journal and changes nothing else. -/

namespace PadRemap

structure Output where
  device : DeviceId
  kind : EventKind
  code : UInt16
  deriving DecidableEq, Repr

namespace Journal

def eventsOn (d : DeviceId) (es : List (DeviceId × Event)) : List Event :=
  es.filterMap fun p => if p.1 = d then some p.2 else none

def lastValue (kind : EventKind) (code : UInt16) (es : List Event) : Option Int :=
  es.reverse.findSome? fun e => if e.kind = kind ∧ e.code = code then some e.value else none

@[simp] theorem eventsOn_nil (d : DeviceId) : eventsOn d [] = [] := rfl

@[simp] theorem eventsOn_cons (d : DeviceId) (p : DeviceId × Event)
    (es : List (DeviceId × Event)) :
    eventsOn d (p :: es) = (if p.1 = d then [p.2] else []) ++ eventsOn d es := by
  by_cases h : p.1 = d <;> simp [eventsOn, h]

@[simp] theorem eventsOn_append (d : DeviceId) (es fs : List (DeviceId × Event)) :
    eventsOn d (es ++ fs) = eventsOn d es ++ eventsOn d fs := by
  simp [eventsOn]

theorem eventsOn_flatMap {α : Type} (d : DeviceId) (l : List α) (f : α → List (DeviceId × Event)) :
    eventsOn d (l.flatMap f) = l.flatMap fun a => eventsOn d (f a) :=
  List.filterMap_flatMap ..

theorem mem_eventsOn {d : DeviceId} {e : Event} {es : List (DeviceId × Event)} :
    e ∈ eventsOn d es ↔ (d, e) ∈ es := by
  simp only [eventsOn, List.mem_filterMap]
  constructor
  · rintro ⟨⟨a, f⟩, hm, h⟩
    split at h
    · next ha => cases h; subst ha; exact hm
    · cases h
  · intro hm
    exact ⟨(d, e), hm, by simp⟩

@[simp] theorem lastValue_nil (kind : EventKind) (code : UInt16) :
    lastValue kind code [] = none := rfl

@[simp] theorem lastValue_append (kind : EventKind) (code : UInt16) (es fs : List Event) :
    lastValue kind code (es ++ fs) = (lastValue kind code fs).or (lastValue kind code es) := by
  simp [lastValue, List.findSome?_append]

@[simp] theorem lastValue_singleton (kind : EventKind) (code : UInt16) (e : Event) :
    lastValue kind code [e] = if e.kind = kind ∧ e.code = code then some e.value else none := by
  simp [lastValue]

theorem lastValue_eq_none {kind : EventKind} {code : UInt16} {es : List Event}
    (h : ∀ e ∈ es, ¬(e.kind = kind ∧ e.code = code)) : lastValue kind code es = none := by
  rw [lastValue, List.findSome?_eq_none_iff]
  intro e he
  rw [if_neg (h e (List.mem_reverse.mp he))]

theorem events_append (bs cs : List Batch) : events (bs ++ cs) = events bs ++ events cs := by
  simp [events]

theorem eventsOn_events_singleton (d : DeviceId) (b : Batch) :
    eventsOn d (events [b]) = if b.device = d then b.events else [] := by
  by_cases h : b.device = d
  · simp [events, eventsOn, h, List.filterMap_map]
  · simp [events, eventsOn, h]

theorem eventsOn_events (d : DeviceId) (bs : List Batch) :
    eventsOn d (events bs) = (bs.filter (·.device = d)).flatMap Batch.events := by
  induction bs with
  | nil => rfl
  | cons b bs ih =>
    rw [← List.singleton_append, events_append, eventsOn_append, eventsOn_events_singleton, ih]
    by_cases h : b.device = d <;> simp [h]

end Journal

theorem DeviceId.mem_ascending {d : DeviceId} {ids : List DeviceId} :
    d ∈ DeviceId.ascending ids ↔ d ∈ ids := by
  simp [DeviceId.ascending, Std.ExtTreeSet.mem_toList, Std.ExtTreeSet.mem_ofList]

theorem DeviceId.pairwise_ascending (ids : List DeviceId) :
    (DeviceId.ascending ids).Pairwise fun a b => DeviceId.order a b = .lt :=
  Std.ExtTreeSet.ordered_toList

theorem DeviceId.nodup_of_pairwise {ids : List DeviceId}
    (h : ids.Pairwise fun a b => DeviceId.order a b = .lt) : ids.Nodup := by
  refine h.imp ?_
  rintro a b h rfl
  simp [Std.ReflCmp.compare_self] at h

theorem DeviceId.nodup_ascending (ids : List DeviceId) : (DeviceId.ascending ids).Nodup :=
  DeviceId.nodup_of_pairwise (DeviceId.pairwise_ascending ids)

namespace Device

def withQueue (q : List Event) : Device → Device
  | declared b => declared b
  | active b _ => active b q

def waiting : Device → List Event
  | declared _ => []
  | active _ q => q

theorem withQueue_waiting (v : Device) : v.withQueue v.waiting = v := by cases v <;> rfl

@[simp] theorem withQueue_withQueue (q r : List Event) (v : Device) :
    (v.withQueue q).withQueue r = v.withQueue r := by cases v <;> rfl

end Device

namespace Multiplexer

def waiting (m : Multiplexer) (d : DeviceId) : List Event :=
  (m.devices[d]?.map Device.waiting).getD []

def IsActive (m : Multiplexer) (d : DeviceId) : Prop := ∃ b q, m.devices[d]? = some (.active b q)

def Accepts (m : Multiplexer) (d : DeviceId) : Prop := m.finished = true ∧ m.IsActive d

def written (m : Multiplexer) (d : DeviceId) : List Event :=
  Journal.eventsOn d (Journal.events m.journal.batches)

/-- The value written last to an output, if any. -/
def valueOn (m : Multiplexer) (o : Output) : Option Int :=
  Journal.lastValue o.kind o.code (m.written o.device)

def withQueues (m : Multiplexer) (q : DeviceId → List Event) : Multiplexer :=
  { m with devices := m.devices.map fun d v => v.withQueue (q d) }

def log (m : Multiplexer) (bs : List Batch) : Multiplexer :=
  { m with journal := { m.journal with batches := m.journal.batches ++ bs } }

theorem ext_devices {m n : Multiplexer} (hd : ∀ d : DeviceId, m.devices[d]? = n.devices[d]?)
    (hb : m.base = n.base) (hr : m.repeats = n.repeats) (hf : m.finished = n.finished)
    (hj : m.journal = n.journal) : m = n := by
  have := Std.ExtTreeMap.ext_getElem? hd
  cases m; cases n; simp_all

theorem devices_withQueues (m : Multiplexer) (q : DeviceId → List Event) (d : DeviceId) :
    (m.withQueues q).devices[d]? = m.devices[d]?.map (Device.withQueue (q d)) := by
  simp [withQueues, Std.ExtTreeMap.getElem?_map]

@[simp] theorem withQueues_withQueues (m : Multiplexer) (q r : DeviceId → List Event) :
    (m.withQueues q).withQueues r = m.withQueues r := by
  refine ext_devices (fun d => ?_) rfl rfl rfl rfl
  simp [devices_withQueues, Function.comp_def]

theorem withQueues_congr {m : Multiplexer} {q r : DeviceId → List Event}
    (h : ∀ d, m.IsActive d → q d = r d) : m.withQueues q = m.withQueues r := by
  refine ext_devices (fun d => ?_) rfl rfl rfl rfl
  simp only [devices_withQueues]
  cases hd : m.devices[d]? with
  | none => rfl
  | some v =>
    cases v with
    | declared b => rfl
    | active b s => rw [h d ⟨b, s, hd⟩]

@[simp] theorem withQueues_waiting (m : Multiplexer) : m.withQueues m.waiting = m := by
  refine ext_devices (fun d => ?_) rfl rfl rfl rfl
  rw [devices_withQueues]
  cases hd : m.devices[d]? with
  | none => rfl
  | some v => simp [waiting, hd, Device.withQueue_waiting]

@[simp] theorem withQueues_log (m : Multiplexer) (q : DeviceId → List Event) (bs : List Batch) :
    (m.log bs).withQueues q = (m.withQueues q).log bs := rfl

@[simp] theorem log_log (m : Multiplexer) (bs cs : List Batch) :
    (m.log bs).log cs = m.log (bs ++ cs) := by
  simp [log]

@[simp] theorem log_nil (m : Multiplexer) : m.log [] = m := by simp [log]

theorem waiting_withQueues {m : Multiplexer} {d : DeviceId} (h : m.IsActive d)
    (q : DeviceId → List Event) : (m.withQueues q).waiting d = q d := by
  obtain ⟨b, s, h⟩ := h
  simp [waiting, devices_withQueues, h, Device.withQueue, Device.waiting]

@[simp] theorem isActive_withQueues {m : Multiplexer} {d : DeviceId} (q : DeviceId → List Event) :
    (m.withQueues q).IsActive d ↔ m.IsActive d := by
  unfold IsActive
  rw [devices_withQueues]
  cases m.devices[d]? with
  | none => simp
  | some v => cases v <;> simp [Device.withQueue]

theorem waiting_of_not_active {m : Multiplexer} {d : DeviceId} (h : ¬m.IsActive d) :
    m.waiting d = [] := by
  cases hd : m.devices[d]? with
  | none => simp [waiting, hd]
  | some v =>
    cases v with
    | declared b => simp [waiting, hd, Device.waiting]
    | active b q => exact (h ⟨b, q, hd⟩).elim

theorem waiting_withQueues_eq {m : Multiplexer} {q : DeviceId → List Event}
    (h : ∀ d, ¬m.IsActive d → q d = []) : (m.withQueues q).waiting = q := by
  funext d
  by_cases hd : m.IsActive d
  · exact waiting_withQueues hd q
  · rw [h d hd]
    exact waiting_of_not_active (mt (isActive_withQueues q).mp hd)

theorem setQueue_eq (m : Multiplexer) (d : DeviceId) (q : List Event) :
    m.setQueue d q = m.withQueues fun a => if a = d then q else m.waiting a := by
  unfold setQueue
  split
  · next b r h =>
    refine ext_devices (fun a => ?_) rfl rfl rfl rfl
    rw [Std.ExtTreeMap.getElem?_insert, devices_withQueues]
    by_cases hd : d = a
    · subst hd; simp [h, Device.withQueue]
    · rw [if_neg (by simpa using hd), if_neg (Ne.symm hd)]
      exact congrArg (fun n : Multiplexer => n.devices[a]?) m.withQueues_waiting.symm |>.trans
        (devices_withQueues _ _ _)
  · next hn =>
    refine m.withQueues_waiting.symm.trans (withQueues_congr fun a ⟨b, r, h⟩ => ?_)
    have : a ≠ d := by rintro rfl; exact hn b r h
    rw [if_neg this]

theorem queue_eq {m : Multiplexer} {d : DeviceId} (h : m.IsActive d)
    (hf : m.finished = true) : m.queue d = .ok (m.waiting d) := by
  obtain ⟨b, q, h⟩ := h
  simp [queue, hf, h, waiting, Device.waiting]

theorem sendAll_eq {m : Multiplexer} {es : List (DeviceId × Event)} (hf : m.finished = true)
    (ha : ∀ p ∈ es, m.IsActive p.1) :
    sendAll es m =
      (m.withQueues fun d => m.waiting d ++ Journal.eventsOn d es, .ok ()) := by
  induction es generalizing m with
  | nil => simp [sendAll]
  | cons p es ih =>
    obtain ⟨d, e⟩ := p
    have hd : m.IsActive d := ha _ List.mem_cons_self
    have ha' : ∀ p ∈ es, (m.setQueue d (m.waiting d ++ [e])).IsActive p.1 := by
      intro p hp
      rw [setQueue_eq, isActive_withQueues]
      exact ha p (List.mem_cons_of_mem _ hp)
    have hf' : (m.setQueue d (m.waiting d ++ [e])).finished = true := by rw [setQueue_eq]; exact hf
    simp only [sendAll, send, queue_eq hd hf]
    rw [ih hf' ha', setQueue_eq, withQueues_withQueues]
    congr 1
    refine withQueues_congr fun a h => ?_
    rw [waiting_withQueues h]
    by_cases had : a = d
    · subst had; simp
    · simp [had, Ne.symm had]

/-- The batch that a flush adds to the journal: none if nothing waits or the backend refuses. -/
def attempt (b : Backend) (d : DeviceId) (q : List Event) : List Batch :=
  if q = [] ∨ b.emit d q ≠ none then [] else [⟨d, q⟩]

/-- The result of flushing some devices: the last refusal, if there is one. -/
def verdict (b : Backend) (q : DeviceId → List Event) :
    List DeviceId → Except OutputError Unit
  | [] => .ok ()
  | d :: ds => match verdict b q ds with
    | .error e => .error e
    | .ok () =>
      if q d = [] then .ok ()
      else match b.emit d (q d) with
        | none => .ok ()
        | some fault => .error (.backend fault)

theorem verdict_eq_ok_iff {b : Backend} {q : DeviceId → List Event} {ds : List DeviceId} :
    verdict b q ds = .ok () ↔ ∀ d ∈ ds, q d = [] ∨ b.emit d (q d) = none := by
  induction ds with
  | nil => simp [verdict]
  | cons d ds ih =>
    simp only [verdict, List.forall_mem_cons, ← ih]
    cases verdict b q ds with
    | error e => simp
    | ok u =>
      by_cases hq : q d = []
      · simp [hq]
      · cases b.emit d (q d) <;> simp [hq]

theorem verdict_congr {b c : Backend} {q r : DeviceId → List Event} {ds : List DeviceId}
    (h : ∀ d ∈ ds, q d = r d ∧ b.emit d = c.emit d) : verdict b q ds = verdict c r ds := by
  induction ds with
  | nil => rfl
  | cons d ds ih =>
    obtain ⟨hq, hb⟩ := h d List.mem_cons_self
    simp only [verdict, ih fun a ha => h a (List.mem_cons_of_mem _ ha), hq, hb]

theorem flush_eq (b : Backend) (m : Multiplexer) (d : DeviceId) :
    m.flush b d =
      ((m.withQueues fun a => if a = d then [] else m.waiting a).log
        (attempt b d (m.waiting d)), verdict b m.waiting [d]) := by
  unfold flush
  split
  · next bp e es h =>
    have hw : m.waiting d = e :: es := by simp [waiting, h, Device.waiting]
    simp only [hw, attempt, verdict, setQueue_eq, reduceCtorEq, false_or, if_false]
    cases b.emit d (e :: es) <;> simp [log, withQueues]
  · next hn =>
    have hw : m.waiting d = [] := by
      by_contra hne
      by_cases ha : m.IsActive d
      · obtain ⟨bp, q, h⟩ := ha
        cases q with
        | nil => simp [waiting, h, Device.waiting] at hne
        | cons e es => exact hn bp e es h
      · exact hne (waiting_of_not_active ha)
    have hq : (fun a => if a = d then [] else m.waiting a) = m.waiting := by
      funext a
      split
      · next h => rw [h, hw]
      · rfl
    simp [hq, hw, attempt, verdict, log]

/-- Flushing some devices empties their queues, journals what the backend accepts, and fails if
the backend refuses one of the batches. -/
theorem flushAll_eq (b : Backend) {ds : List DeviceId} (m : Multiplexer) (hn : ds.Nodup) :
    flushAll b ds m =
      ((m.withQueues fun a => if a ∈ ds then [] else m.waiting a).log
        (ds.flatMap fun d => attempt b d (m.waiting d)), verdict b m.waiting ds) := by
  induction ds generalizing m with
  | nil => simp [flushAll, log, verdict]
  | cons d ds ih =>
    obtain ⟨hd, hn⟩ := List.nodup_cons.mp hn
    let q : DeviceId → List Event := fun a => if a = d then [] else m.waiting a
    have hw : ((m.withQueues q).log (attempt b d (m.waiting d))).waiting = q := by
      refine waiting_withQueues_eq fun a ha => ?_
      simp only [q, waiting_of_not_active ha, ite_self]
    have hds : ∀ a ∈ ds, q a = m.waiting a := by
      intro a ha
      have : a ≠ d := by rintro rfl; exact hd ha
      simp [q, this]
    have hr : (fun a => if a ∈ ds then [] else q a) =
        fun a => if a ∈ d :: ds then [] else m.waiting a := by
      funext a
      by_cases ha : a = d <;> simp [q, ha]
    have hb : ds.flatMap (fun a => attempt b a (q a)) =
        ds.flatMap fun a => attempt b a (m.waiting a) :=
      List.flatMap_congr fun a ha => by rw [hds a ha]
    simp only [flushAll, flush_eq]
    rw [ih _ hn, hw, hb, verdict_congr fun a ha => ⟨hds a ha, rfl⟩, withQueues_log,
      withQueues_withQueues, hr, log_log]
    simp only [List.flatMap_cons, verdict]
    cases verdict b m.waiting ds <;> rfl

/-- No device has events that are not written yet. -/
def Quiet (m : Multiplexer) : Prop := ∀ d, m.waiting d = []

def deliver (b : Backend) (es : List (DeviceId × Event)) (m : Multiplexer) : Outcome :=
  match sendAll es m with
  | (m, .ok ()) => flushAll b (touched es) m
  | failed => failed

def batchesOf (b : Backend) (es : List (DeviceId × Event)) : List Batch :=
  (touched es).flatMap fun d => attempt b d (Journal.eventsOn d es)

def verdictOf (b : Backend) (es : List (DeviceId × Event)) : Except OutputError Unit :=
  verdict b (Journal.eventsOn · es) (touched es)

theorem mem_touched {d : DeviceId} {es : List (DeviceId × Event)} :
    d ∈ touched es ↔ ∃ e, (d, e) ∈ es := by
  simp [touched, DeviceId.mem_ascending]

theorem nodup_touched (es : List (DeviceId × Event)) : (touched es).Nodup :=
  DeviceId.nodup_ascending _

theorem eventsOn_eq_nil_iff {d : DeviceId} {es : List (DeviceId × Event)} :
    Journal.eventsOn d es = [] ↔ d ∉ touched es := by
  simp only [List.eq_nil_iff_forall_not_mem, Journal.mem_eventsOn, mem_touched, not_exists]

def backlog (m : Multiplexer) (es : List (DeviceId × Event)) (d : DeviceId) : List Event :=
  m.waiting d ++ Journal.eventsOn d es

theorem backlog_nil (m : Multiplexer) : m.backlog [] = m.waiting := by
  funext d
  rw [backlog, Journal.eventsOn_nil, List.append_nil]

/-- The state once some events are queued and some devices flushed. -/
def settle (b : Backend) (es : List (DeviceId × Event)) (ds : List DeviceId) (m : Multiplexer) :
    Multiplexer :=
  (m.withQueues fun a => if a ∈ ds then [] else m.backlog es a).log
    (ds.flatMap fun d => attempt b d (m.backlog es d))

theorem settle_nil (m : Multiplexer) (b : Backend) : m.settle b [] [] = m := by
  simp [settle, backlog_nil]

theorem sendAll_eq_backlog {m : Multiplexer} {es : List (DeviceId × Event)}
    (ha : ∀ p ∈ es, m.Accepts p.1) : sendAll es m = (m.withQueues (m.backlog es), .ok ()) := by
  cases es with
  | nil => simp [sendAll, backlog_nil]
  | cons p es => exact sendAll_eq (ha p List.mem_cons_self).1 fun q hq => (ha q hq).2

theorem backlog_eq_nil {m : Multiplexer} {es : List (DeviceId × Event)}
    (ha : ∀ p ∈ es, m.Accepts p.1) {d : DeviceId} (hd : ¬m.IsActive d) : m.backlog es d = [] := by
  have hn : d ∉ touched es := by
    intro hmem
    obtain ⟨e, he⟩ := mem_touched.mp hmem
    exact hd (ha _ he).2
  rw [backlog, waiting_of_not_active hd, eventsOn_eq_nil_iff.mpr hn, List.append_nil]

theorem waiting_backlog {m : Multiplexer} {es : List (DeviceId × Event)}
    (ha : ∀ p ∈ es, m.Accepts p.1) : (m.withQueues (m.backlog es)).waiting = m.backlog es :=
  waiting_withQueues_eq fun _ hd => backlog_eq_nil ha hd

theorem waiting_settle (b : Backend) {m : Multiplexer} {es : List (DeviceId × Event)}
    (ha : ∀ p ∈ es, m.Accepts p.1) (ds : List DeviceId) :
    (m.settle b es ds).waiting = fun d => if d ∈ ds then [] else m.backlog es d := by
  refine waiting_withQueues_eq fun d hd => ?_
  rw [backlog_eq_nil ha hd, ite_self]

theorem deliver_eq_of_accepts (b : Backend) {m : Multiplexer} {es : List (DeviceId × Event)}
    (ha : ∀ p ∈ es, m.Accepts p.1) :
    deliver b es m = (m.settle b es (touched es), verdict b (m.backlog es) (touched es)) := by
  unfold deliver
  rw [sendAll_eq_backlog ha]
  simp only
  rw [flushAll_eq b _ (nodup_touched es), waiting_backlog ha, withQueues_withQueues]
  rfl

/-- Between calls a delivery leaves nothing behind but its batches. -/
theorem deliver_eq (b : Backend) {m : Multiplexer} {es : List (DeviceId × Event)}
    (hf : m.finished = true) (hq : m.Quiet) (ha : ∀ p ∈ es, m.IsActive p.1) :
    deliver b es m = (m.log (batchesOf b es), verdictOf b es) := by
  have hw : m.backlog es = (Journal.eventsOn · es) := by
    funext d
    rw [backlog, hq d, List.nil_append]
  have hrest : (m.withQueues fun a => if a ∈ touched es then [] else m.backlog es a) = m := by
    refine Eq.trans (withQueues_congr fun a _ => ?_) m.withQueues_waiting
    split
    · exact (hq a).symm
    · next hn => rw [backlog, eventsOn_eq_nil_iff.mpr hn, List.append_nil]
  rw [deliver_eq_of_accepts b fun p hp => ⟨hf, ha p hp⟩, settle, hrest, hw]
  rfl

theorem checkAll_eq {m : Multiplexer} {ds : List DeviceId} (hf : m.finished = true)
    (ha : ∀ d ∈ ds, m.IsActive d) : m.checkAll ds = .ok () := by
  induction ds with
  | nil => rfl
  | cons d ds ih =>
    rw [checkAll, queue_eq (ha d List.mem_cons_self) hf]
    exact ih fun a h => ha a (List.mem_cons_of_mem _ h)

theorem frame_eq_deliver (b : Backend) {m : Multiplexer} {es : List (DeviceId × Event)}
    (ha : ∀ p ∈ es, m.Accepts p.1) : m.frame b es = deliver b es m := by
  unfold frame
  split
  · next he =>
    rw [List.isEmpty_iff.mp he]
    rfl
  · next he =>
    obtain ⟨p, hp⟩ := List.exists_mem_of_ne_nil es (by simpa using he)
    have hc : m.checkAll (touched es) = .ok () := checkAll_eq (ha p hp).1 fun d hd => by
      obtain ⟨e, he⟩ := mem_touched.mp hd
      exact (ha _ he).2
    rw [hc]
    rfl

theorem frame_eq (b : Backend) {m : Multiplexer} {es : List (DeviceId × Event)}
    (hf : m.finished = true) (hq : m.Quiet) (ha : ∀ p ∈ es, m.IsActive p.1) :
    m.frame b es = (m.log (batchesOf b es), verdictOf b es) := by
  rw [frame_eq_deliver b fun p hp => ⟨hf, ha p hp⟩, deliver_eq b hf hq ha]

def accepted (b : Backend) (d : DeviceId) (q : List Event) : List Event :=
  if b.emit d q = none then q else []

theorem eventsOn_attempt (b : Backend) (a d : DeviceId) (q : List Event) :
    Journal.eventsOn d (Journal.events (attempt b a q)) =
      if a = d then accepted b a q else [] := by
  unfold attempt accepted
  split
  · next h =>
    rcases h with rfl | h
    · simp [Journal.events]
    · simp [Journal.events, h]
  · next h =>
    simp only [not_or, not_not] at h
    rw [Journal.eventsOn_events_singleton, if_pos h.2]

theorem eventsOn_attempts (b : Backend) (d : DeviceId) (q : DeviceId → List Event)
    {ds : List DeviceId} (hn : ds.Nodup) :
    Journal.eventsOn d (Journal.events (ds.flatMap fun a => attempt b a (q a))) =
      if d ∈ ds then accepted b d (q d) else [] := by
  induction ds with
  | nil => rfl
  | cons a ds ih =>
    obtain ⟨ha, hn⟩ := List.nodup_cons.mp hn
    rw [List.flatMap_cons, Journal.events_append, Journal.eventsOn_append, ih hn]
    rw [eventsOn_attempt]
    by_cases hd : a = d
    · subst hd
      simp [ha]
    · simp [hd, Ne.symm hd]

theorem written_log (m : Multiplexer) (bs : List Batch) (d : DeviceId) :
    (m.log bs).written d = m.written d ++ Journal.eventsOn d (Journal.events bs) := by
  simp [written, log, Journal.events_append]

theorem written_batchesOf (b : Backend) (m : Multiplexer) (es : List (DeviceId × Event))
    (d : DeviceId) :
    (m.log (batchesOf b es)).written d = m.written d ++ accepted b d (Journal.eventsOn d es) := by
  rw [written_log, batchesOf, eventsOn_attempts b d _ (nodup_touched es)]
  split
  · rfl
  · next hd => simp [eventsOn_eq_nil_iff.mpr hd, accepted]

end Multiplexer

end PadRemap
