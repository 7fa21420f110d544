import PadRemap.Proofs.Output.Reaction

/-! What becomes of the events that a multiplexer takes. The main statements: for each device the
events taken are, in order, the batches that the backend is given for it, followed by the events
that still wait; and as long as events come in frames or from timers only, each batch is all that
one call has for one device, and nothing waits between two calls. -/

namespace PadRemap

structure Turn where
  before : Multiplexer
  request : Request

namespace Turn

open Multiplexer

def call (t : Turn) : Call := t.request.call

def after (t : Turn) : Multiplexer := (t.before.perform t.request.backend t.call).1

def result (t : Turn) : Except OutputError Unit := (t.before.perform t.request.backend t.call).2

/-- Whether the multiplexer has turned the call down, without asking the backend. -/
def rejected (t : Turn) : Bool :=
  match t.result with
  | .ok () => false
  | .error e => !e.isRefusal

/-- The events that the call adds to the queues, in order. -/
def admitted (t : Turn) : List (DeviceId × Event) :=
  if t.rejected then [] else t.before.offered t.call

def touched (t : Turn) : List DeviceId :=
  if t.rejected then [] else t.before.named t.call

/-- The batches that the backend is given, refused ones included. -/
def emits (t : Turn) : List Batch := t.before.emits t.request.backend t.call

def takes (t : Turn) (x : Batch) : Bool := (t.request.backend.emit x.device x.events).isNone

def written (t : Turn) : List Batch := t.emits.filter t.takes

/-- What waits on a device before anything is flushed. -/
def backlog (t : Turn) (d : DeviceId) : List Event := t.before.backlog t.admitted d

variable {t : Turn}

theorem admitted_of_rejected (h : t.rejected = true) : t.admitted = [] := if_pos h

theorem admitted_of_not_rejected (h : t.rejected = false) :
    t.admitted = t.before.offered t.call := by
  simp [admitted, h]

theorem touched_of_not_rejected (h : t.rejected = false) : t.touched = t.before.named t.call := by
  simp [touched, h]

theorem not_rejected_of_verdict {q : DeviceId → List Event} {ds : List DeviceId}
    (h : t.result = verdict t.request.backend q ds) : t.rejected = false := by
  unfold rejected
  rw [h]
  cases hv : verdict t.request.backend q ds with
  | ok u => rfl
  | error e => simp [verdict_error hv]

theorem exists_refusal_iff {q : DeviceId → List Event} {ds : List DeviceId}
    (h : t.result = verdict t.request.backend q ds) :
    (∃ f, t.result = .error (.backend f)) ↔
      ∃ x ∈ ds.flatMap fun d => hand d (q d), t.takes x = false := by
  have hx : (∃ x ∈ ds.flatMap fun d => hand d (q d), t.takes x = false) ↔
      ∃ d ∈ ds, ¬(q d = [] ∨ t.request.backend.emit d (q d) = none) := by
    constructor
    · rintro ⟨x, hx, ht⟩
      obtain ⟨d, hd, hx⟩ := List.mem_flatMap.mp hx
      obtain ⟨hq, rfl⟩ := mem_hand.mp hx
      refine ⟨d, hd, ?_⟩
      simpa [takes, hq, Option.isSome_iff_ne_none] using ht
    · rintro ⟨d, hd, hn⟩
      obtain ⟨hq, he⟩ := not_or.mp hn
      refine ⟨⟨d, q d⟩, List.mem_flatMap.mpr ⟨d, hd, mem_hand.mpr ⟨hq, rfl⟩⟩, ?_⟩
      simpa [takes, Option.isSome_iff_ne_none] using he
  have hv : verdict t.request.backend q ds = .ok () ↔
      ∀ d ∈ ds, q d = [] ∨ t.request.backend.emit d (q d) = none := verdict_eq_ok_iff
  rw [hx, h]
  constructor
  · rintro ⟨f, hf⟩
    by_contra hno
    simp only [not_exists, not_and, not_not] at hno
    rw [hv.mpr hno] at hf
    cases hf
  · intro hd
    cases hr : verdict t.request.backend q ds with
    | ok u =>
      obtain ⟨d, hd, hn⟩ := hd
      exact (hn (hv.mp hr d hd)).elim
    | error e =>
      cases e with
      | backend f => exact ⟨f, rfl⟩
      | _ => cases verdict_error hr

end Turn

namespace Turn

open Multiplexer

/-- The part of a turn that the backend sees: at most one batch for each device, in their order. -/
structure HandsOver (t : Turn) : Prop where
  nonempty : ∀ x ∈ t.emits, x.events ≠ []
  ascending : (t.emits.map Batch.device).Pairwise fun a b => DeviceId.order a b = .lt
  flushed : ∀ d ∈ t.touched, t.after.waiting d = [] ∧
    (t.backlog d ≠ [] → ⟨d, t.backlog d⟩ ∈ t.emits)
  refused : t.call ≠ .finish →
    ((∃ f, t.result = .error (.backend f)) ↔ ∃ x ∈ t.emits, t.takes x = false)

/-- What a turn does to queues and journal. -/
structure Settles (t : Turn) : Prop where
  emits : t.emits = t.touched.flatMap fun d => hand d (t.backlog d)
  waiting : ∀ d, t.after.waiting d = if d ∈ t.touched then [] else t.backlog d
  batches : t.after.journal.batches = t.before.journal.batches ++ t.written
  refused : t.call ≠ .finish →
    ((∃ f, t.result = .error (.backend f)) ↔ ∃ x ∈ t.emits, t.takes x = false)

variable {t : Turn}

theorem settles_of_still (ha : t.admitted = []) (ht : t.touched = []) (he : t.emits = [])
    (hw : t.after.waiting = t.before.waiting)
    (hb : t.after.journal.batches = t.before.journal.batches)
    (hr : ∀ f, t.result = .error (.backend f) → t.call = .finish) : t.Settles where
  emits := by rw [he, ht, List.flatMap_nil]
  waiting d := by simp [ht, hw, backlog, Multiplexer.backlog, ha]
  batches := by simp [hb, written, he]
  refused hc := by
    rw [he]
    constructor
    · rintro ⟨f, hf⟩
      exact (hc (hr f hf)).elim
    · rintro ⟨x, hx, -⟩
      cases hx

theorem settles (h : t.before.Regular) : t.Settles := by
  obtain ⟨m, c, b⟩ := t
  let t : Turn := ⟨m, c, b⟩
  have hr : Reaction m b c (m.perform b c) (m.emits b c) := h.reaction b c
  generalize ho : m.perform b c = out at hr
  generalize he : m.emits b c = xs at hr
  have haft : t.after = out.1 := congrArg Prod.fst ho
  have hres : t.result = out.2 := congrArg Prod.snd ho
  have hemits : t.emits = xs := he
  have hstill : m.offered c = [] → m.named c = [] → t.admitted = [] ∧ t.touched = [] := by
    intro ho hn
    simp [admitted, touched, t, call, ho, hn]
  cases hr with
  | @rejected _ e hf =>
    have hrej : t.rejected = true := by
      simp [rejected, hres, hf]
    refine settles_of_still (if_pos hrej) (if_pos hrej) hemits (by rw [haft]) (by rw [haft]) ?_
    intro f hf'
    rw [hres] at hf'
    cases hf'
    cases hf
  | setUp hc hf hrep hb hq hr =>
    obtain ⟨hno, hnn⟩ := nothing_of_setsUp hc m
    obtain ⟨ha, ht⟩ := hstill hno hnn
    refine settles_of_still ha ht hemits ?_ (by rw [haft]; exact hb) ?_
    · rw [haft]
      funext d
      rw [hq d]
      exact (h.quiet hf d).symm
    · intro f hf'
      rw [hres] at hf'
      exact hr f hf'
  | disarmed _ =>
    obtain ⟨ha, ht⟩ := hstill rfl rfl
    refine settles_of_still ha ht hemits (by rw [haft]; rfl) (by rw [haft]; rfl) ?_
    intro f hf
    rw [hres] at hf
    cases hf
  | armed _ hd =>
    obtain ⟨ha, ht⟩ := hstill rfl rfl
    refine settles_of_still ha ht hemits (by rw [haft]; rfl) (by rw [haft]; rfl) ?_
    intro f hf
    rw [hres] at hf
    cases hf
  | settled _ ha =>
    have hrej : t.rejected = false := not_rejected_of_verdict hres
    have hadm : t.admitted = m.offered c := admitted_of_not_rejected hrej
    have htou : t.touched = m.named c := touched_of_not_rejected hrej
    have hback : t.backlog = m.backlog (m.offered c) := by
      funext d
      rw [backlog, hadm]
    refine ⟨?_, fun d => ?_, ?_, fun _ => ?_⟩
    · rw [hemits, htou, hback]
    · rw [haft, waiting_settle_elapsed m b c ha, htou, hback]
    · have hb : (Multiplexer.settle b (m.offered c) (m.named c) (m.elapsed c)).journal.batches =
          m.journal.batches ++
            (m.named c).flatMap fun d => attempt b d (m.backlog (m.offered c) d) := by
        cases c <;> rfl
      rw [haft, hb, written, hemits, List.filter_flatMap]
      congr 1
      exact List.flatMap_congr fun d _ => attempt_eq b d _
    · rw [hemits]
      exact exists_refusal_iff hres

theorem pairwise_touched (t : Turn) :
    t.touched.Pairwise fun a b => DeviceId.order a b = .lt := by
  unfold touched named
  split
  · exact .nil
  · cases t.call with
    | frame es => exact DeviceId.pairwise_ascending _
    | update ms => exact DeviceId.pairwise_ascending _
    | sync => exact Std.ExtTreeMap.ordered_keys
    | _ => exact .nil

theorem nodup_touched (t : Turn) : t.touched.Nodup :=
  DeviceId.nodup_of_pairwise t.pairwise_touched

namespace Settles

theorem mem_emits (h : t.Settles) {x : Batch} :
    x ∈ t.emits ↔ x.device ∈ t.touched ∧ x.events = t.backlog x.device ∧ x.events ≠ [] := by
  rw [h.emits]
  constructor
  · intro hx
    obtain ⟨d, hd, hx⟩ := List.mem_flatMap.mp hx
    obtain ⟨hq, rfl⟩ := mem_hand.mp hx
    exact ⟨hd, rfl, hq⟩
  · rintro ⟨hd, he, hne⟩
    refine List.mem_flatMap.mpr ⟨x.device, hd, mem_hand.mpr ⟨he ▸ hne, ?_⟩⟩
    rw [← he]

theorem ascending (h : t.Settles) :
    (t.emits.map Batch.device).Pairwise fun a b => DeviceId.order a b = .lt := by
  have hmap : t.emits.map Batch.device = t.touched.filter fun d => t.backlog d ≠ [] := by
    rw [h.emits, map_device_hand]
  rw [hmap]
  exact t.pairwise_touched.filter _

theorem eventsOn_backlog (h : t.Settles) (d : DeviceId) :
    t.backlog d = Journal.eventsOn d (Journal.events t.emits) ++ t.after.waiting d := by
  rw [h.emits, eventsOn_hand d _ t.nodup_touched, h.waiting d]
  split
  · rw [List.append_nil]
  · rfl

theorem eventsOn_admitted_eq_nil (hc : ∀ d e, t.call ≠ .send d e) {d : DeviceId}
    (hd : d ∉ t.touched) : Journal.eventsOn d t.admitted = [] := by
  cases hrej : t.rejected with
  | true => rw [admitted_of_rejected hrej, Journal.eventsOn_nil]
  | false =>
    rw [touched_of_not_rejected hrej] at hd
    rw [admitted_of_not_rejected hrej]
    cases hcall : t.call with
    | frame es | update ms =>
      rw [hcall] at hd
      exact eventsOn_eq_nil_iff.mpr hd
    | send a e => exact (hc a e hcall).elim
    | _ => rfl

theorem backlog_of_quiet (hq : t.before.Quiet) (d : DeviceId) :
    t.backlog d = Journal.eventsOn d t.admitted := by
  rw [backlog, Multiplexer.backlog, hq d, List.nil_append]

theorem quiet (h : t.Settles) (hq : t.before.Quiet) (hc : ∀ d e, t.call ≠ .send d e) :
    t.after.Quiet := by
  intro d
  rw [h.waiting d]
  split
  · rfl
  · next hd => rw [backlog_of_quiet hq, eventsOn_admitted_eq_nil hc hd]

theorem mem_written (h : t.Settles) (hq : t.before.Quiet) (hc : ∀ d e, t.call ≠ .send d e)
    {x : Batch} : x ∈ t.written ↔ t.rejected = false ∧ t.takes x = true ∧ x.events ≠ [] ∧
      x.events = Journal.eventsOn x.device (t.before.offered t.call) := by
  rw [written, List.mem_filter, h.mem_emits, backlog_of_quiet hq]
  constructor
  · rintro ⟨⟨hd, he, hne⟩, ht⟩
    have hrej : t.rejected = false := by
      by_contra hr
      rw [admitted_of_rejected (by simpa using hr)] at he
      exact hne he
    exact ⟨hrej, ht, hne, admitted_of_not_rejected hrej ▸ he⟩
  · rintro ⟨hrej, ht, hne, he⟩
    rw [← admitted_of_not_rejected hrej] at he
    refine ⟨⟨?_, he, hne⟩, ht⟩
    by_contra hd
    exact hne (he.trans (eventsOn_admitted_eq_nil hc hd))

theorem handsOver (h : t.Settles) : t.HandsOver where
  nonempty x hx := (h.mem_emits.mp hx).2.2
  ascending := h.ascending
  flushed d hd := by
    refine ⟨by rw [h.waiting d, if_pos hd], fun hne => ?_⟩
    exact h.mem_emits.mpr ⟨hd, rfl, hne⟩
  refused := h.refused

end Settles

end Turn

namespace Multiplexer

def turns (m : Multiplexer) : List Request → List Turn
  | [] => []
  | r :: rs => ⟨m, r⟩ :: (m.perform r.backend r.call).1.turns rs

variable {m : Multiplexer} {rs : List Request}

theorem turns_induct {P : Multiplexer → Prop} (h : P m)
    (hstep : ∀ m, P m → ∀ r ∈ rs, P (m.perform r.backend r.call).1) :
    ∀ t ∈ m.turns rs, P t.before ∧ P t.after := by
  induction rs generalizing m with
  | nil =>
    intro t ht
    cases ht
  | cons r rs ih =>
    have hr : P (m.perform r.backend r.call).1 := hstep m h r List.mem_cons_self
    intro t ht
    rcases List.mem_cons.mp ht with rfl | ht
    · exact ⟨h, hr⟩
    · exact ih hr (fun m hm r hr => hstep m hm r (List.mem_cons_of_mem _ hr)) t ht

theorem request_of_mem_turns {t : Turn} (h : t ∈ m.turns rs) : t.request ∈ rs := by
  induction rs generalizing m with
  | nil => cases h
  | cons r rs ih =>
    rcases List.mem_cons.mp h with rfl | h
    · exact List.mem_cons_self
    · exact List.mem_cons_of_mem r (ih h)

theorem Regular.settles_turns (h : m.Regular) : ∀ t ∈ m.turns rs, t.Settles := by
  intro t ht
  exact Turn.settles (turns_induct h (fun _ hm r _ => hm.perform r.backend r.call) t ht).1

theorem Regular.batches_serve (h : m.Regular) (rs : List Request) :
    (m.serve rs).journal.batches = m.journal.batches ++ (m.turns rs).flatMap Turn.written := by
  induction rs generalizing m with
  | nil => simp [turns]
  | cons r rs ih =>
    have hnext : (m.perform r.backend r.call).1.journal.batches =
        m.journal.batches ++ (Turn.mk m r).written := (Turn.settles (t := ⟨m, r⟩) h).batches
    rw [serve_cons, ih (h.perform _ _), hnext, turns, List.flatMap_cons, List.append_assoc]

theorem batches_serve_new (base : String) (rs : List Request) :
    ((new base).serve rs).journal.batches = ((new base).turns rs).flatMap Turn.written := by
  rw [(regular_new base).batches_serve]
  rfl

/-- What waits at first and what is taken is what the backend is given and what waits at last. -/
theorem Regular.eventsOn_admitted (h : m.Regular) (rs : List Request) (d : DeviceId) :
    m.waiting d ++ Journal.eventsOn d ((m.turns rs).flatMap Turn.admitted) =
      Journal.eventsOn d (Journal.events ((m.turns rs).flatMap Turn.emits)) ++
        (m.serve rs).waiting d := by
  induction rs generalizing m with
  | nil => simp [turns, Journal.events]
  | cons r rs ih =>
    have ht : (Turn.mk m r).Settles := Turn.settles h
    have hnow : m.waiting d ++ Journal.eventsOn d (Turn.mk m r).admitted =
        Journal.eventsOn d (Journal.events (Turn.mk m r).emits) ++
          (m.perform r.backend r.call).1.waiting d := ht.eventsOn_backlog d
    rw [turns, List.flatMap_cons, List.flatMap_cons, Journal.eventsOn_append, ← List.append_assoc,
      hnow, List.append_assoc, ih (h.perform _ _), Journal.events_append, Journal.eventsOn_append,
      List.append_assoc, serve_cons]

/-- Nothing is lost, duplicated or reordered. In every history of a new multiplexer the events
taken for a device are the batches handed over for it, one after the other, followed by what still
waits. The journal holds the batches that the backend took; a batch that it did not take is
dropped as a whole, and the call fails. Every device that a call touches is flushed. -/
theorem nothing_lost (base : String) (rs : List Request) :
    let ts := (new base).turns rs
    let m := (new base).serve rs
    (∀ d, Journal.eventsOn d (ts.flatMap Turn.admitted) =
      ((ts.flatMap Turn.emits).filter (·.device = d)).flatMap Batch.events ++ m.waiting d) ∧
    m.journal.batches = ts.flatMap Turn.written ∧
    ∀ t ∈ ts, t.HandsOver := by
  intro ts m
  have hnew : (new base).Regular := regular_new base
  refine ⟨fun d => ?_, batches_serve_new base rs, fun t ht => (hnew.settles_turns t ht).handsOver⟩
  have hall := hnew.eventsOn_admitted rs d
  have hq : (new base).waiting d = [] := hnew.quiet rfl d
  rwa [hq, List.nil_append, Journal.eventsOn_events] at hall

/-- A frame for two devices, one of which refuses, behind an event that waits on that one. -/
theorem nothing_lost_refused :
    let pad : DeviceId := .joystick 0
    let mouse : DeviceId := .mouse 0
    let rs : List Request := [⟨.addKey pad 304, .reliable⟩, ⟨.addRel mouse 0, .reliable⟩,
      ⟨.finish, .reliable⟩, ⟨.send pad ⟨.key, 304, 1⟩, .reliable⟩,
      ⟨.frame [(mouse, ⟨.rel, 0, 5⟩), (pad, ⟨.key, 304, 0⟩)], .refusing [] [pad]⟩,
      ⟨.send pad ⟨.key, 304, 1⟩, .reliable⟩]
    let ts := (new "pad").turns rs
    let m := (new "pad").serve rs
    ts.flatMap Turn.emits = [⟨pad, [⟨.key, 304, 1⟩, ⟨.key, 304, 0⟩]⟩, ⟨mouse, [⟨.rel, 0, 5⟩]⟩] ∧
    m.journal.batches = [⟨mouse, [⟨.rel, 0, 5⟩]⟩] ∧
    Journal.eventsOn pad (ts.flatMap Turn.admitted) =
      [⟨.key, 304, 1⟩, ⟨.key, 304, 0⟩, ⟨.key, 304, 1⟩] ∧
    m.waiting pad = [⟨.key, 304, 1⟩] ∧ ∀ t ∈ ts, t.HandsOver := by
  intro pad mouse rs ts m
  exact ⟨by decide +kernel, by decide +kernel, by decide +kernel, by decide +kernel,
    (nothing_lost "pad" rs).2.2⟩

/-- Frames are neither split nor merged. If no event is queued on its own, nothing waits between
two calls, and the batches of a call are, in ascending order of devices, all that its events have
for each device. -/
theorem frames_whole (base : String) (rs : List Request)
    (hrs : ∀ r ∈ rs, ∀ d e, r.call ≠ .send d e) :
    let ts := (new base).turns rs
    ((new base).serve rs).journal.batches = ts.flatMap Turn.written ∧
    ∀ t ∈ ts, t.before.Quiet ∧ t.after.Quiet ∧
      t.after.journal.batches = t.before.journal.batches ++ t.written ∧
      (t.written.map Batch.device).Pairwise (fun a b => DeviceId.order a b = .lt) ∧
      ∀ x, x ∈ t.written ↔ t.rejected = false ∧ t.takes x = true ∧ x.events ≠ [] ∧
        x.events = Journal.eventsOn x.device (t.before.offered t.call) := by
  intro ts
  have hnew : (new base).Regular := regular_new base
  have hkeep : ∀ t ∈ ts, (t.before.Regular ∧ t.before.Quiet) ∧ t.after.Regular ∧ t.after.Quiet := by
    refine turns_induct (P := fun m => m.Regular ∧ m.Quiet) ⟨hnew, hnew.quiet rfl⟩ ?_
    rintro m ⟨hm, hq⟩ r hr
    have hs : (Turn.mk m r).Settles := Turn.settles hm
    exact ⟨hm.perform _ _, hs.quiet hq (hrs r hr)⟩
  refine ⟨batches_serve_new base rs, fun t ht => ?_⟩
  obtain ⟨⟨hreg, hq⟩, -, hq'⟩ := hkeep t ht
  have hs : t.Settles := Turn.settles hreg
  have hc : ∀ d e, t.call ≠ .send d e := hrs t.request (request_of_mem_turns ht)
  have hsub : t.written.Sublist t.emits := List.filter_sublist
  exact ⟨hq, hq', hs.batches, hs.ascending.sublist (hsub.map _), fun x => hs.mem_written hq hc⟩

/-- Two writers and a timer on the same two devices, one of which refuses once. -/
theorem frames_whole_shared :
    let pad : DeviceId := .joystick 0
    let mouse : DeviceId := .mouse 0
    let rs : List Request := [⟨.addKey pad 304, .reliable⟩, ⟨.addRel mouse 0, .reliable⟩,
      ⟨.finish, .reliable⟩, ⟨.setRepeat mouse 0 7 10, .reliable⟩,
      ⟨.frame [(mouse, ⟨.rel, 0, 5⟩), (pad, ⟨.key, 304, 1⟩)], .refusing [] [pad]⟩,
      ⟨.frame [(pad, ⟨.key, 304, 0⟩), (mouse, ⟨.rel, 0, 6⟩), (pad, ⟨.key, 304, 1⟩)], .reliable⟩,
      ⟨.update 20, .reliable⟩]
    let ts := (new "pad").turns rs
    (∀ r ∈ rs, ∀ d e, r.call ≠ .send d e) ∧
    ts.map Turn.written = [[], [], [], [], [⟨mouse, [⟨.rel, 0, 5⟩]⟩],
      [⟨pad, [⟨.key, 304, 0⟩, ⟨.key, 304, 1⟩]⟩, ⟨mouse, [⟨.rel, 0, 6⟩]⟩],
      [⟨mouse, [⟨.rel, 0, 7⟩, ⟨.rel, 0, 7⟩]⟩]] ∧
    ((new "pad").serve rs).journal.batches = ts.flatMap Turn.written ∧
    ∀ t ∈ ts, t.after.Quiet := by
  intro pad mouse rs ts
  have hrs : ∀ r ∈ rs, ∀ d e, r.call ≠ .send d e := by
    intro r hr d e hc
    simp only [rs, List.mem_cons, List.not_mem_nil, or_false] at hr
    rcases hr with rfl | rfl | rfl | rfl | rfl | rfl | rfl <;> cases hc
  have h := frames_whole "pad" rs hrs
  exact ⟨hrs, by decide +kernel, h.1, fun t ht => (h.2 t ht).2.1⟩

end Multiplexer

end PadRemap
