import PadRemap.Proofs.Manager.Binding
import PadRemap.Proofs.Manager.Setup
import PadRemap.Proofs.Output.Activation
import PadRemap.Proofs.Slot.Visit

/-! One device after another on a slot. The slot gets its pipeline back from every visit: the
mapper is as new then, but the filters keep what they remember. The main statement says that this
memory is all that a visit passes on to the next one, and when even that makes no difference. -/

namespace PadRemap

/-- A pipeline at work for a slot that started with `p₀`. -/
structure Pipeline.Serves (m₀ : Multiplexer) (obeyed : Prop) (p p₀ : Pipeline) (m : Multiplexer) :
    Prop where
  chain : p.chain.rest = p₀.chain.rest
  wiring : p.mapper.wiring = p₀.mapper.wiring
  upheld : p.mapper.Upheld m₀ obeyed m

namespace Pipeline.Serves

variable {m₀ m : Multiplexer} {obeyed : Prop} {p₀ p : Pipeline} {b : Backend}

theorem process (h : p.Serves m₀ obeyed p₀ m)
    (ha : ∀ o, p₀.mapper.wiring.Uses o → m₀.IsActive o.device) (hb : obeyed → b.Obeys) (ms : Nat)
    (now : Message) :
    (p.process b ms now m).1.Serves m₀ obeyed p₀ (p.process b ms now m).2.1 := by
  obtain ⟨hmapper, hupheld⟩ := h.upheld.work (h.wiring ▸ ha) hb
    (.process (p.chain.update ms now).2)
  refine ⟨(p.chain.rest_update ms now).trans h.chain, ?_, ?_⟩
  · refine (congrArg Mapper.wiring hmapper).trans ?_
    rw [h.upheld.settled.wiring_after, h.wiring]
  · exact (congrArg (Mapper.Upheld m₀ obeyed · _) hmapper).mpr hupheld

theorem reset (h : p.Serves m₀ obeyed p₀ m)
    (ha : ∀ o, p₀.mapper.wiring.Uses o → m₀.IsActive o.device) (hb : obeyed → b.Obeys) :
    (p.reset b m).1.Serves m₀ obeyed p₀ (p.reset b m).2.1 ∧
      (p.reset b m).1.mapper = p₀.mapper.wiring.mapper := by
  obtain ⟨hmapper, hupheld⟩ := h.upheld.reset (h.wiring ▸ ha) hb
  have hnew : (p.reset b m).1.mapper = p₀.mapper.wiring.mapper := h.wiring ▸ hmapper
  refine ⟨⟨h.chain, by rw [hnew]; rfl, ?_⟩, hnew⟩
  rw [hnew, ← h.wiring]
  exact hupheld

end Pipeline.Serves

namespace Worker

variable {m₀ : Multiplexer} {obeyed : Prop} {p₀ : Pipeline} {w : Worker} {r : Rig}

/-- A worker that has not crashed; once it has ended, the mapper is as new. -/
def Serves (m₀ : Multiplexer) (obeyed : Prop) (p₀ : Pipeline) : Worker → Rig → Prop
  | running s, r => s.pipeline.Serves m₀ obeyed p₀ r.mux
  | ended (some p), r =>
    p.Serves m₀ obeyed p₀ r.mux ∧ p.mapper = p₀.mapper.wiring.mapper
  | ended none, _ => False

theorem serves_close {b : Backend} {s : Session} (h : s.pipeline.Serves m₀ obeyed p₀ r.mux)
    (ha : ∀ o, p₀.mapper.wiring.Uses o → m₀.IsActive o.device) (hb : obeyed → b.Obeys) :
    (s.close b r).1.Serves m₀ obeyed p₀ (s.close b r).2 :=
  h.reset ha hb

theorem serves_process {b : Backend} {s : Session} (h : s.pipeline.Serves m₀ obeyed p₀ r.mux)
    (ha : ∀ o, p₀.mapper.wiring.Uses o → m₀.IsActive o.device) (hb : obeyed → b.Obeys) (ms : Nat) :
    (s.process b ms r).1.Serves m₀ obeyed p₀ (s.process b ms r).2 := by
  have hp := h.process ha hb ms s.seen
  unfold Session.process
  split
  · next he =>
    rw [he] at hp
    exact hp
  · next he =>
    rw [he] at hp
    exact serves_close hp ha hb

theorem Serves.beat (h : w.Serves m₀ obeyed p₀ r)
    (ha : ∀ o, p₀.mapper.wiring.Uses o → m₀.IsActive o.device) {x : Beat} (hx : x.Uncrashed)
    (hb : obeyed → x.backend.Obeys) :
    (w.beat r x).1.Serves m₀ obeyed p₀ (w.beat r x).2 := by
  cases x with
  | tick b ms =>
    match w, h with
    | running s, h => exact ⟨h.chain, h.wiring, h.upheld.update b ms⟩
    | ended (some p), h => exact ⟨⟨h.1.chain, h.1.wiring, h.1.upheld.update b ms⟩, h.2⟩
  | turn b reading ms =>
    match w, h with
    | ended (some p), h => exact h
    | running s, h =>
      have hs : (s.deliver r).1.pipeline.Serves m₀ obeyed p₀ (s.deliver r).2.mux := by
        rw [Session.mux_deliver]
        exact h
      rw [Worker.beat, Worker.turn]
      rcases Session.turn_cases b reading ms s r with he | ⟨m, -, he⟩ | ⟨hcrash, -⟩
      · rw [he]
        exact serves_close hs ha hb
      · rw [he]
        exact serves_process (s := { (s.deliver r).1 with seen := m }) hs ha hb ms
      · exact (hx hcrash).elim

theorem Serves.live (h : w.Serves m₀ obeyed p₀ r)
    (ha : ∀ o, p₀.mapper.wiring.Uses o → m₀.IsActive o.device) {beats : List Beat}
    (hx : ∀ x ∈ beats, x.Uncrashed) (hb : obeyed → ∀ x ∈ beats, x.backend.Obeys) :
    (w.live r beats).1.Serves m₀ obeyed p₀ (w.live r beats).2 := by
  induction beats generalizing w r with
  | nil => exact h
  | cons x beats ih =>
    have hfirst := h.beat ha (hx x List.mem_cons_self) fun hob => hb hob x List.mem_cons_self
    exact ih hfirst (fun y hy => hx y (List.mem_cons_of_mem x hy))
      fun hob y hy => hb hob y (List.mem_cons_of_mem x hy)

theorem Serves.spend (h : w.Serves m₀ obeyed p₀ r)
    (ha : ∀ o, p₀.mapper.wiring.Uses o → m₀.IsActive o.device) {v : Visit} (hv : v.Uncrashed)
    (hb : obeyed → v.Obeyed) : ∃ p, (w.spend v r).1 = some p ∧
      p.Serves m₀ obeyed p₀ (w.spend v r).2.mux ∧ p.mapper = p₀.mapper.wiring.mapper := by
  have hlive := h.live ha hv fun hob => (hb hob).2
  unfold Worker.spend
  match (w.live r v.beats).1, hlive with
  | ended (some p), hlive => exact ⟨p, rfl, hlive⟩
  | running s, hlive =>
    have hs : (s.deliver (w.live r v.beats).2).1.pipeline.Serves m₀ obeyed p₀
        (s.deliver (w.live r v.beats).2).2.mux := by
      rw [Session.mux_deliver]
      exact hlive
    exact ⟨_, rfl, hs.reset ha fun hob => (hb hob).1⟩

end Worker

namespace Session

def forget (s : Session) : Session :=
  { s with pipeline := { s.pipeline with chain := s.pipeline.chain.rest } }

variable {s : Session}

theorem turn_frame (hstop : s.stopAsked = false) (b : Backend) (m : Message) (ms : Nat) (r : Rig) :
    s.turn b (.frame m) ms r =
      ({ (s.deliver r).1 with seen := m } : Session).process b ms (s.deliver r).2 := by
  have hgo : ¬(s.deliver r).1.stopAsked = true := by
    change ¬s.stopAsked = true
    rw [hstop]
    exact Bool.false_ne_true
  unfold turn
  exact if_neg hgo

theorem turn_failed (b : Backend) (ms : Nat) (r : Rig) :
    s.turn b .failed ms r = (s.deliver r).1.close b (s.deliver r).2 := by
  unfold turn
  exact ite_self _

theorem turn_forget (hs : s.pipeline.chain.Unmoved) (hstop : s.stopAsked = false) {m : Message}
    (hm : m.Released) (b : Backend) (ms : Nat) (r : Rig) :
    s.forget.turn b (.frame m) ms r = s.turn b (.frame m) ms r := by
  have hchain : s.pipeline.chain.update ms m = s.pipeline.chain.rest.update ms m :=
    Chain.update_of_released hs ms hm
  rw [turn_frame (s := s.forget) hstop, turn_frame hstop]
  simp only [process, forget, deliver, Pipeline.process, ← hchain]

/-- If nothing is pressed in the first message and no integrator has moved, a worker does not use
what the filters remember. -/
theorem spend_forget (hs : s.pipeline.chain.Unmoved) (hstop : s.stopAsked = false)
    (hseen : s.seen = .neutral) {v : Visit} (hv : (Visit.opening v.beats).Released) (r : Rig) :
    ((Worker.running s.forget).spend v r).2 = ((Worker.running s).spend v r).2 := by
  unfold Worker.spend
  generalize v.beats = beats at hv
  -- ticks may come first; after the first turn both sessions are the same, or both are over
  induction beats generalizing r with
  | nil => rfl
  | cons x beats ih =>
    have hended : ∀ left left' (r : Rig),
        (((Worker.ended left).live r beats).1.finish v.last
          ((Worker.ended left).live r beats).2).2 =
        (((Worker.ended left').live r beats).1.finish v.last
          ((Worker.ended left').live r beats).2).2 := by
      intro left left' r
      rw [Worker.live_ended, Worker.live_ended]
      exact Worker.rig_live_ended left left' r beats
    cases x with
    | tick b ms => exact ih (r.pass b ms) hv
    | turn b reading ms =>
      cases reading with
      | frame m =>
        have hm : m.Released := hv
        simp only [Worker.live, Worker.beat, Worker.turn, turn_forget hs hstop hm]
      | idle =>
        have hidle : s.forget.turn b .idle ms r = s.turn b .idle ms r :=
          turn_forget hs hstop (hseen ▸ Message.released_neutral) b ms r
        simp only [Worker.live, Worker.beat, Worker.turn, hidle]
      | failed =>
        simp only [Worker.live, Worker.beat, Worker.turn, turn_failed]
        exact hended _ _ _
      | crashed =>
        have hcrash : s.forget.turn b .crashed ms r = s.turn b .crashed ms r := by
          unfold turn
          simp only [deliver, forget, hstop]
          rfl
        simp only [Worker.live, Worker.beat, Worker.turn, hcrash]

end Session

namespace Worker

/-- A worker that has nothing to write as long as its source brings nothing but the neutral
message. -/
def Calm (w₀ : Wiring) : Worker → Prop
  | running s => s.pipeline.mapper = w₀.mapper ∧ s.pipeline.chain.Unmoved ∧
      s.pipeline.chain.Centred ∧ s.seen = .neutral
  | ended _ => True

variable {w₀ : Wiring} {w : Worker} {r : Rig}

theorem calm_close {s : Session} (h : s.pipeline.mapper = w₀.mapper) (b : Backend) (r : Rig) :
    (s.close b r).1.Calm w₀ ∧ (s.close b r).2.mux = r.mux := by
  have hreset : s.pipeline.mapper.runReset b r.mux = (w₀.mapper, r.mux, .ok ()) :=
    h ▸ Mapper.follow_mapper w₀ .reset rfl b r.mux
  refine ⟨trivial, ?_⟩
  change (s.pipeline.mapper.runReset b r.mux).2.1 = r.mux
  rw [hreset]

theorem calm_process {s : Session} (h : (running s).Calm w₀) (b : Backend) (ms : Nat) (r : Rig) :
    (s.process b ms r).1.Calm w₀ ∧ (s.process b ms r).2.mux = r.mux := by
  obtain ⟨hmapper, hu, hc, hseen⟩ := h
  obtain ⟨hm, hu', hc'⟩ := Chain.update_neutral hu hc ms
  have hprocess : s.pipeline.process b ms s.seen r.mux =
      (⟨(s.pipeline.chain.update ms .neutral).1, w₀.mapper⟩, r.mux, .ok ()) := by
    have hrun := Mapper.follow_mapper w₀ (.process .neutral) rfl b r.mux
    rw [Pipeline.process, hseen, hmapper]
    simp only [hm]
    rw [show w₀.mapper.runProcess b .neutral r.mux = _ from hrun]
  rw [Session.process, hprocess]
  exact ⟨⟨rfl, hu', hc', hseen⟩, rfl⟩

theorem Calm.beat (h : w.Calm w₀) (hr : r.mux.repeats = ∅) {x : Beat} (hx : x.Neutral) :
    (w.beat r x).1.Calm w₀ ∧ (w.beat r x).2.mux = r.mux := by
  cases x with
  | tick b ms =>
    refine ⟨h, ?_⟩
    change (r.mux.update b ms).1 = r.mux
    rw [Multiplexer.update_of_no_timers hr]
  | turn b reading ms =>
    cases w with
    | ended left => exact ⟨trivial, rfl⟩
    | running s =>
      obtain ⟨hmapper, hu, hc, hseen⟩ := h
      rw [← Session.mux_deliver s r, Worker.beat, Worker.turn]
      rcases Session.turn_cases b reading ms s r with he | ⟨m, hm, he⟩ | ⟨-, he⟩
      · rw [he]
        exact calm_close (s := (s.deliver r).1) hmapper b _
      · have hneutral : m = .neutral := by
          rcases hm with rfl | rfl
          · exact hx
          · exact hseen
        rw [he]
        exact calm_process (s := { (s.deliver r).1 with seen := m })
          ⟨hmapper, hu, hc, hneutral⟩ b ms _
      · rw [he]
        exact ⟨trivial, rfl⟩

theorem Calm.spend (h : w.Calm w₀) (hr : r.mux.repeats = ∅) {v : Visit} (hv : v.Neutral) :
    (w.spend v r).2.mux = r.mux := by
  have hlive : (w.live r v.beats).1.Calm w₀ ∧ (w.live r v.beats).2.mux = r.mux := by
    unfold Visit.Neutral at hv
    generalize v.beats = beats at hv
    induction beats generalizing w r with
    | nil => exact ⟨h, rfl⟩
    | cons x beats ih =>
      obtain ⟨hcalm, hmux⟩ := h.beat hr (hv x List.mem_cons_self)
      obtain ⟨hend, hsame⟩ := ih hcalm (hmux ▸ hr) fun y hy => hv y (List.mem_cons_of_mem x hy)
      exact ⟨hend, hsame.trans hmux⟩
  obtain ⟨hcalm, hmux⟩ := hlive
  unfold Worker.spend
  refine Eq.trans ?_ hmux
  match (w.live r v.beats).1, hcalm with
  | ended left, _ => rfl
  | running s, hcalm =>
    rw [← Session.mux_deliver s (w.live r v.beats).2]
    exact (calm_close (s := (s.deliver (w.live r v.beats).2).1) hcalm.1 v.last _).2

end Worker

theorem FilterSpec.Builds.rest {s : FilterSpec} {f : Filter} (h : s.Builds f) : f.rest = f := by
  cases h <;> rfl

theorem Chain.rest_of_ofSpecs {specs : List FilterSpec} {c : Chain} (h : ofSpecs specs = .ok c) :
    c.rest = c := by
  refine rest_eq_of_forall fun f hf => ?_
  obtain ⟨s, -, hs⟩ := exists_builds_of_mem h hf
  exact hs.rest

theorem Pipeline.parts_of_ofConfig {c : SlotConfig} {p : Pipeline} (h : ofConfig c = .ok p) :
    p.chain.rest = p.chain ∧ p.mapper = c.wiring.mapper := by
  unfold ofConfig at h
  cases hc : Chain.ofSpecs c.filters with
  | error e =>
    rw [hc] at h
    cases h
  | ok chain =>
    rw [hc] at h
    cases h
    exact ⟨Chain.rest_of_ofSpecs hc, rfl⟩

namespace Slot

theorem vacant_of_new {id : Nat} {c : SlotConfig} {s : Slot} (h : new id c = .ok s) :
    ∃ p, Pipeline.ofConfig s.config = .ok p ∧ s.Vacant p := by
  unfold new at h
  cases hp : Pipeline.ofConfig c with
  | error e =>
    rw [hp] at h
    cases h
  | ok p =>
    rw [hp] at h
    cases h
    exact ⟨p, hp, rfl, rfl, rfl, rfl⟩

namespace Vacant

variable {s : Slot} {p : Pipeline} {r : Rig}

theorem withChain (h : s.Vacant p) (chain : Chain) :
    ({ s with pipeline := some { p with chain } } : Slot).Vacant { p with chain } :=
  ⟨h.unbound, h.identity, h.worker, rfl⟩

/-- What a visit leaves in the slot and on a multiplexer that was fresh. -/
theorem left_by_host (h : s.Vacant p) (hp : p.mapper.wiring.mapper = p.mapper) (hr : r.mux.Fresh)
    (ha : ∀ o, p.mapper.wiring.Uses o → r.mux.IsActive o.device) {v : Visit} (hv : v.Uncrashed) :
    ∃ chain batches, (s.host v r).1 = { s with pipeline := some { p with chain } } ∧
      chain.rest = p.chain.rest ∧ (s.host v r).2.mux = r.mux.log batches ∧
      (v.Obeyed → ∀ o, (s.host v r).2.mux.level o = none) := by
  have hstart : p.Serves r.mux v.Obeyed p r.mux :=
    ⟨rfl, rfl, hp ▸ Mapper.Upheld.start hr _ p.mapper.wiring⟩
  obtain ⟨q, hq, hserves, hmapper⟩ :=
    Worker.Serves.spend (w := .running (s.session v p)) hstart ha hv fun hob => hob
  rw [hp] at hmapper
  have hupheld : p.mapper.wiring.mapper.Upheld r.mux v.Obeyed _ := hp ▸ hmapper ▸ hserves.upheld
  obtain ⟨⟨batches, hmux⟩, hlevel⟩ := hupheld.ended hr.repeats
  have hhost := h.host v r
  refine ⟨q.chain, batches, ?_, hserves.chain, ?_, ?_⟩
  · rw [hhost, hq, h.vacated, ← hmapper]
  · rw [hhost]
    exact hmux
  · rw [hhost]
    exact hlevel

theorem mux_host (h : s.Vacant p) (v : Visit) {r' : Rig} {past : List Batch}
    (hr : r'.mux = r.mux.withPast past) :
    (s.host v r').2.mux = (s.host v r).2.mux.withPast past := by
  rw [h.host, h.host]
  exact Worker.mux_spend _ v hr

theorem host_of_released (h : s.Vacant p) {chain : Chain} (hrest : chain.rest = p.chain)
    (hu : chain.Unmoved) {v : Visit} (hv : (Visit.opening v.beats).Released) (r : Rig) :
    (({ s with pipeline := some { p with chain } } : Slot).host v r).2 = (s.host v r).2 := by
  have hsame : ({ p with chain := chain.rest } : Pipeline) = p := by rw [hrest]
  have hforget : (s.session v { p with chain }).forget = s.session v p := by
    rw [Session.forget, session, hsame]
    rfl
  have hspend := Session.spend_forget (s := s.session v { p with chain }) hu rfl rfl hv r
  rw [(h.withChain chain).host, h.host, ← hforget]
  exact hspend.symm

theorem mux_host_of_neutral (h : s.Vacant p) (hp : p.mapper.wiring.mapper = p.mapper)
    (hu : p.chain.Unmoved) (hc : p.chain.Centred) (hr : r.mux.repeats = ∅) {v : Visit}
    (hv : v.Neutral) : (s.host v r).2.mux = r.mux := by
  have hcalm : (Worker.running (s.session v p)).Calm p.mapper.wiring := ⟨hp.symm, hu, hc, rfl⟩
  rw [h.host]
  exact hcalm.spend hr hv

end Vacant

end Slot

namespace Manager

theorem pipelines_of_build {b : Backend} {configs : List (SlotConfig × Nat)}
    {mux n : Multiplexer} {slots : List Slot} (h : build b configs mux = (n, .ok slots)) :
    ∀ c ∈ configs, ∃ p, Pipeline.ofConfig c.1 = .ok p := by
  induction configs generalizing mux n slots with
  | nil => exact fun _ hc => nomatch hc
  | cons c configs ih =>
    rw [build] at h
    split at h
    · cases h
    · split at h
      · cases h
      · next s hs =>
        split at h
        · next n' rest hrest =>
          refine List.forall_mem_cons.mpr ⟨?_, ih hrest⟩
          obtain ⟨p, hp, -⟩ := Slot.vacant_of_new hs
          exact ⟨p, (Slot.Sound.new hs).2.2.1 ▸ hp⟩
        · next hno => exact (hno _ _ h).elim

theorem ready_of_new {b : Backend} {configs : List SlotConfig} {name : String} {m : Manager}
    (h : new b configs name = .ok m) :
    m.Ready ∧ ∀ s ∈ m.slots, ∃ p, Pipeline.ofConfig s.config = .ok p ∧ s.Vacant p := by
  unfold new at h
  split at h
  · cases h
  next mux slots hbuild =>
  split at h
  · cases h
  next n hfinish =>
  cases h
  have hvacant : ∀ s ∈ slots, ∃ p, Pipeline.ofConfig s.config = .ok p ∧ s.Vacant p := by
    intro s hs
    obtain ⟨i, hi⟩ := List.mem_iff_getElem?.mp hs
    obtain ⟨c, -, hnew⟩ := new_of_build hbuild hi
    exact Slot.vacant_of_new hnew
  obtain ⟨mux', slots', hbuild', hdec, -, hready, huses, -⟩ :=
    build_ok b (pipelines_of_build hbuild) (Multiplexer.declaring_new name)
  cases hbuild.symm.trans hbuild'
  have hobeyed : ∀ d, mux.refusal b d = none := by
    intro d
    by_contra hd
    obtain ⟨_, _, _, -, -, herror, -⟩ := Multiplexer.finish_refused hdec.finished hd
    rw [hfinish] at herror
    cases herror
  obtain ⟨n', hfinish', hfresh, hissued, hoffers⟩ := hdec.finish hobeyed
  cases hfinish.symm.trans hfinish'
  exact ⟨⟨hready, hfresh, hissued, fun s hs o ho => hoffers o (huses s hs o ho)⟩, hvacant⟩

/-- A slot passes nothing on from one device to the next but the memory of its filters. Without
filters that remember anything, the second device is served as by a new slot; and so it is if no
integrator has moved and nothing is pressed in its first message. If it reports the neutral message
only, nothing is written, provided that no integrator has moved and every calibration is centred.
The first visit leaves all outputs at rest, unless a batch was refused. -/
theorem visits_share_memory_only {b : Backend} {configs : List SlotConfig} {name : String}
    {m₀ : Manager} (h : new b configs name = .ok m₀) {s : Slot} (hs : s ∈ m₀.slots)
    {first : Visit} (hv : first.Uncrashed) (second : Visit) :
    let x := s.host first m₀.rig
    let y := x.1.host second x.2
    let written := x.2.mux.journal.batches
    ∃ p chain, Pipeline.ofConfig s.config = .ok p ∧
      x.1 = { s with pipeline := some { p with chain } } ∧ chain.rest = p.chain ∧
      x.2.mux.repeats = ∅ ∧ (first.Obeyed → ∀ o, x.2.mux.level o = none) ∧
      y.2.mux.journal.batches =
        written ++ (x.1.host second m₀.rig).2.mux.journal.batches ∧
      (p.chain.Memoryless ∨ chain.Unmoved ∧ (Visit.opening second.beats).Released →
        y.2.mux.journal.batches = written ++ (s.host second m₀.rig).2.mux.journal.batches) ∧
      ((∀ f ∈ p.chain.filters, f.stage ≠ .integrator) → chain.Unmoved) ∧
      (chain.Unmoved → p.chain.Centred → second.Neutral → y.2.mux = x.2.mux) := by
  intro x y written
  obtain ⟨hready, hvacant⟩ := ready_of_new h
  obtain ⟨p, hp, hslot⟩ := hvacant s hs
  obtain ⟨hrest, hmapper⟩ := Pipeline.parts_of_ofConfig hp
  have hwiring : p.mapper.wiring.mapper = p.mapper := by
    rw [hmapper]
    rfl
  have hactive : ∀ o, p.mapper.wiring.Uses o → m₀.rig.mux.IsActive o.device := by
    intro o ho
    rw [hmapper] at ho
    obtain ⟨_, _, hd, -⟩ := hready.offers s hs o ho
    exact ⟨_, _, hd⟩
  obtain ⟨chain, batches, hleft, hchain, hmux, hlevel⟩ :=
    hslot.left_by_host hwiring hready.fresh hactive hv
  rw [hrest] at hchain
  -- for the second visit what the first one has written is the past
  have hpast : x.2.mux = m₀.rig.mux.withPast batches := by
    rw [show x.2.mux = _ from hmux, Multiplexer.log, Multiplexer.withPast, hready.fresh.batches,
      List.nil_append, List.append_nil]
  have hwritten : written = batches := by
    change x.2.mux.journal.batches = batches
    rw [show x.2.mux = _ from hmux]
    change m₀.rig.mux.journal.batches ++ batches = batches
    rw [hready.fresh.batches, List.nil_append]
  have hvacant' : x.1.Vacant { p with chain } := by
    rw [show x.1 = _ from hleft]
    exact hslot.withChain chain
  have hsame : y.2.mux.journal.batches =
      written ++ (x.1.host second m₀.rig).2.mux.journal.batches := by
    rw [hwritten, show y.2.mux = _ from hvacant'.mux_host second hpast]
    rfl
  have htimers : x.2.mux.repeats = ∅ := by
    rw [hpast]
    exact hready.fresh.repeats
  refine ⟨p, chain, hp, hleft, hchain, htimers, hlevel, hsame, ?_, ?_, ?_⟩
  · rintro (hm | ⟨hu, ho⟩)
    · have hnew : chain = p.chain := by
        rw [← hchain] at hm ⊢
        exact (Chain.rest_eq_of_memoryless hm).symm
      have hx : x.1 = s := by
        rw [show x.1 = _ from hleft, hnew, ← hslot.pipeline]
      rw [hsame, hx]
    · rw [hsame, show x.1 = _ from hleft, hslot.host_of_released hchain hu ho]
  · rw [← hchain]
    exact Chain.unmoved_of_rest
  · intro hu hc hn
    rw [← hchain] at hc
    exact hvacant'.mux_host_of_neutral hwiring hu (Chain.centred_of_rest hc) htimers hn

/-- A button is still held when the first device vanishes. The second one reports the neutral
message before it presses the same button. -/
theorem visits_share_memory_only_autofire :
    let c : SlotConfig :=
      ⟨.bind .empty .faceA (.key 0 304), .empty, [.autofire "A" 100], 0, none, []⟩
    let pressed := Message.neutral.setButton .faceA true
    let visit : List Message → Visit := fun ms =>
      ⟨default, ⟨0, "pad"⟩, ms.map fun m => .turn .reliable (.frame m) 150, .reliable⟩
    ∃ m₀, new .reliable [c] "Pads" = .ok m₀ ∧ ∃ s ∈ m₀.slots,
      let x := s.host (visit [pressed]) m₀.rig
      let y := x.1.host (visit [.neutral, pressed]) x.2
      (∀ o, x.2.mux.level o = none) ∧ x.2.mux.journal.batches.length = 2 ∧
        y.2.mux.journal.batches = x.2.mux.journal.batches ++
          (s.host (visit [.neutral, pressed]) m₀.rig).2.mux.journal.batches := by
  intro c pressed visit
  have hrun : ((new .reliable [c] "Pads").toOption.bind fun m => m.slots.head?.map fun s =>
      (((Pipeline.ofConfig s.config).toOption.map fun p => p.chain.stages),
        (s.host (visit [pressed]) m.rig).2.mux.journal.batches.length)) =
      some (some [.buttons], 2) := by
    decide +kernel
  obtain ⟨m₀, hm, hrun⟩ := Option.bind_eq_some_iff.mp hrun
  obtain ⟨s, hs, hvalues⟩ := Option.map_eq_some_iff.mp hrun
  obtain ⟨hstages, hlength⟩ := Prod.mk.inj hvalues
  have hok := Except.toOption_eq_some.mp hm
  have hmem : s ∈ m₀.slots := List.mem_of_mem_head? hs
  obtain ⟨p, chain, hp, -, -, -, hlevel, -, hnew, hunmoved, -⟩ :=
    visits_share_memory_only hok hmem (show (visit [pressed]).Uncrashed by
      simp [visit, Visit.Uncrashed, Beat.Uncrashed]) (visit [.neutral, pressed])
  rw [hp] at hstages
  have hstages : p.chain.filters.map Filter.stage = [.buttons] := Option.some.inj hstages
  have hchain : chain.Unmoved := by
    refine hunmoved fun f hf hstage => ?_
    have hin : f.stage ∈ [Stage.buttons] := hstages ▸ List.mem_map_of_mem hf
    rw [hstage] at hin
    cases List.mem_singleton.mp hin
  refine ⟨m₀, hok, s, hmem, hlevel ?_, hlength, hnew (Or.inr ⟨hchain, Message.released_neutral⟩)⟩
  exact ⟨fun _ _ => rfl, by simp [visit, Beat.backend, Backend.Obeys, Backend.reliable]⟩

/-- What the first device did shows in the second visit: an integrator still stands where the
first device moved it, autofire still counts the time for which the first device held the button,
and of a dpad diagonal the direction stays that the first device pressed. With a calibration off
centre, even a new slot writes for the neutral message. -/
theorem memory_shows_in_next_visit :
    let pad : DeviceId := .joystick 0
    let config : FilterSpec → SlotConfig := fun filter =>
      ⟨.bind .empty .faceA (.key 0 304),
        ((AxisBindings.empty.bind .x1 (.abs 0 0)).bind .dpadX (.abs 0 16)).bind .dpadY (.abs 0 17),
        [filter], 0, none, []⟩
    let visit : Message → Nat → Visit := fun m ms =>
      ⟨default, ⟨0, "pad"⟩, [.turn .reliable (.frame m) ms], .reliable⟩
    let written : FilterSpec → Visit → Visit → Option (List Batch × List Batch) :=
      fun filter first second =>
        (new .reliable [config filter] "Pads").toOption.bind fun m => m.slots.head?.map fun s =>
          let x := s.host first m.rig
          ((x.1.host second x.2).2.mux.journal.batches.drop x.2.mux.journal.batches.length,
            (s.host second m.rig).2.mux.journal.batches)
    let tilted := Message.neutral.setAxis .x1 16384
    let pressed := Message.neutral.setButton .faceA true
    let right := Message.neutral.setButton .dpadRight true
    let diagonal := right.setButton .dpadUp true
    let moved : List Batch := [⟨pad, [⟨.abs, 0, 16384⟩]⟩, ⟨pad, [⟨.abs, 0, 0⟩]⟩]
    let fired : List Batch := [⟨pad, [⟨.key, 304, 1⟩]⟩, ⟨pad, [⟨.key, 304, 0⟩]⟩]
    let sideways : List Batch := [⟨pad, [⟨.abs, 16, 1⟩]⟩, ⟨pad, [⟨.abs, 16, 0⟩]⟩]
    let upwards : List Batch := [⟨pad, [⟨.abs, 17, -1⟩]⟩, ⟨pad, [⟨.abs, 17, 0⟩]⟩]
    let skewed : List Batch := [⟨pad, [⟨.abs, 0, -10922⟩]⟩, ⟨pad, [⟨.abs, 0, 0⟩]⟩]
    written (.relativeAxis "X1" 32768) (visit tilted 1000) (visit .neutral 10) = some (moved, []) ∧
    written (.autofire "A" 100) (visit pressed 150) (visit pressed 0) = some ([], fired) ∧
    written .fourWay (visit right 0) (visit diagonal 0) = some (sideways, upwards) ∧
    written (.calibration "X1" (-100) 50 100) (visit .neutral 0) (visit .neutral 10) =
      some (skewed, skewed) ∧
    ¬∀ m₀, new .reliable [config (.relativeAxis "X1" 32768)] "Pads" = .ok m₀ → ∀ s ∈ m₀.slots,
      ∀ first second : Visit, first.Uncrashed →
        let x := s.host first m₀.rig
        (x.1.host second x.2).2.mux.journal.batches =
          x.2.mux.journal.batches ++ (s.host second m₀.rig).2.mux.journal.batches := by
  intro pad config visit written tilted pressed right diagonal moved fired sideways upwards skewed
  have hmoved : written (.relativeAxis "X1" 32768) (visit tilted 1000) (visit .neutral 10) =
      some (moved, []) := by
    decide +kernel
  have hfired : written (.autofire "A" 100) (visit pressed 150) (visit pressed 0) =
      some ([], fired) := by
    decide +kernel
  have hkept : written .fourWay (visit right 0) (visit diagonal 0) = some (sideways, upwards) := by
    decide +kernel
  have hskewed : written (.calibration "X1" (-100) 50 100) (visit .neutral 0) (visit .neutral 10) =
      some (skewed, skewed) := by
    decide +kernel
  refine ⟨hmoved, hfired, hkept, hskewed, fun hall => ?_⟩
  obtain ⟨m₀, hm, hrun⟩ := Option.bind_eq_some_iff.mp hmoved
  obtain ⟨s, hs, hvalues⟩ := Option.map_eq_some_iff.mp hrun
  obtain ⟨hold, hnew⟩ := Prod.mk.inj hvalues
  have hok := Except.toOption_eq_some.mp hm
  have hsame := hall m₀ hok s (List.mem_of_mem_head? hs) (visit tilted 1000) (visit .neutral 10)
    (by simp [visit, Visit.Uncrashed, Beat.Uncrashed])
  simp only [hnew, List.append_nil] at hsame
  rw [hsame, List.drop_length] at hold
  exact List.cons_ne_nil _ _ hold.symm

end Manager

end PadRemap
