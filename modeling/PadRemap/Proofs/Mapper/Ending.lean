import Mathlib.Data.List.Basic
import PadRemap.Proofs.Mapper.Failure

/-! What a mapper leaves behind. It alone has used a multiplexer, and some of its batches may have
been refused. Once it has been reset it is as new, and of the multiplexer only the journal has
changed; every output is at rest if no batch was refused. -/

namespace PadRemap

open Mapper (Job)

namespace Multiplexer

variable {m : Multiplexer}

theorem InService.level_frame (h : m.InService) (b : Backend) (es : List (DeviceId × Event))
    {o : Output} (ho : o.kind = .rel ∨ (m.frame b es).2 = .ok ()) :
    (m.frame b es).1.level o = ((Call.frame es).writes o).getD (m.level o) := by
  rcases ho with hk | hok
  · rw [Call.writes, if_pos hk]
    rcases h.frame_cases b es with ⟨-, he⟩ | ⟨_, _, _, _, he⟩
    · rw [he]
      simp [level, hk]
    · rw [he]
      rfl
  · exact h.level_perform (c := .frame es) (p := fun _ => True) (fun _ _ => trivial) hok o

theorem update_of_no_timers (h : m.repeats = ∅) (b : Backend) (ms : Nat) :
    m.update b ms = (m, .ok ()) := by
  have hnone : (∅ : OutletMap Repeat).map (fun _ r => r.advance ms) = ∅ :=
    Std.ExtTreeMap.ext_getElem? fun o => by simp
  have hsame : ({ m with repeats := ∅ } : Multiplexer) = m := by rw [← h]
  simp only [update, h, hnone, hsame]
  rfl

end Multiplexer

namespace Mapper

variable {s : Mapper} {m₀ m : Multiplexer} {obeyed : Prop}

/-- A mapper at work on a multiplexer that was at rest. As long as the backend has obeyed, every
output that is not at rest is driven by the mapper; its timers are so in any case. -/
structure Upheld (m₀ : Multiplexer) (obeyed : Prop) (s : Mapper) (m : Multiplexer) : Prop where
  settled : s.Settled
  service : m.InService
  same : ∃ timers batches, m = (m₀.withTimers timers).log batches
  driven : ∀ o, (o.kind = .rel ∨ obeyed) → m.level o ≠ none → ∃ x, s.level o x ≠ none

namespace Upheld

theorem start (h : m.Fresh) (obeyed : Prop) (w : Wiring) : w.mapper.Upheld m obeyed m where
  settled := settled_mapper w
  service := h.inService
  same := ⟨m.repeats, [], (Multiplexer.log_nil m).symm⟩
  driven o _ ho := (ho (h.level o)).elim

theorem isActive (h : s.Upheld m₀ obeyed m) {d : DeviceId} (hd : m₀.IsActive d) : m.IsActive d := by
  obtain ⟨_, _, rfl⟩ := h.same
  exact hd

theorem work (h : s.Upheld m₀ obeyed m) (ha : ∀ o, s.wiring.Uses o → m₀.IsActive o.device)
    {b : Backend} (hb : obeyed → b.Obeys) (job : Job) :
    (follow b (s.plan job) s m).1 = s.after job ∧
      (s.after job).Upheld m₀ obeyed (follow b (s.plan job) s m).2.1 := by
  obtain ⟨timers, hn, hlevel, he⟩ := h.settled.follow_frame h.service
    (fun d code hu => h.isActive (ha _ hu)) b job
  rw [he]
  refine ⟨rfl, h.settled.after job, ?_, ?_, ?_⟩
  · exact (hn.perform b (c := .frame _) (p := fun _ => True) fun _ _ => trivial).1
  · obtain ⟨first, batches, hm⟩ := h.same
    rcases hn.frame_cases b (s.draft job).mapper.frame with ⟨-, hf⟩ | ⟨_, _, _, _, hf⟩
    · refine ⟨timers, batches ++ Multiplexer.batchesOf b (s.draft job).mapper.frame, ?_⟩
      rw [hf, hm, ← Multiplexer.log_log]
      rfl
    · refine ⟨timers, batches, ?_⟩
      rw [hf, hm]
      rfl
  · intro o ho hl
    have hframe : o.kind = .rel ∨
        ((m.withTimers timers).frame b (s.draft job).mapper.frame).2 = .ok () := by
      refine ho.imp_right fun hobeyed => ?_
      exact hn.perform_ok (hb hobeyed) (c := .frame _) (h.settled.keeps.draft job).mapper.frame
        fun o hu => h.isActive (ha o hu)
    have hplan : ((m.withTimers timers).frame b (s.draft job).mapper.frame).1.level o =
        (Step.writes o (s.plan job)).getD (m.level o) := by
      rw [hn.level_frame b _ hframe, hlevel, plan_eq, Step.writes_append, Step.writes_singleton]
      cases (Call.frame (s.draft job).mapper.frame).writes o <;> rfl
    rw [hplan] at hl
    rcases h.settled.plan_writes job o with ⟨hnone, hsame⟩ | ⟨x, -, hx⟩
    · rw [hnone] at hl
      obtain ⟨x, hx⟩ := h.driven o ho hl
      exact ⟨x, (hsame x).symm ▸ hx⟩
    · rw [hx] at hl
      exact ⟨x, hl⟩

theorem update (h : s.Upheld m₀ obeyed m) (b : Backend) (ms : Nat) :
    s.Upheld m₀ obeyed (m.update b ms).1 := by
  obtain ⟨hservice, -, hlevel⟩ := h.service.update b ms
  refine ⟨h.settled, hservice, ?_, fun o ho hl => h.driven o ho (hlevel o ▸ hl)⟩
  obtain ⟨timers, batches, hm⟩ := h.same
  refine ⟨timers.map fun _ r => r.advance ms,
    batches ++ Multiplexer.batchesOf b (m.dueEvents ms), ?_⟩
  rw [h.service.update_eq, ← Multiplexer.log_log]
  refine congrArg (Multiplexer.log · _) ?_
  rw [hm]
  rfl

theorem reset (h : s.Upheld m₀ obeyed m) (ha : ∀ o, s.wiring.Uses o → m₀.IsActive o.device)
    {b : Backend} (hb : obeyed → b.Obeys) :
    (s.runReset b m).1 = s.wiring.mapper ∧
      s.wiring.mapper.Upheld m₀ obeyed (s.runReset b m).2.1 := by
  obtain ⟨hmapper, hupheld⟩ := h.work ha hb .reset
  have hnew : s.after .reset = s.wiring.mapper := by
    rw [(h.settled.after .reset).eq_mapper rfl, h.settled.wiring_after]
  exact ⟨hmapper.trans hnew, hnew ▸ hupheld⟩

/-- What a mapper that is as new has left behind is in the journal only. -/
theorem ended {w : Wiring} (h : w.mapper.Upheld m₀ obeyed m) (hm : m₀.repeats = ∅) :
    (∃ batches, m = m₀.log batches) ∧ (obeyed → ∀ o, m.level o = none) := by
  have hlevel : ∀ o, (o.kind = .rel ∨ obeyed) → m.level o = none := by
    intro o ho
    by_contra hl
    obtain ⟨x, hx⟩ := h.driven o ho hl
    exact hx (level_mapper w o x)
  have htimers : m.repeats = ∅ := by
    refine Std.ExtTreeMap.ext_getElem? fun o => ?_
    have htimer := hlevel ⟨o.device, .rel, o.code⟩ (Or.inl rfl)
    rw [Multiplexer.level_rel, Multiplexer.timerOn, Option.map_eq_none_iff] at htimer
    simpa using htimer
  refine ⟨?_, fun hobeyed o => hlevel o (Or.inr hobeyed)⟩
  obtain ⟨timers, batches, rfl⟩ := h.same
  refine ⟨batches, ?_⟩
  have hsame : m₀.withTimers timers = m₀ := by
    rw [show timers = m₀.repeats from htimers.trans hm.symm]
    rfl
  rw [hsame]

end Upheld

theorem draft_mapper (w : Wiring) {job : Job} (h : job.message = .neutral) :
    w.mapper.draft job = ⟨[], w.mapper⟩ := by
  have hl : w.mapper.last = .neutral := rfl
  cases job with
  | process now =>
    have hnow : now = .neutral := h
    have haxes : ∀ a, (if now.axis a ≠ w.mapper.last.axis a
        then (⟨[], w.mapper⟩ : Draft).changeAxis now a else ⟨[], w.mapper⟩) = ⟨[], w.mapper⟩ :=
      fun a => if_neg (by simp [hnow, hl])
    have hbuttons : ∀ b, (if now.button b ≠ w.mapper.last.button b
        then (⟨[], w.mapper⟩ : Draft).changeButton w.mapper.last now b else ⟨[], w.mapper⟩) =
          ⟨[], w.mapper⟩ :=
      fun b => if_neg (by simp [hnow, hl])
    rw [Mapper.draft, List.foldl_fixed' hbuttons Button.all, List.foldl_fixed' haxes Axis.all]
  | reset =>
    have hbuttons : ∀ b, (if w.mapper.last.button b = true
        then (⟨[], w.mapper⟩ : Draft).drop b else ⟨[], w.mapper⟩) = ⟨[], w.mapper⟩ :=
      fun b => if_neg (by simp [hl])
    have haxes : ∀ a, w.mapper.restAxis ⟨[], w.mapper⟩ a = ⟨[], w.mapper⟩ := by
      intro a
      have hr : w.mapper.relative.get a = 0 := Table.get_fill _ _
      unfold Mapper.restAxis
      split <;> simp [hl, hr]
    rw [Mapper.draft, List.foldl_fixed' hbuttons Button.all, List.foldl_fixed' haxes Axis.all]

theorem follow_mapper (w : Wiring) (job : Job) (h : job.message = .neutral) (b : Backend)
    (m : Multiplexer) : follow b (w.mapper.plan job) w.mapper m = (w.mapper, m, .ok ()) := by
  have hafter : w.mapper.after job = w.mapper := by
    rw [Mapper.after, draft_mapper w h, h]
    rfl
  rw [plan_eq, draft_mapper w h, hafter]
  rfl

end Mapper

end PadRemap
