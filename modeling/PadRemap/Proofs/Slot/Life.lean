import Mathlib.Data.List.Basic
import PadRemap.Slot.Slot

/-! The life of a slot. Between two operations a slot is unbound or has both a device and a worker;
no operation but binding gives it another device. A turn of a worker drives its source on or
releases it once. -/

namespace PadRemap

namespace Rig

def released (r : Rig) (n : Nat) : Nat :=
  r.sightings.countP fun x => x.1.serial = n ∧ x.2 = .released

theorem released_notice_command (r : Rig) (s : Source) (c : Command) (n : Nat) :
    (r.notice s (.command c)).released n = r.released n := by
  simp [released, notice]

theorem released_notice_released (r : Rig) (s : Source) (n : Nat) :
    (r.notice s .released).released n = r.released n + if s.serial = n then 1 else 0 := by
  simp [released, notice, List.countP_singleton]

end Rig

def Worker.runs (n : Nat) : Worker → Nat
  | running s => if s.source.serial = n then 1 else 0
  | ended _ => 0

namespace Session

theorem released_deliver (s : Session) (r : Rig) (n : Nat) :
    (s.deliver r).2.released n = r.released n := by
  unfold deliver
  simp only
  induction s.commands generalizing r with
  | nil => rfl
  | cons c cs ih =>
    rw [List.foldl_cons, ih, Rig.released_notice_command]

theorem close_accounts (b : Backend) (s : Session) (r : Rig) (n : Nat) :
    (s.close b r).2.released n + (s.close b r).1.runs n =
      r.released n + if s.source.serial = n then 1 else 0 := by
  unfold close
  simp only
  rw [Rig.released_notice_released]
  rfl

theorem process_accounts (b : Backend) (s : Session) (ms : Nat) (r : Rig) (n : Nat) :
    (s.process b ms r).2.released n + (s.process b ms r).1.runs n =
      r.released n + if s.source.serial = n then 1 else 0 := by
  unfold process
  split
  · rfl
  · exact close_accounts b _ _ n

/-- In one turn the source is driven on, or released once. -/
theorem turn_accounts (b : Backend) (reading : Reading) (ms : Nat) (s : Session) (r : Rig)
    (n : Nat) :
    (s.turn b reading ms r).2.released n + (s.turn b reading ms r).1.runs n =
      r.released n + if s.source.serial = n then 1 else 0 := by
  have hd := released_deliver s r n
  have hs : (s.deliver r).1.source = s.source := rfl
  unfold turn
  simp only
  split
  · rw [close_accounts, hd, hs]
  · split
    · rw [process_accounts, hd, hs]
    · rw [process_accounts, hd, hs]
    · rw [close_accounts, hd, hs]
    · rw [Rig.released_notice_released, hd, hs]
      rfl

theorem turn_of_stopAsked (b : Backend) (reading : Reading) (ms : Nat) {s : Session}
    (h : s.stopAsked = true) (r : Rig) : ∃ p, (s.turn b reading ms r).1 = .ended p := by
  unfold turn
  simp only
  rw [if_pos (show (s.deliver r).1.stopAsked = true from h)]
  exact ⟨_, rfl⟩

end Session

theorem Worker.turn_accounts (b : Backend) (reading : Reading) (ms : Nat) (w : Worker) (r : Rig)
    (n : Nat) :
    (w.turn b reading ms r).2.released n + (w.turn b reading ms r).1.runs n =
      r.released n + w.runs n := by
  cases w with
  | running s => exact s.turn_accounts b reading ms r n
  | ended p => rfl

namespace Slot

def runs (n : Nat) (s : Slot) : Nat := (s.worker.map (Worker.runs n)).getD 0

structure Sound (s : Slot) : Prop where
  pipeline : ∃ p, Pipeline.ofConfig s.config = .ok p
  settled : s.state ≠ .connecting
  identity : s.state = .unbound ↔ s.identity = none
  worker : s.state = .unbound ↔ s.worker = none
  accepted : ∀ d, s.identity = some d → s.accepts d = true

def boundTo (s : Slot) (d : Identity) (source : Source) (p : Pipeline) : Slot :=
  { s with
    identity := some d
    state := .connected
    pipeline := none
    worker := some (.running { source, pipeline := p, commands := [.led s.led] }) }

theorem takePipeline_ok {s : Slot} (h : ∃ p, Pipeline.ofConfig s.config = .ok p) :
    ∃ p, s.takePipeline = .ok p := by
  obtain ⟨p, hp⟩ := h
  unfold takePipeline
  cases s.pipeline with
  | some q => exact ⟨q, rfl⟩
  | none => exact ⟨p, by simp [hp, Except.mapError]⟩

/-- What becomes of a slot to which no device is bound anew. -/
structure Follows (s s' : Slot) : Prop where
  sound : s'.Sound
  id : s'.id = s.id
  config : s'.config = s.config
  identity : s'.identity = s.identity ∨ s'.identity = none

theorem Follows.trans {s t u : Slot} (h : s.Follows t) (k : t.Follows u) : s.Follows u where
  sound := k.sound
  id := k.id.trans h.id
  config := k.config.trans h.config
  identity := by
    rcases k.identity with hk | hk
    · rw [hk]
      exact h.identity
    · exact Or.inr hk

theorem Follows.identity_eq_some {s t : Slot} (h : s.Follows t) {d : Identity}
    (hd : t.identity = some d) : s.identity = some d := by
  rcases h.identity with hi | hi
  · rw [← hi, hd]
  · rw [hi] at hd
    cases hd

namespace Sound

variable {s : Slot}

theorem refl (h : s.Sound) : s.Follows s := ⟨h, rfl, rfl, Or.inl rfl⟩

theorem abort (h : s.Sound) : s.abort = s := by
  unfold Slot.abort
  rw [if_neg fun hc => h.settled hc.1]

theorem withWorker (h : s.Sound) {w : Worker} (hw : s.worker = some w) (w' : Worker) :
    s.Follows { s with worker := some w' } := by
  have hb : s.state ≠ .unbound := by
    intro hu
    rw [h.worker.mp hu] at hw
    cases hw
  refine ⟨⟨h.pipeline, h.settled, h.identity, ?_, h.accepted⟩, rfl, rfl, Or.inl rfl⟩
  constructor
  · intro hu
    exact (hb hu).elim
  · intro hn
    cases hn

theorem tryDisconnect (h : s.Sound) : s.Follows s.tryDisconnect.1 := by
  unfold Slot.tryDisconnect
  cases hw : s.worker with
  | none =>
    simp only
    rw [h.abort]
    exact h.refl
  | some w =>
    have hb : s.identity ≠ none := by
      intro hi
      rw [h.worker.mp (h.identity.mpr hi)] at hw
      cases hw
    refine ⟨⟨h.pipeline, by simp, ?_, by simp, h.accepted⟩, rfl, rfl, Or.inl rfl⟩
    constructor
    · intro hu
      cases hu
    · intro hi
      exact (hb hi).elim

theorem reap (h : s.Sound) {left : Option Pipeline} (hw : s.worker = some (.ended left)) :
    s.Follows s.reap ∧ s.reap.state = .unbound ∧ s.reap.worker = none := by
  unfold Slot.reap
  rw [hw]
  refine ⟨⟨⟨h.pipeline, by simp, by simp, by simp, ?_⟩, rfl, rfl, Or.inr rfl⟩, rfl, rfl⟩
  intro d hd
  cases hd

theorem poll (h : s.Sound) : s.Follows s.poll.1 := by
  unfold Slot.poll
  split
  · next left hw => exact (h.reap hw).1
  · exact h.refl

theorem command (h : s.Sound) (c : Command) : s.Follows (s.command c).1 := by
  unfold Slot.command
  split
  · next session hw => exact h.withWorker hw _
  · exact h.refl

theorem setLed (h : s.Sound) (status : UInt8) : s.Follows (s.setLed status).1 := by
  have hled : ({ s with led := status } : Slot).Sound :=
    ⟨h.pipeline, h.settled, h.identity, h.worker, h.accepted⟩
  have hf : s.Follows { s with led := status } := ⟨hled, rfl, rfl, Or.inl rfl⟩
  unfold Slot.setLed
  simp only
  split
  · exact hf.trans (hled.command (.led status))
  · exact hf

theorem work (h : s.Sound) (b : Backend) (reading : Reading) (ms : Nat) (r : Rig) :
    s.Follows (s.work b reading ms r).1 := by
  unfold Slot.work
  cases hw : s.worker with
  | none => exact h.refl
  | some w => exact h.withWorker hw _

theorem disconnect (h : s.Sound) (b : Backend) (r : Rig) :
    s.Follows (s.disconnect b r).1 ∧ (s.disconnect b r).1.state = .unbound ∧
      (s.disconnect b r).1.worker = none := by
  have ht := h.tryDisconnect
  unfold Slot.disconnect
  unfold Slot.tryDisconnect at ht ⊢
  cases hw : s.worker with
  | none =>
    simp only [hw] at ht ⊢
    refine ⟨ht, ?_⟩
    rw [h.abort]
    exact ⟨h.worker.mpr hw, hw⟩
  | some w =>
    simp only [hw] at ht ⊢
    have hend : ∃ left, (w.askToStop.turn b .idle 0 r).1 = .ended left := by
      cases w with
      | running session => exact Session.turn_of_stopAsked b .idle 0 rfl r
      | ended p => exact ⟨p, rfl⟩
    obtain ⟨left, hend⟩ := hend
    have hwork := ht.sound.work b .idle 0 r
    have hleft : (Slot.work b .idle 0
        { s with worker := some w.askToStop, state := .disconnecting } r).1.worker =
          some (.ended left) := by
      simp only [Slot.work]
      rw [hend]
    obtain ⟨hreap, hu, hn⟩ := hwork.sound.reap hleft
    exact ⟨(ht.trans hwork).trans hreap, hu, hn⟩

theorem new {id : Nat} {c : SlotConfig} (hs : Slot.new id c = .ok s) :
    s.Sound ∧ s.id = id ∧ s.config = c ∧ s.identity = none ∧ s.worker = none := by
  unfold Slot.new at hs
  cases hp : Pipeline.ofConfig c with
  | error e =>
    rw [hp] at hs
    cases hs
  | ok p =>
    rw [hp] at hs
    cases hs
    exact ⟨⟨⟨p, hp⟩, by simp, by simp, by simp, by simp⟩, rfl, rfl, rfl, rfl⟩

theorem abort_reserve (h : s.Sound) (hu : s.state = .unbound) (d : Identity) :
    (s.reserve d).1.abort = s := by
  have hn : s.worker = none := h.worker.mp hu
  have hd : s.identity = none := h.identity.mp hu
  simp only [Slot.reserve, if_pos hu, Slot.abort, hn, Option.isNone_none, and_self, if_true]
  rw [← hn, ← hd, ← hu]

theorem start_reserve (h : s.Sound) (hu : s.state = .unbound) (d : Identity) (source : Source)
    (r : Rig) : ∃ p, (s.reserve d).1.start source r = (s.boundTo d source p, r, .ok ()) := by
  have hconfig : (s.reserve d).1.config = s.config := by
    simp only [Slot.reserve, if_pos hu]
  obtain ⟨p, hp⟩ := takePipeline_ok (s := (s.reserve d).1) (by rw [hconfig]; exact h.pipeline)
  refine ⟨p, ?_⟩
  unfold Slot.start
  rw [hp]
  simp [Slot.reserve, hu, Slot.boundTo]

theorem boundTo (h : s.Sound) {d : Identity} (hd : s.accepts d = true) (source : Source)
    (p : Pipeline) : (s.boundTo d source p).Sound where
  pipeline := h.pipeline
  settled := by simp [Slot.boundTo]
  identity := by simp [Slot.boundTo]
  worker := by simp [Slot.boundTo]
  accepted := by
    intro e he
    cases he
    exact hd

end Sound

theorem runs_boundTo (n : Nat) (s : Slot) (d : Identity) (source : Source) (p : Pipeline) :
    (s.boundTo d source p).runs n = if source.serial = n then 1 else 0 := rfl

theorem runs_tryDisconnect (n : Nat) (s : Slot) : s.tryDisconnect.1.runs n = s.runs n := by
  unfold Slot.tryDisconnect
  cases hw : s.worker with
  | none =>
    simp only [runs, Slot.abort]
    split <;> simp [hw]
  | some w => cases w <;> simp [runs, hw, Worker.askToStop, Worker.runs]

theorem runs_reap (n : Nat) (s : Slot) : s.reap.runs n = s.runs n := by
  unfold Slot.reap
  split
  · next left hw => simp [runs, hw, Worker.runs]
  · rfl

theorem runs_poll (n : Nat) (s : Slot) : s.poll.1.runs n = s.runs n := by
  unfold Slot.poll
  split
  · exact runs_reap n s
  · rfl

theorem runs_command (n : Nat) (s : Slot) (c : Command) : (s.command c).1.runs n = s.runs n := by
  unfold Slot.command
  split
  · next session hw => simp [runs, hw, Worker.runs]
  · rfl

theorem runs_setLed (n : Nat) (s : Slot) (status : UInt8) :
    (s.setLed status).1.runs n = s.runs n := by
  unfold Slot.setLed
  simp only
  split
  · exact runs_command n { s with led := status } (.led status)
  · rfl

theorem work_accounts (b : Backend) (reading : Reading) (ms : Nat) (s : Slot) (r : Rig) (n : Nat) :
    (s.work b reading ms r).2.released n + (s.work b reading ms r).1.runs n =
      r.released n + s.runs n := by
  unfold Slot.work
  cases hw : s.worker with
  | none => rfl
  | some w => simpa [runs, hw] using w.turn_accounts b reading ms r n

theorem disconnect_accounts (b : Backend) (s : Slot) (r : Rig) (n : Nat) :
    (s.disconnect b r).2.released n + (s.disconnect b r).1.runs n =
      r.released n + s.runs n := by
  have ht := runs_tryDisconnect n s
  unfold Slot.disconnect
  split
  · next s' he =>
    rw [he] at ht
    exact congrArg (r.released n + ·) ht
  · next s' he =>
    rw [he] at ht
    simp only
    rw [runs_reap, work_accounts, ← ht]

end Slot

end PadRemap
