import PadRemap.Proofs.Slot.Life

/-! Where a slot is in its life, for calls in any order and workers that die at any moment, and
which commands its source is given: all that wait, in their order, unless the worker dies. -/

namespace PadRemap

namespace Rig

def commands (r : Rig) (n : Nat) : List Command :=
  r.sightings.filterMap fun x =>
    match x.2 with
    | .command c => if x.1.serial = n then some c else none
    | .released => none

theorem commands_notice_command (r : Rig) (s : Source) (c : Command) (n : Nat) :
    (r.notice s (.command c)).commands n = r.commands n ++ if s.serial = n then [c] else [] := by
  simp only [commands, notice, List.filterMap_append]
  split
  · next h => simp [h]
  · next h => simp [h]

theorem commands_notice_released (r : Rig) (s : Source) (n : Nat) :
    (r.notice s .released).commands n = r.commands n := by
  simp [commands, notice]

end Rig

namespace Session

/-- The worker dies while it hands over its commands, of which the source still gets some. -/
def crash (given : Nat) (s : Session) (r : Rig) : Worker × Rig :=
  let (s, r) := ({ s with commands := s.commands.take given } : Session).deliver r
  (.ended none, r.notice s.source .released)

theorem commands_deliver (s : Session) (r : Rig) (n : Nat) :
    (s.deliver r).2.commands n =
      r.commands n ++ if s.source.serial = n then s.commands else [] := by
  unfold deliver
  simp only
  induction s.commands generalizing r with
  | nil => simp
  | cons c cs ih =>
    rw [List.foldl_cons, ih, Rig.commands_notice_command, List.append_assoc]
    split <;> rfl

theorem crash_accounts (given : Nat) (s : Session) (r : Rig) (n : Nat) :
    (s.crash given r).2.released n + (s.crash given r).1.runs n =
      r.released n + if s.source.serial = n then 1 else 0 := by
  unfold crash
  simp only
  rw [Rig.released_notice_released, released_deliver]
  rfl

theorem commands_crash (given : Nat) (s : Session) (r : Rig) (n : Nat) :
    (s.crash given r).2.commands n =
      r.commands n ++ if s.source.serial = n then s.commands.take given else [] := by
  unfold crash
  simp only
  rw [Rig.commands_notice_released, commands_deliver]

end Session

namespace Worker

def crash (given : Nat) (w : Worker) (r : Rig) : Worker × Rig :=
  match w with
  | running s => s.crash given r
  | ended p => (ended p, r)

def waiting (n : Nat) : Worker → List Command
  | running s => if s.source.serial = n then s.commands else []
  | ended _ => []

end Worker

namespace Session

theorem commands_close (b : Backend) (s : Session) (r : Rig) (n : Nat) :
    (s.close b r).2.commands n = r.commands n ∧ (s.close b r).1.waiting n = [] := by
  unfold close
  simp only
  exact ⟨Rig.commands_notice_released _ _ n, rfl⟩

theorem commands_process (b : Backend) {s : Session} (hs : s.commands = []) (ms : Nat) (r : Rig)
    (n : Nat) :
    (s.process b ms r).2.commands n = r.commands n ∧ (s.process b ms r).1.waiting n = [] := by
  unfold process
  split
  · refine ⟨rfl, ?_⟩
    simp [Worker.waiting, hs]
  · exact commands_close b _ _ n

/-- In one turn the source is given all commands that wait for it, and no others. -/
theorem commands_turn (b : Backend) (reading : Reading) (ms : Nat) (s : Session) (r : Rig)
    (n : Nat) :
    (s.turn b reading ms r).2.commands n =
        r.commands n ++ (Worker.running s).waiting n ∧
      (s.turn b reading ms r).1.waiting n = [] := by
  have hd := commands_deliver s r n
  unfold turn Worker.waiting
  simp only
  rw [← hd]
  split
  · exact commands_close b _ _ n
  · split
    · exact commands_process b rfl ms _ n
    · exact commands_process b rfl ms _ n
    · exact commands_close b _ _ n
    · exact ⟨Rig.commands_notice_released _ _ n, rfl⟩

theorem runs_process_le (b : Backend) (s : Session) (ms : Nat) (r : Rig) (n : Nat) :
    (s.process b ms r).1.runs n ≤ (Worker.running s).runs n := by
  unfold process
  split
  · exact Nat.le_refl _
  · exact Nat.zero_le _

theorem runs_turn_le (b : Backend) (reading : Reading) (ms : Nat) (s : Session) (r : Rig)
    (n : Nat) : (s.turn b reading ms r).1.runs n ≤ (Worker.running s).runs n := by
  unfold turn
  simp only
  split
  · exact Nat.zero_le _
  · split
    · exact runs_process_le b _ ms _ n
    · exact runs_process_le b _ ms _ n
    · exact Nat.zero_le _
    · exact Nat.zero_le _

end Session

namespace Worker

theorem commands_turn (b : Backend) (reading : Reading) (ms : Nat) (w : Worker) (r : Rig)
    (n : Nat) :
    (w.turn b reading ms r).2.commands n = r.commands n ++ w.waiting n ∧
      (w.turn b reading ms r).1.waiting n = [] := by
  cases w with
  | running s => exact s.commands_turn b reading ms r n
  | ended p => exact ⟨(List.append_nil _).symm, rfl⟩

theorem runs_turn_le (b : Backend) (reading : Reading) (ms : Nat) (w : Worker) (r : Rig)
    (n : Nat) : (w.turn b reading ms r).1.runs n ≤ w.runs n := by
  cases w with
  | running s => exact s.runs_turn_le b reading ms r n
  | ended p => exact Nat.le_refl _

theorem crash_accounts (given : Nat) (w : Worker) (r : Rig) (n : Nat) :
    (w.crash given r).2.released n + (w.crash given r).1.runs n = r.released n + w.runs n := by
  cases w with
  | running s => exact s.crash_accounts given r n
  | ended p => rfl

theorem crash_ends (given : Nat) (w : Worker) (r : Rig) (n : Nat) :
    (w.crash given r).1.runs n = 0 ∧ (w.crash given r).1.waiting n = [] := by
  cases w with
  | running s => exact ⟨rfl, rfl⟩
  | ended p => exact ⟨rfl, rfl⟩

theorem commands_crash (given : Nat) (w : Worker) (r : Rig) (n : Nat) :
    (w.crash given r).2.commands n = r.commands n ++ (w.waiting n).take given := by
  cases w with
  | running s =>
    simp only [crash, waiting, Session.commands_crash]
    split
    · rfl
    · rw [List.take_nil]
  | ended p => simp [crash, waiting]

theorem waiting_of_runs {n : Nat} {w : Worker} (h : w.runs n = 0) : w.waiting n = [] := by
  cases w with
  | running s =>
    by_cases hs : s.source.serial = n
    · simp [runs, hs] at h
    · simp [waiting, hs]
  | ended p => rfl

end Worker

namespace Slot

def crash (given : Nat) (s : Slot) (r : Rig) : Slot × Rig :=
  match s.worker with
  | none => (s, r)
  | some w =>
    let (w, r) := w.crash given r
    ({ s with worker := some w }, r)

def waiting (n : Nat) (s : Slot) : List Command := (s.worker.map (Worker.waiting n)).getD []

/-- Where a slot is in its life. -/
inductive Phase (s : Slot) : Prop where
  | free (state : s.state = .unbound) (identity : s.identity = none) (worker : s.worker = none)
      (pipeline : s.pipeline ≠ none)
  | reserved (d : Identity) (state : s.state = .connecting) (identity : s.identity = some d)
      (worker : s.worker = none) (pipeline : s.pipeline ≠ none)
  | working (d : Identity) (w : Worker) (state : s.state = .connected ∨ s.state = .disconnecting)
      (identity : s.identity = some d) (worker : s.worker = some w)

structure Orderly (s : Slot) : Prop where
  pipeline : ∃ p, Pipeline.ofConfig s.config = .ok p
  phase : s.Phase

namespace Orderly

variable {s : Slot}

theorem unbound_iff (h : s.Orderly) :
    s.state = .unbound ↔ s.identity = none ∧ s.worker = none := by
  rcases h.phase with ⟨hs, hi, hw, -⟩ | ⟨d, hs, hi, hw, -⟩ | ⟨d, w, hs | hs, hi, hw⟩ <;>
    simp [hs, hi, hw]

theorem connecting_iff (h : s.Orderly) :
    s.state = .connecting ↔ s.identity ≠ none ∧ s.worker = none := by
  rcases h.phase with ⟨hs, hi, hw, -⟩ | ⟨d, hs, hi, hw, -⟩ | ⟨d, w, hs | hs, hi, hw⟩ <;>
    simp [hs, hi, hw]

theorem working_iff (h : s.Orderly) : s.state = .connected ∨ s.state = .disconnecting ↔
    s.identity ≠ none ∧ s.worker ≠ none := by
  rcases h.phase with ⟨hs, hi, hw, -⟩ | ⟨d, hs, hi, hw, -⟩ | ⟨d, w, hs | hs, hi, hw⟩ <;>
    simp [hs, hi, hw]

theorem pipeline_of_idle (h : s.Orderly) (hn : s.worker = none) : s.pipeline ≠ none := by
  rcases h.phase with ⟨-, -, -, hp⟩ | ⟨d, -, -, -, hp⟩ | ⟨d, w, -, -, hw⟩
  · exact hp
  · exact hp
  · rw [hn] at hw
    cases hw

theorem of_worker (h : s.Orderly) {w : Worker} (hw : s.worker = some w) :
    ∃ d, s.identity = some d ∧ (s.state = .connected ∨ s.state = .disconnecting) := by
  rcases h.phase with ⟨-, -, hn, -⟩ | ⟨d, -, -, hn, -⟩ | ⟨d, -, hs, hi, -⟩
  · rw [hw] at hn
    cases hn
  · rw [hw] at hn
    cases hn
  · exact ⟨d, hi, hs⟩

theorem withWorker (h : s.Orderly) {w : Worker} (hw : s.worker = some w) (w' : Worker) :
    ({ s with worker := some w' } : Slot).Orderly := by
  obtain ⟨d, hi, hs⟩ := h.of_worker hw
  exact ⟨h.pipeline, .working d w' hs hi rfl⟩

theorem reserve (h : s.Orderly) (d : Identity) : (s.reserve d).1.Orderly := by
  unfold Slot.reserve
  split
  · next hu =>
    have hn : s.worker = none := (h.unbound_iff.mp hu).2
    exact ⟨h.pipeline, .reserved d rfl rfl hn (h.pipeline_of_idle hn)⟩
  · exact h

theorem abort (h : s.Orderly) : s.abort.Orderly := by
  unfold Slot.abort
  split
  · next hc =>
    have hn : s.worker = none := Option.isNone_iff_eq_none.mp hc.2
    exact ⟨h.pipeline, .free rfl rfl hn (h.pipeline_of_idle hn)⟩
  · exact h

theorem start_cases (h : s.Orderly) (source : Source) (r : Rig) :
    (∃ d p, s.identity = some d ∧ s.state = .connecting ∧ s.worker = none ∧
      s.start source r = (s.boundTo d source p, r, .ok ())) ∨
    (s.state ≠ .connecting ∧ s.start source r =
      (s, r.notice source .released, .error (.wrongState s.id s.state .connecting))) := by
  unfold Slot.start
  by_cases hc : s.state = .connecting
  · left
    obtain ⟨hi, hn⟩ := h.connecting_iff.mp hc
    obtain ⟨d, hd⟩ := Option.ne_none_iff_exists'.mp hi
    obtain ⟨p, hp⟩ := takePipeline_ok h.pipeline
    refine ⟨d, p, hd, hc, hn, ?_⟩
    rw [if_neg (not_not.mpr hc), hp]
    simp [Slot.boundTo, hd]
  · right
    exact ⟨hc, if_pos hc⟩

theorem start (h : s.Orderly) (source : Source) (r : Rig) : (s.start source r).1.Orderly := by
  rcases h.start_cases source r with ⟨d, p, -, -, -, he⟩ | ⟨-, he⟩
  · rw [he]
    exact ⟨h.pipeline, .working d _ (Or.inl rfl) rfl rfl⟩
  · rw [he]
    exact h

theorem tryDisconnect (h : s.Orderly) : s.tryDisconnect.1.Orderly := by
  unfold Slot.tryDisconnect
  split
  · next w hw =>
    obtain ⟨d, hi, -⟩ := h.of_worker hw
    exact ⟨h.pipeline, .working d _ (Or.inr rfl) hi rfl⟩
  · exact h.abort

/-- A lost pipeline is built anew, which succeeds as it did for the first one. -/
theorem reap (h : s.Orderly) : s.reap.Orderly := by
  unfold Slot.reap
  split
  · next left hw =>
    refine ⟨h.pipeline, .free rfl rfl rfl ?_⟩
    cases left with
    | some p => simp
    | none =>
      obtain ⟨p, hp⟩ := h.pipeline
      simp [hp, Except.toOption]
  · exact h

theorem poll (h : s.Orderly) : s.poll.1.Orderly := by
  unfold Slot.poll
  split
  · exact h.reap
  · exact h

theorem work (h : s.Orderly) (b : Backend) (reading : Reading) (ms : Nat) (r : Rig) :
    (s.work b reading ms r).1.Orderly := by
  unfold Slot.work
  split
  · exact h
  · next w hw => exact h.withWorker hw _

theorem disconnect (h : s.Orderly) (b : Backend) (r : Rig) : (s.disconnect b r).1.Orderly := by
  have ht := h.tryDisconnect
  unfold Slot.disconnect
  split
  · next s' he =>
    rw [he] at ht
    exact ht
  · next s' he =>
    rw [he] at ht
    exact (ht.work b .idle 0 r).reap

theorem command (h : s.Orderly) (c : Command) : (s.command c).1.Orderly := by
  unfold Slot.command
  split
  · next session hw => exact h.withWorker hw _
  · exact h

theorem setLed (h : s.Orderly) (status : UInt8) : (s.setLed status).1.Orderly := by
  have hled : ({ s with led := status } : Slot).Orderly := by
    refine ⟨h.pipeline, ?_⟩
    rcases h.phase with ⟨hs, hi, hw, hp⟩ | ⟨d, hs, hi, hw, hp⟩ | ⟨d, w, hs, hi, hw⟩
    · exact .free hs hi hw hp
    · exact .reserved d hs hi hw hp
    · exact .working d w hs hi hw
  unfold Slot.setLed
  simp only
  split
  · exact hled.command (.led status)
  · exact hled

theorem crash (h : s.Orderly) (given : Nat) (r : Rig) : (s.crash given r).1.Orderly := by
  unfold Slot.crash
  split
  · exact h
  · next w hw => exact h.withWorker hw _

theorem new {id : Nat} {c : SlotConfig} (hs : Slot.new id c = .ok s) : s.Orderly := by
  unfold Slot.new at hs
  split at hs
  · cases hs
  · next p hp =>
    cases hs
    exact ⟨⟨p, hp⟩, .free rfl rfl rfl (by simp)⟩

end Orderly

theorem waiting_of_idle (n : Nat) {s : Slot} (h : s.worker = none) : s.waiting n = [] := by
  simp [waiting, h]

theorem waiting_of_runs {n : Nat} {s : Slot} (h : s.runs n = 0) : s.waiting n = [] := by
  unfold waiting
  unfold runs at h
  cases hw : s.worker with
  | none => rfl
  | some w =>
    rw [hw] at h
    exact Worker.waiting_of_runs h

theorem waiting_tryDisconnect (n : Nat) (s : Slot) :
    s.tryDisconnect.1.waiting n = s.waiting n := by
  unfold Slot.tryDisconnect
  cases hw : s.worker with
  | none =>
    simp only [waiting, Slot.abort]
    split <;> simp [hw]
  | some w => cases w <;> simp [waiting, hw, Worker.askToStop, Worker.waiting]

theorem waiting_reap (n : Nat) (s : Slot) : s.reap.waiting n = s.waiting n := by
  unfold Slot.reap
  split
  · next left hw => simp [waiting, hw, Worker.waiting]
  · rfl

theorem waiting_poll (n : Nat) (s : Slot) : s.poll.1.waiting n = s.waiting n := by
  unfold Slot.poll
  split
  · exact waiting_reap n s
  · rfl

theorem waiting_command (n : Nat) (s : Slot) (c : Command) : ∃ more,
    (s.command c).1.waiting n = s.waiting n ++ more ∧ (s.runs n = 0 → more = []) := by
  unfold Slot.command
  split
  · next session hw =>
    by_cases hs : session.source.serial = n
    · refine ⟨[c], by simp [waiting, hw, Worker.waiting, hs], ?_⟩
      intro hr
      simp [runs, hw, Worker.runs, hs] at hr
    · exact ⟨[], by simp [waiting, hw, Worker.waiting, hs], fun _ => rfl⟩
  · exact ⟨[], (List.append_nil _).symm, fun _ => rfl⟩

theorem waiting_setLed (n : Nat) (s : Slot) (status : UInt8) : ∃ more,
    (s.setLed status).1.waiting n = s.waiting n ++ more ∧ (s.runs n = 0 → more = []) := by
  unfold Slot.setLed
  simp only
  split
  · exact waiting_command n { s with led := status } (.led status)
  · exact ⟨[], (List.append_nil _).symm, fun _ => rfl⟩

theorem commands_work (b : Backend) (reading : Reading) (ms : Nat) (s : Slot) (r : Rig)
    (n : Nat) :
    (s.work b reading ms r).2.commands n = r.commands n ++ s.waiting n ∧
      (s.work b reading ms r).1.waiting n = [] := by
  unfold Slot.work
  cases hw : s.worker with
  | none =>
    simp [waiting_of_idle n hw]
  | some w => simpa [waiting, hw] using w.commands_turn b reading ms r n

theorem runs_work_le (b : Backend) (reading : Reading) (ms : Nat) (s : Slot) (r : Rig) (n : Nat) :
    (s.work b reading ms r).1.runs n ≤ s.runs n := by
  unfold Slot.work
  cases hw : s.worker with
  | none => exact Nat.le_refl _
  | some w => simpa [runs, hw] using w.runs_turn_le b reading ms r n

theorem commands_disconnect (b : Backend) (s : Slot) (r : Rig) (n : Nat) :
    (s.disconnect b r).2.commands n ++ (s.disconnect b r).1.waiting n =
      r.commands n ++ s.waiting n := by
  have ht := waiting_tryDisconnect n s
  unfold Slot.disconnect
  split
  · next s' he =>
    rw [he] at ht
    exact congrArg (r.commands n ++ ·) ht
  · next s' he =>
    rw [he] at ht
    obtain ⟨hc, hw⟩ := commands_work b .idle 0 s' r n
    simp only
    rw [waiting_reap, hc, hw, List.append_nil, ht]

theorem runs_disconnect_le (b : Backend) (s : Slot) (r : Rig) (n : Nat) :
    (s.disconnect b r).1.runs n ≤ s.runs n := by
  have ht := runs_tryDisconnect n s
  unfold Slot.disconnect
  split
  · next s' he =>
    rw [he] at ht
    exact Nat.le_of_eq ht
  · next s' he =>
    rw [he] at ht
    simp only
    rw [runs_reap, ← ht]
    exact runs_work_le b .idle 0 s' r n

theorem worker_reserve (s : Slot) (d : Identity) : (s.reserve d).1.worker = s.worker := by
  unfold Slot.reserve
  split <;> rfl

theorem worker_abort (s : Slot) : s.abort.worker = s.worker := by
  unfold Slot.abort
  split <;> rfl

theorem runs_congr (n : Nat) {s t : Slot} (h : s.worker = t.worker) : s.runs n = t.runs n := by
  rw [runs, h, runs]

theorem waiting_congr (n : Nat) {s t : Slot} (h : s.worker = t.worker) :
    s.waiting n = t.waiting n := by
  rw [waiting, h, waiting]

theorem crash_accounts (given : Nat) (s : Slot) (r : Rig) (n : Nat) :
    (s.crash given r).2.released n + (s.crash given r).1.runs n = r.released n + s.runs n := by
  unfold Slot.crash
  cases hw : s.worker with
  | none => rfl
  | some w => simpa [runs, hw] using w.crash_accounts given r n

theorem crash_ends (given : Nat) (s : Slot) (r : Rig) (n : Nat) :
    (s.crash given r).1.runs n = 0 ∧ (s.crash given r).1.waiting n = [] := by
  unfold Slot.crash
  cases hw : s.worker with
  | none =>
    simp [runs, waiting, hw]
  | some w => simpa [runs, waiting] using w.crash_ends given r n

theorem commands_crash (given : Nat) (s : Slot) (r : Rig) (n : Nat) :
    (s.crash given r).2.commands n = r.commands n ++ (s.waiting n).take given := by
  unfold Slot.crash
  cases hw : s.worker with
  | none => simp [waiting, hw]
  | some w => simpa [waiting, hw] using w.commands_crash given r n

end Slot

end PadRemap
