import PadRemap.Proofs.Output.Reaction

/-! Calls that a multiplexer rejects. Whether it does depends on the call and on the devices that
are active, never on the backend. A rejected call leaves everything as it was, and the passing of
time is never rejected: a timer belongs to an active device as long as it runs. -/

namespace PadRemap

namespace Multiplexer

variable {m : Multiplexer}

instance (m : Multiplexer) (d : DeviceId) : Decidable (m.IsActive d) :=
  match h : m.devices[d]? with
  | some (.active b q) => isTrue ⟨b, q, h⟩
  | some (.declared _) => isFalse fun ⟨_, _, ha⟩ => nomatch h.symm.trans ha
  | none => isFalse fun ⟨_, _, ha⟩ => nomatch h.symm.trans ha

def closed (m : Multiplexer) (d : DeviceId) : Option OutputError :=
  if m.finished = false then some .notActive
  else if m.IsActive d then none
  else some (.unknownDevice d)

/-- Why a call is rejected, if it is. Of several devices that take no events the first one in
order is named. -/
def objection (m : Multiplexer) : Call → Option OutputError
  | .addKey d _ | .addRel d _ | .addAbs d _ _ =>
    if m.finished = true ∨ m.IsActive d then some .alreadyActive else none
  | .finish => if m.finished = true then some .alreadyActive else none
  | .send d _ => m.closed d
  | .frame es => (touched es).findSome? m.closed
  | .setRepeat d _ _ interval => if interval < 0 then none else m.closed d
  | .update _ => none
  | .sync => if m.finished = true then none else some .notActive

theorem closed_eq_none {d : DeviceId} : m.closed d = none ↔ m.Accepts d := by
  unfold closed Accepts
  cases m.finished <;> by_cases hd : m.IsActive d <;> simp [hd]

theorem queue_of_closed {d : DeviceId} {e : OutputError} (h : m.closed d = some e) :
    m.queue d = .error e := by
  have hd : ¬m.Accepts d := fun ha => nomatch h.symm.trans (closed_eq_none.mpr ha)
  rw [queue_of_not_accepts hd]
  unfold closed at h
  cases hf : m.finished with
  | false =>
    rw [if_pos hf] at h
    simpa using h
  | true =>
    rw [if_neg (by simp [hf]), if_neg fun ha => hd ⟨hf, ha⟩] at h
    simpa using h

theorem checkAll_of_closed {ds : List DeviceId} {e : OutputError}
    (h : ds.findSome? m.closed = some e) : m.checkAll ds = .error e := by
  induction ds with
  | nil => cases h
  | cons d ds ih =>
    rw [List.findSome?_cons] at h
    rw [checkAll]
    cases hd : m.closed d with
    | some x =>
      rw [hd] at h
      cases h
      rw [queue_of_closed hd]
    | none =>
      rw [hd] at h
      have ha := closed_eq_none.mp hd
      rw [queue_eq ha.2 ha.1]
      exact ih h

theorem declare_of_closed {d : DeviceId} (h : m.finished = true ∨ m.IsActive d)
    (grow : Blueprint → Blueprint) : m.declare d grow = (m, .error .alreadyActive) := by
  unfold declare
  split
  · rfl
  · next hf =>
    obtain ⟨p, q, hd⟩ := h.resolve_left hf
    rw [hd]

theorem declare_of_open {d : DeviceId} (h : ¬(m.finished = true ∨ m.IsActive d))
    (grow : Blueprint → Blueprint) : (m.declare d grow).2 = .ok () := by
  obtain ⟨hf, hd⟩ := not_or.mp h
  unfold declare
  rw [if_neg hf]
  split
  · next p q hp => exact (hd ⟨p, q, hp⟩).elim
  · rfl
  · rfl

theorem activate_error {b : Backend} {ids : List DeviceId} {e : OutputError}
    (h : (activate b ids m).2 = .error e) : e.isRefusal = true := by
  induction ids generalizing m with
  | nil => cases h
  | cons d ids ih =>
    unfold activate at h
    split at h
    · split at h
      · exact ih h
      · split at h
        · cases h
          rfl
        · exact ih h
    · exact ih h

theorem perform_of_objection (b : Backend) {c : Call} {e : OutputError}
    (h : m.objection c = some e) : m.perform b c = (m, .error e) := by
  have hdeclare : ∀ {d : DeviceId} (grow : Blueprint → Blueprint),
      (if m.finished = true ∨ m.IsActive d then some OutputError.alreadyActive else none) =
        some e → m.declare d grow = (m, .error e) := by
    intro d grow h
    split at h
    · next hd =>
      cases h
      exact declare_of_closed hd grow
    · cases h
  cases c with
  | addKey d code => exact hdeclare _ h
  | addRel d code => exact hdeclare _ h
  | addAbs d code range => exact hdeclare _ h
  | finish =>
    simp only [objection] at h
    split at h
    · next hf =>
      cases h
      rw [perform, finish, if_pos hf]
    · cases h
  | send d x => rw [perform, send, queue_of_closed h]
  | frame es => exact frame_eq_error b (checkAll_of_closed h)
  | setRepeat d code v i =>
    simp only [objection] at h
    split at h
    · cases h
    · next hi => exact setRepeat_eq_error (by omega) (queue_of_closed h)
  | update ms => cases h
  | sync =>
    simp only [objection] at h
    split at h
    · cases h
    · next hf =>
      cases h
      rw [perform, sync, if_neg hf]

/-- Without an objection only the backend can make a call fail. For the passing of time this rests
on every timer having an active device. -/
theorem Regular.isRefusal_of_error (h : m.Regular) {b : Backend} {c : Call} {e : OutputError}
    (hn : m.objection c = none) (he : (m.perform b c).2 = .error e) : e.isRefusal = true := by
  have hdeclare : ∀ {d : DeviceId} (grow : Blueprint → Blueprint),
      (if m.finished = true ∨ m.IsActive d then some OutputError.alreadyActive else none) =
        none → (m.declare d grow).2 ≠ .error e := by
    intro d grow hn hd
    split at hn
    · cases hn
    · next hopen => exact nomatch (declare_of_open hopen grow).symm.trans hd
  cases c with
  | addKey d code => exact (hdeclare _ hn he).elim
  | addRel d code => exact (hdeclare _ hn he).elim
  | addAbs d code range => exact (hdeclare _ hn he).elim
  | finish =>
    have hf : ¬m.finished = true := by
      intro hf
      rw [objection, if_pos hf] at hn
      cases hn
    rw [Multiplexer.perform, finish, if_neg hf] at he
    split at he
    · cases he
    · exact activate_error he
  | send d x =>
    have ha := closed_eq_none.mp hn
    rw [Multiplexer.perform, send, queue_eq ha.2 ha.1] at he
    cases he
  | frame es =>
    have ha : ∀ p ∈ es, m.Accepts p.1 := fun p hp =>
      closed_eq_none.mp (List.findSome?_eq_none_iff.mp hn _ (mem_touched.mpr ⟨p.2, hp⟩))
    rw [Multiplexer.perform, frame_eq_deliver b ha, deliver_eq_of_accepts b ha] at he
    exact verdict_error he
  | setRepeat d code v i =>
    by_cases hi : i < 0
    · rw [Multiplexer.perform, setRepeat_neg m d code v hi] at he
      cases he
    · rw [objection, if_neg hi] at hn
      rw [Multiplexer.perform, setRepeat_of_accepts (closed_eq_none.mp hn) code v (by omega)] at he
      cases he
  | update ms =>
    rw [Multiplexer.perform, h.update_eq b ms] at he
    exact verdict_error he
  | sync =>
    have hnodup : m.deviceIds.Nodup := Std.ExtTreeMap.nodup_keys
    rw [Multiplexer.perform, sync] at he
    split at he
    · rw [flushAll_eq b m hnodup] at he
      exact verdict_error he
    · next hf =>
      rw [objection, if_neg hf] at hn
      cases hn

/-- Whatever has happened to a multiplexer, and whatever the backend refused on the way: a call
that fails for another reason than the backend has not changed anything, neither devices and their
blueprints nor queues, timers or the journal. It fails for what was active before it, and letting
time pass is no such call. -/
theorem unchanged_of_rejected (base : String) (rs : List Request) (b : Backend) (c : Call)
    {e : OutputError} (he : (((new base).serve rs).perform b c).2 = .error e)
    (hr : e.isRefusal = false) :
    let m := (new base).serve rs
    (m.perform b c).1 = m ∧ m.objection c = some e ∧ ∀ ms, c ≠ .update ms := by
  intro m
  have hm : m.Regular := (regular_new base).serve rs
  cases hc : m.objection c with
  | none =>
    rw [hm.isRefusal_of_error hc he] at hr
    cases hr
  | some x =>
    have hrun := perform_of_objection b hc
    rw [hrun] at he
    cases he
    refine ⟨by rw [hrun], rfl, ?_⟩
    rintro ms rfl
    cases hc

/-- The first activation fails at the mouse and the second one drops the pad. A frame for the
keyboard and the pad is rejected then, and the event that waits on the keyboard goes on waiting. -/
theorem unchanged_of_rejected_half_known :
    let pad : DeviceId := .joystick 0
    let mouse : DeviceId := .mouse 0
    let keys : DeviceId := .keyboard 0
    let rs : List Request :=
      [⟨.addKey pad 304, .reliable⟩, ⟨.addRel mouse 8, .reliable⟩,
        ⟨.finish, .refusing [mouse] []⟩, ⟨.addKey keys 30, .reliable⟩, ⟨.finish, .reliable⟩,
        ⟨.send keys ⟨.key, 30, 1⟩, .reliable⟩]
    let m := (new "Pads").serve rs
    let x := m.perform .reliable (.frame [(keys, ⟨.key, 30, 0⟩), (pad, ⟨.key, 304, 1⟩)])
    m.waiting keys = [⟨.key, 30, 1⟩] ∧ x.2 = .error (.unknownDevice pad) ∧ x.1 = m := by
  intro pad mouse keys rs m x
  have hrun : m.waiting keys = [⟨.key, 30, 1⟩] ∧ x.2 = .error (.unknownDevice pad) := by
    decide +kernel
  exact ⟨hrun.1, hrun.2, (unchanged_of_rejected "Pads" rs .reliable _ hrun.2 rfl).1⟩

end Multiplexer

end PadRemap
