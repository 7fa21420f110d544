import PadRemap.Mapper.Plan

/-! The past does not count. What a multiplexer has written only goes into its journal: no call
reads it back, so a multiplexer with a longer past does and answers the same. -/

namespace PadRemap

namespace Multiplexer

variable (past : List Batch) (m : Multiplexer) (b : Backend)

def withPast : Multiplexer :=
  { m with journal := { m.journal with batches := past ++ m.journal.batches } }

def afterPast (x : Outcome) : Outcome := (x.1.withPast past, x.2)

@[simp] theorem withPast_nil : m.withPast [] = m := rfl

@[simp] theorem devices_withPast : (m.withPast past).devices = m.devices := rfl

@[simp] theorem repeats_withPast : (m.withPast past).repeats = m.repeats := rfl

@[simp] theorem finished_withPast : (m.withPast past).finished = m.finished := rfl

@[simp] theorem queue_withPast (d : DeviceId) : (m.withPast past).queue d = m.queue d := rfl

theorem setQueue_withPast (d : DeviceId) (q : List Event) :
    (m.withPast past).setQueue d q = (m.setQueue d q).withPast past := by
  simp only [setQueue, devices_withPast]
  split <;> rfl

theorem declare_withPast (d : DeviceId) (grow : Blueprint → Blueprint) :
    (m.withPast past).declare d grow = afterPast past (m.declare d grow) := by
  by_cases hf : m.finished = true
  · rw [declare, declare, if_pos hf, if_pos (show (m.withPast past).finished = true from hf)]
    rfl
  · rw [declare, declare, if_neg hf, if_neg (show ¬(m.withPast past).finished = true from hf)]
    simp only [devices_withPast]
    split <;> rfl

theorem activate_withPast (ds : List DeviceId) :
    activate b ds (m.withPast past) = afterPast past (activate b ds m) := by
  induction ds generalizing m with
  | nil => rfl
  | cons d ds ih =>
    simp only [activate, devices_withPast]
    split
    · next blueprint _ =>
      split
      · exact ih { m with devices := m.devices.erase d }
      · split
        · rfl
        · exact ih { m with
            devices := m.devices.insert d (.active blueprint [])
            journal := { m.journal with created := m.journal.created ++ [(d, blueprint)] } }
    · exact ih { m with devices := m.devices.erase d }

theorem finish_withPast : (m.withPast past).finish b = afterPast past (m.finish b) := by
  have hids : (m.withPast past).deviceIds = m.deviceIds := rfl
  simp only [finish, finished_withPast, hids, activate_withPast]
  split
  · rfl
  · rcases activate b m.deviceIds m with ⟨n, _ | _⟩ <;> rfl

theorem send_withPast (d : DeviceId) (e : Event) :
    (m.withPast past).send d e = afterPast past (m.send d e) := by
  simp only [send, queue_withPast, setQueue_withPast]
  split <;> rfl

theorem flush_withPast (d : DeviceId) :
    (m.withPast past).flush b d = afterPast past (m.flush b d) := by
  simp only [flush, devices_withPast, setQueue_withPast]
  split
  · split
    · rfl
    · simp [afterPast, withPast]
  · rfl

theorem flushAll_withPast (ds : List DeviceId) :
    flushAll b ds (m.withPast past) = afterPast past (flushAll b ds m) := by
  induction ds generalizing m with
  | nil => rfl
  | cons d ds ih =>
    simp only [flushAll, flush_withPast, afterPast, ih]
    rcases flushAll b ds (m.flush b d).1 with ⟨n, _ | _⟩ <;> rfl

theorem checkAll_withPast (ds : List DeviceId) :
    (m.withPast past).checkAll ds = m.checkAll ds := by
  induction ds with
  | nil => rfl
  | cons d ds ih => simp only [checkAll, queue_withPast, ih]

theorem sendAll_withPast (es : List (DeviceId × Event)) :
    sendAll es (m.withPast past) = afterPast past (sendAll es m) := by
  induction es generalizing m with
  | nil => rfl
  | cons p es ih =>
    simp only [sendAll, send_withPast, afterPast]
    rcases m.send p.1 p.2 with ⟨n, _ | _⟩
    · rfl
    · exact ih n

theorem frame_withPast (es : List (DeviceId × Event)) :
    (m.withPast past).frame b es = afterPast past (m.frame b es) := by
  simp only [frame, checkAll_withPast, sendAll_withPast, afterPast]
  split
  · rfl
  · split
    · rfl
    · rcases sendAll es m with ⟨n, _ | _⟩
      · rfl
      · exact n.flushAll_withPast past b _

theorem setRepeat_withPast (d : DeviceId) (code : UInt16) (value interval : Int) :
    (m.withPast past).setRepeat d code value interval =
      afterPast past (m.setRepeat d code value interval) := by
  simp only [setRepeat, queue_withPast, repeats_withPast]
  split
  · rfl
  · split <;> rfl

theorem update_withPast (ms : Nat) :
    (m.withPast past).update b ms = afterPast past (m.update b ms) := by
  have haged : ∀ r, ({ m.withPast past with repeats := r } : Multiplexer) =
      ({ m with repeats := r } : Multiplexer).withPast past := fun _ => rfl
  simp only [update, repeats_withPast, haged, sendAll_withPast, afterPast]
  rcases sendAll _ { m with repeats := _ } with ⟨n, _ | _⟩
  · rfl
  · exact n.flushAll_withPast past b _

theorem sync_withPast : (m.withPast past).sync b = afterPast past (m.sync b) := by
  by_cases hf : m.finished = true
  · rw [sync, sync, if_pos hf, if_pos (show (m.withPast past).finished = true from hf)]
    exact m.flushAll_withPast past b _
  · rw [sync, sync, if_neg hf, if_neg (show ¬(m.withPast past).finished = true from hf)]
    rfl

/-- Every call does and answers the same after any past. -/
theorem perform_withPast (c : Call) :
    (m.withPast past).perform b c = afterPast past (m.perform b c) := by
  cases c with
  | addKey d code => exact m.declare_withPast past d _
  | addRel d code => exact m.declare_withPast past d _
  | addAbs d code range => exact m.declare_withPast past d _
  | finish => exact m.finish_withPast past b
  | send d e => exact m.send_withPast past d e
  | frame es => exact m.frame_withPast past b es
  | setRepeat d code v i => exact m.setRepeat_withPast past d code v i
  | update ms => exact m.update_withPast past b ms
  | sync => exact m.sync_withPast past b

end Multiplexer

namespace Mapper

theorem follow_withPast (past : List Batch) (b : Backend) (steps : List Step) (s : Mapper)
    (m : Multiplexer) :
    follow b steps s (m.withPast past) =
      ((follow b steps s m).1, (follow b steps s m).2.1.withPast past,
        (follow b steps s m).2.2) := by
  induction steps generalizing s m with
  | nil => rfl
  | cons x steps ih =>
    simp only [follow, Multiplexer.perform_withPast, Multiplexer.afterPast]
    rcases m.perform b x.call with ⟨n, _ | _⟩
    · rfl
    · exact ih x.mapper n

end Mapper

end PadRemap
