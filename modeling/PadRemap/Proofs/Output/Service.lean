import PadRemap.Proofs.Output.Delivery

/-! A multiplexer in service: its devices are active, nothing waits to be written, and every repeat
timer belongs to an active device. Frames, changes of timers and the passing of time keep it in
service; the main statements say exactly what each of them does. -/

namespace PadRemap

namespace Multiplexer

/-- The state between calls once the devices are active. -/
structure InService (m : Multiplexer) : Prop where
  finished : m.finished = true
  quiet : m.Quiet
  timers : ∀ o : Outlet, o ∈ m.repeats → m.IsActive o.device

def timerOn (m : Multiplexer) (o : Outlet) : Option (Int × Nat) :=
  m.repeats[o]?.map fun r => (r.value, r.interval)

def dueEvents (m : Multiplexer) (ms : Nat) : List (DeviceId × Event) :=
  m.repeats.toList.flatMap fun (o, r) => firingEvents ms o r

def aged (m : Multiplexer) (ms : Nat) : Multiplexer :=
  { m with repeats := m.repeats.map fun _ r => r.advance ms }

def armed (m : Multiplexer) (o : Outlet) (value : Int) (interval : Nat) : Multiplexer :=
  let r : Repeat := match m.repeats[o]? with
    | some r => { r with value, interval }
    | none => { value, interval, elapsed := 0 }
  { m with repeats := m.repeats.insert o r }

def disarmed (m : Multiplexer) (o : Outlet) : Multiplexer :=
  { m with repeats := m.repeats.erase o }

theorem mem_repeats_iff {m : Multiplexer} {o : Outlet} :
    o ∈ m.repeats ↔ ∃ x, m.timerOn o = some x := by
  rw [Std.ExtTreeMap.mem_iff_isSome_getElem?, Option.isSome_iff_exists]
  constructor
  · rintro ⟨r, hr⟩
    exact ⟨_, by rw [timerOn, hr]; rfl⟩
  · rintro ⟨x, hx⟩
    obtain ⟨r, hr, -⟩ := Option.map_eq_some_iff.mp hx
    exact ⟨r, hr⟩

theorem timerOn_armed (m : Multiplexer) (o a : Outlet) (value : Int) (interval : Nat) :
    (m.armed o value interval).timerOn a =
      if o = a then some (value, interval) else m.timerOn a := by
  unfold armed timerOn
  rw [Std.ExtTreeMap.getElem?_insert]
  by_cases h : o = a
  · subst h
    cases m.repeats[o]? <;> simp
  · simp [h]

theorem timerOn_disarmed (m : Multiplexer) (o a : Outlet) :
    (m.disarmed o).timerOn a = if o = a then none else m.timerOn a := by
  unfold disarmed timerOn
  rw [Std.ExtTreeMap.getElem?_erase]
  by_cases h : o = a <;> simp [h]

theorem mem_repeats_armed {m : Multiplexer} {o a : Outlet} {value : Int} {interval : Nat}
    (h : a ∈ (m.armed o value interval).repeats) : o = a ∨ a ∈ m.repeats := by
  rw [mem_repeats_iff, timerOn_armed] at h
  split at h
  · next e => exact Or.inl e
  · exact Or.inr (mem_repeats_iff.mpr h)

theorem mem_repeats_disarmed {m : Multiplexer} {o a : Outlet} (h : a ∈ (m.disarmed o).repeats) :
    a ∈ m.repeats := by
  rw [mem_repeats_iff, timerOn_disarmed] at h
  split at h
  · simp at h
  · exact mem_repeats_iff.mpr h

@[simp] theorem timerOn_aged (m : Multiplexer) (ms : Nat) (o : Outlet) :
    (m.aged ms).timerOn o = m.timerOn o := by
  simp [aged, timerOn, Std.ExtTreeMap.getElem?_map, Function.comp_def, Repeat.advance]

@[simp] theorem timerOn_log (m : Multiplexer) (bs : List Batch) (o : Outlet) :
    (m.log bs).timerOn o = m.timerOn o := rfl

theorem mem_repeats_aged {m : Multiplexer} {ms : Nat} {o : Outlet} :
    o ∈ (m.aged ms).repeats ↔ o ∈ m.repeats := by
  rw [mem_repeats_iff, mem_repeats_iff, timerOn_aged]

theorem mem_dueEvents {m : Multiplexer} {ms : Nat} {p : DeviceId × Event}
    (h : p ∈ m.dueEvents ms) :
    ∃ o x, m.timerOn o = some x ∧ p = (o.device, ⟨.rel, o.code, x.1⟩) := by
  simp only [dueEvents, List.mem_flatMap, firingEvents] at h
  obtain ⟨⟨o, r⟩, hm, hp⟩ := h
  have ho := Std.ExtTreeMap.mem_toList_iff_getElem?_eq_some.mp hm
  exact ⟨o, (r.value, r.interval), by simp [timerOn, ho], (List.mem_replicate.mp hp).2⟩

theorem setRepeat_neg (m : Multiplexer) (d : DeviceId) (code : UInt16) (value : Int)
    {interval : Int} (hi : interval < 0) :
    m.setRepeat d code value interval = (m.disarmed ⟨d, code⟩, .ok ()) := by
  simp [setRepeat, hi, Multiplexer.disarmed]

theorem queue_of_not_accepts {m : Multiplexer} {d : DeviceId} (h : ¬m.Accepts d) :
    m.queue d = .error (if m.finished then .unknownDevice d else .notActive) := by
  unfold queue
  split
  · next hf =>
    split
    · next bp q hd => exact (h ⟨hf, bp, q, hd⟩).elim
    · rfl
  · rfl

theorem setRepeat_of_accepts {m : Multiplexer} {d : DeviceId} (hd : m.Accepts d) (code : UInt16)
    (value : Int) {interval : Int} (hi : 0 ≤ interval) :
    m.setRepeat d code value interval =
      (m.armed ⟨d, code⟩ value (max interval.toNat 1), .ok ()) := by
  unfold setRepeat
  rw [if_neg (by omega), queue_eq hd.2 hd.1]
  rfl

namespace InService

variable {m : Multiplexer}

theorem log (h : m.InService) (bs : List Batch) : (m.log bs).InService :=
  ⟨h.finished, h.quiet, h.timers⟩

theorem aged (h : m.InService) (ms : Nat) : (m.aged ms).InService :=
  ⟨h.finished, h.quiet, fun o ho => h.timers o (mem_repeats_aged.mp ho)⟩

theorem armed (h : m.InService) {o : Outlet} (ha : m.IsActive o.device) (value : Int)
    (interval : Nat) : (m.armed o value interval).InService := by
  refine ⟨h.finished, h.quiet, fun a ho => ?_⟩
  rcases mem_repeats_armed ho with e | ho
  · exact e ▸ ha
  · exact h.timers a ho

theorem disarmed (h : m.InService) (o : Outlet) : (m.disarmed o).InService :=
  ⟨h.finished, h.quiet, fun a ho => h.timers a (mem_repeats_disarmed ho)⟩

theorem queue_error (h : m.InService) {d : DeviceId} (hd : ¬m.IsActive d) :
    m.queue d = .error (.unknownDevice d) := by
  rw [queue_of_not_accepts fun ha => hd ha.2, if_pos h.finished]

/-- A frame is written as it is if its devices are known, and else refused as a whole. -/
theorem frame_cases (h : m.InService) (b : Backend) (es : List (DeviceId × Event)) :
    ((∀ p ∈ es, m.IsActive p.1) ∧ m.frame b es = (m.log (batchesOf b es), verdictOf b es)) ∨
    ∃ d ∈ touched es, ¬m.IsActive d ∧ ∃ a, m.frame b es = (m, .error (.unknownDevice a)) := by
  by_cases ha : ∀ p ∈ es, m.IsActive p.1
  · exact Or.inl ⟨ha, frame_eq b h.finished h.quiet ha⟩
  · right
    obtain ⟨p, hp, hn⟩ : ∃ p ∈ es, ¬m.IsActive p.1 := by simpa using ha
    have hc : ∀ ds : List DeviceId, p.1 ∈ ds → ∃ a, m.checkAll ds = .error (.unknownDevice a) := by
      intro ds hds
      induction ds with
      | nil => cases hds
      | cons d ds ih =>
        unfold checkAll
        by_cases hd : m.IsActive d
        · rw [queue_eq hd h.finished]
          rcases List.mem_cons.mp hds with rfl | hds
          · exact (hn hd).elim
          · exact ih hds
        · exact ⟨d, by rw [h.queue_error hd]⟩
    have ht : p.1 ∈ touched es := mem_touched.mpr ⟨p.2, hp⟩
    obtain ⟨a, ha⟩ := hc _ ht
    refine ⟨p.1, ht, hn, a, ?_⟩
    unfold frame
    rw [if_neg (by simpa using List.ne_nil_of_mem hp), ha]

theorem setRepeat_eq (h : m.InService) {d : DeviceId} (hd : m.IsActive d) (code : UInt16)
    (value : Int) {interval : Int} (hi : 0 ≤ interval) :
    m.setRepeat d code value interval =
      (m.armed ⟨d, code⟩ value (max interval.toNat 1), .ok ()) :=
  setRepeat_of_accepts ⟨h.finished, hd⟩ code value hi

theorem setRepeat_error (h : m.InService) {d : DeviceId} (hd : ¬m.IsActive d) (code : UInt16)
    (value : Int) {interval : Int} (hi : 0 ≤ interval) :
    m.setRepeat d code value interval = (m, .error (.unknownDevice d)) := by
  unfold setRepeat
  rw [if_neg (by omega), h.queue_error hd]

/-- The passing of time is a delivery of what the timers have due. -/
theorem update_eq (h : m.InService) (b : Backend) (ms : Nat) :
    m.update b ms = ((m.aged ms).log (batchesOf b (m.dueEvents ms)),
      verdictOf b (m.dueEvents ms)) := by
  rw [← deliver_eq b (h.aged ms).finished (h.aged ms).quiet ?_]
  · rfl
  · intro p hp
    obtain ⟨o, x, ho, rfl⟩ := mem_dueEvents hp
    exact h.timers o (mem_repeats_iff.mpr ⟨x, ho⟩)

end InService

end Multiplexer

end PadRemap
