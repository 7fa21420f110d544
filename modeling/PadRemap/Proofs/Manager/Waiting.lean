import PadRemap.Proofs.Manager.Binding

/-! Devices that wait. A device is offered to the slots only when it is announced. If it is refused
then, it waits until it is announced again, also when a slot that accepts it becomes free. -/

namespace PadRemap

def Assignment.isRefusal : Assignment → Bool
  | alreadyBound | noFreeSlot => true
  | _ => false

def Operation.Announces (op : Operation) (d : Identity) : Prop :=
  ∃ e, op.announced = some e ∧ e.SameDevice d

namespace Manager

variable {configs : List SlotConfig} {m : Manager}

/-- A device is refused for the sake of a slot that holds it, or because no free slot accepts it. -/
theorem refusal_cases {opener : Opener} {d : Identity}
    (h : (m.assign opener d).2.isRefusal = true) :
    (∃ s ∈ m.slots, s.holds d = true) ∨
      ∀ s ∈ m.slots, s.state = .unbound → s.accepts d = false := by
  by_cases hheld : (m.slots.any fun s => s.holds d) = true
  · left
    exact List.any_eq_true.mp hheld
  right
  have hnone : m.freeSlot? d = none := by
    cases hi : m.freeSlot? d with
    | none => rfl
    | some i =>
      have hlt : i < m.slots.length := (List.findIdx?_eq_some_iff_getElem.mp hi).1
      have hfree := free_of_findIdx hheld hi (List.getElem?_eq_getElem hlt)
      have hfind : (m.discover d).freeSlot? d = some i := by
        rw [← hi]
        unfold freeSlot?
        rw [slots_discover]
      unfold assign at h
      simp only [slots_discover, if_neg hheld, hfind, List.getElem?_eq_getElem hlt, Slot.reserve,
        if_pos hfree.unbound, connect] at h
      split at h
      · cases h
      · split at h <;> cases h
  intro s hs hu
  have hno := List.findIdx?_eq_none_iff.mp hnone s hs
  simpa [hu] using hno

theorem Sound.unheld_keep {m' : Manager} (k : m.Keeps m') {d : Identity}
    (hd : ∀ s ∈ m.slots, s.holds d = false) : ∀ t ∈ m'.slots, t.holds d = false := by
  intro t ht
  obtain ⟨i, hi⟩ := List.mem_iff_getElem?.mp ht
  obtain ⟨s, hs, hf⟩ := k.slots i t hi
  have hold := hd s (List.mem_of_getElem? hs)
  rcases hf.identity with he | he
  · rw [Slot.holds, he]
    exact hold
  · rw [Slot.holds, he]
    rfl

/-- A device gets to a slot only when it is announced. -/
theorem Sound.unheld_apply (h : m.Sound configs) {op : Operation} {d : Identity}
    (ho : ¬op.Announces d) (hd : ∀ s ∈ m.slots, s.holds d = false) :
    ∀ t ∈ (m.apply op).slots, t.holds d = false := by
  cases he : op.announced with
  | none => exact Sound.unheld_keep (h.keeps_apply he) hd
  | some e =>
    have hne : ¬e.SameDevice d := fun hs => ho ⟨e, he, hs⟩
    obtain ⟨opener, heq⟩ := apply_of_announced he m
    rw [heq]
    rcases h.assign_cases opener e with ⟨-, hslots, -⟩ | ⟨i, s, p, -, -, hslots, -⟩
    · rw [hslots]
      exact hd
    · intro t ht
      rw [hslots] at ht
      rcases List.mem_or_eq_of_mem_set ht with ht | rfl
      · exact hd t ht
      · simp [Slot.holds, Slot.boundTo, hne]

theorem Sound.unheld_applyAll (h : m.Sound configs) {ops : List Operation} {d : Identity}
    (ho : ∀ op ∈ ops, ¬op.Announces d) (hd : ∀ s ∈ m.slots, s.holds d = false) :
    ∀ t ∈ (m.applyAll ops).slots, t.holds d = false := by
  induction ops generalizing m with
  | nil => exact hd
  | cons op ops ih =>
    apply ih (h.apply op)
    · intro op' hop
      exact ho op' (List.mem_cons_of_mem _ hop)
    · exact h.unheld_apply (ho op List.mem_cons_self) hd

/-- A device that is listed and bound to no slot after it has been announced between `pre` and
`post`, has been refused then, and has not been announced since. -/
structure Waits (m₀ : Manager) (pre post : List Operation) (opener : Opener) (d : Identity) :
    Prop where
  refused : ((m₀.applyAll pre).assign opener d).2.isRefusal = true
  last : ∀ op ∈ post, ¬op.Announces d
  listed : Discovery.present d
    (m₀.applyAll (pre ++ .handle opener (.added d) :: post)).discovered = true
  unheld : ∀ s ∈ (m₀.applyAll (pre ++ .handle opener (.added d) :: post)).slots,
    s.holds d = false

/-- A device waits because a slot still held it when it was announced, or because no slot that
accepts it was free then. Whatever happens, it is bound to no slot until it is announced again, and
is not refused then if a free slot accepts it. -/
theorem waits_for_announcement {b : Backend} {name : String} {m₀ : Manager}
    (h : new b configs name = .ok m₀) {pre post : List Operation} {opener : Opener}
    {d : Identity} (hw : Waits m₀ pre post opener d) :
    let before := m₀.applyAll pre
    let m := m₀.applyAll (pre ++ .handle opener (.added d) :: post)
    ((∃ s ∈ before.slots, s.holds d = true) ∨
      ∀ (i : Nat) (s t : Slot), before.slots[i]? = some s → m.slots[i]? = some t →
        t.state = .unbound → t.accepts d = true → s.state ≠ .unbound) ∧
    ∀ more : List Operation, (∀ op ∈ more, ¬op.Announces d) →
      (∀ s ∈ (m.applyAll more).slots, s.holds d = false) ∧
      ∀ opener', (∃ s ∈ (m.applyAll more).slots, s.state = .unbound ∧ s.accepts d = true) →
        ((m.applyAll more).assign opener' d).2.isRefusal = false := by
  intro before m
  have hbefore : before.Sound configs := (sound_of_new h).applyAll pre
  have hm : m.Sound configs := (sound_of_new h).applyAll _
  constructor
  · rcases refusal_cases hw.refused with hheld | hbusy
    · left
      exact hheld
    · right
      intro i s t hs ht hu ha hfree
      have hconfig : s.config = t.config := by
        have hc := (hbefore.slots i s hs).2.2
        rw [(hm.slots i t ht).2.2] at hc
        exact (Option.some.inj hc).symm
      have hno := hbusy s (List.mem_of_getElem? hs) hfree
      rw [Slot.accepts, hconfig] at hno
      rw [Slot.accepts, hno] at ha
      cases ha
  · intro more hmore
    have hunheld := hm.unheld_applyAll hmore hw.unheld
    refine ⟨hunheld, ?_⟩
    rintro opener' ⟨s, hs, hu, ha⟩
    cases hr : ((m.applyAll more).assign opener' d).2.isRefusal with
    | false => rfl
    | true =>
      rcases refusal_cases hr with ⟨t, ht, hheld⟩ | hbusy
      · rw [hunheld t ht] at hheld
        cases hheld
      · rw [hbusy s hs hu] at ha
        cases ha

theorem waits_of_run {m₀ : Manager} {pre post : List Operation} {opener : Opener} {d : Identity}
    (hr : ((m₀.applyAll pre).assign opener d).2.isRefusal = true)
    (hp : ∀ op ∈ post, ¬op.Announces d)
    (hl : Discovery.present d
      (m₀.applyAll (pre ++ .handle opener (.added d) :: post)).discovered = true)
    (hu : ((m₀.applyAll (pre ++ .handle opener (.added d) :: post)).slots.any
      fun s => s.holds d) = false) : Waits m₀ pre post opener d := by
  refine ⟨hr, hp, hl, fun s hs => ?_⟩
  rw [List.any_eq_false] at hu
  simpa using hu s hs

/-- A pad is unplugged and back while its worker still stops. Its old slot holds it then, and it is
bound to neither slot afterwards, until it is unplugged and back once more. -/
theorem waits_for_announcement_replugged :
    let c : SlotConfig := ⟨.empty, .empty, [], 0, none, []⟩
    let d : Identity := ⟨.mock, 0, 0, 0, 0, "pad", "Pad"⟩
    let works : Opener := fun _ => none
    let pre : List Operation := [.handle works (.added d), .handle works (.removed d)]
    let post : List Operation := [.work .reliable .idle 0 0, .tick .reliable 10]
    let more : List Operation := [.tick .reliable 1000, .handle works (.removed d)]
    ∃ m₀, new .reliable [c, c] "Pads" = .ok m₀ ∧ Waits m₀ pre post works d ∧
      let m := m₀.applyAll (pre ++ .handle works (.added d) :: post)
      m.slots.map Slot.state = [.unbound, .unbound] ∧
      (∀ s ∈ (m.applyAll more).slots, s.holds d = false) ∧
      ((m.applyAll more).assign works d).2.isRefusal = false := by
  intro c d works pre post more
  have hrun : ((new .reliable [c, c] "Pads").toOption.map fun m₀ =>
      let m := m₀.applyAll (pre ++ .handle works (.added d) :: post)
      (((m₀.applyAll pre).assign works d).2.isRefusal, Discovery.present d m.discovered,
        m.slots.any fun s => s.holds d, m.slots.map Slot.state,
        (m.applyAll more).slots.any fun s => s.state == .unbound && s.accepts d)) =
          some (true, true, false, [.unbound, .unbound], true) := by
    decide +kernel
  cases hm : new .reliable [c, c] "Pads" with
  | error e =>
    rw [hm] at hrun
    cases hrun
  | ok m₀ =>
    rw [hm] at hrun
    simp only [Except.toOption, Option.map_some, Option.some.injEq, Prod.mk.injEq] at hrun
    obtain ⟨hrefused, hlisted, hunheld, hstates, hfree⟩ := hrun
    have hpost : ∀ op ∈ post, ¬op.Announces d := by
      simp [post, Operation.Announces, Operation.announced]
    have hmore : ∀ op ∈ more, ¬op.Announces d := by
      simp [more, Operation.Announces, Operation.announced]
    have hw : Waits m₀ pre post works d := waits_of_run hrefused hpost hlisted hunheld
    obtain ⟨hstill, hnext⟩ := (waits_for_announcement hm hw).2 more hmore
    refine ⟨m₀, rfl, hw, hstates, hstill, hnext works ?_⟩
    obtain ⟨s, hs, h⟩ := List.any_eq_true.mp hfree
    exact ⟨s, hs, by simpa using h⟩

/-- Of two pads for one slot the first one is unplugged. With the tick that follows the slot is free
and accepts the other pad, which has been refused and still waits. -/
theorem waits_beside_free_slot :
    let c : SlotConfig := ⟨.empty, .empty, [], 0, none, [.any]⟩
    let first : Identity := ⟨.mock, 0, 0, 0, 0, "a", "A"⟩
    let second : Identity := ⟨.mock, 0, 0, 0, 0, "b", "B"⟩
    let works : Opener := fun _ => none
    let pre : List Operation := [.handle works (.added first)]
    let post : List Operation :=
      [.handle works (.removed first), .work .reliable .idle 0 0, .tick .reliable 10]
    ∃ m₀, new .reliable [c] "Pads" = .ok m₀ ∧ Waits m₀ pre post works second ∧
      ¬∀ s ∈ (m₀.applyAll (pre ++ .handle works (.added second) :: post)).slots,
        s.state = .unbound → s.accepts second = false := by
  intro c first second works pre post
  have hrun : ((new .reliable [c] "Pads").toOption.map fun m₀ =>
      let m := m₀.applyAll (pre ++ .handle works (.added second) :: post)
      (((m₀.applyAll pre).assign works second).2.isRefusal,
        Discovery.present second m.discovered, m.slots.any fun s => s.holds second,
        m.slots.any fun s => s.state == .unbound && s.accepts second)) =
          some (true, true, false, true) := by
    decide +kernel
  cases hm : new .reliable [c] "Pads" with
  | error e =>
    rw [hm] at hrun
    cases hrun
  | ok m₀ =>
    rw [hm] at hrun
    simp only [Except.toOption, Option.map_some, Option.some.injEq, Prod.mk.injEq] at hrun
    obtain ⟨hrefused, hlisted, hunheld, hfree⟩ := hrun
    have hpost : ∀ op ∈ post, ¬op.Announces second := by
      simp [post, Operation.Announces, Operation.announced]
    refine ⟨m₀, rfl, waits_of_run hrefused hpost hlisted hunheld, fun hall => ?_⟩
    obtain ⟨s, hs, h⟩ := List.any_eq_true.mp hfree
    simp only [Bool.and_eq_true, beq_iff_eq] at h
    rw [hall s hs h.1] at h
    cases h.2

end Manager

end PadRemap
