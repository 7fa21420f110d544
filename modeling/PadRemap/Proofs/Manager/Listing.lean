import PadRemap.Manager.Inventory
import PadRemap.Proofs.Manager.Binding

/-! The inventory lists every device once. Slots never share a device, and a device that is present
is added only if nothing listed before it is the same device; so it does not matter in which order
devices were found, lost, bound and released. -/

namespace PadRemap

def InventoryEntry.Apart (entries : List InventoryEntry) : Prop :=
  entries.Pairwise fun e f => ¬e.device.SameDevice f.device

theorem Slot.holds_iff {s : Slot} {d : Identity} :
    s.holds d = true ↔ ∃ e, s.identity = some e ∧ e.SameDevice d := by
  unfold holds
  cases s.identity with
  | none => simp
  | some e => simp

namespace Manager

open InventoryEntry

variable {configs : List SlotConfig} {m : Manager} {entries : List InventoryEntry}

/-- Adding devices one after the other keeps the entries apart and leaves no device out. -/
theorem foldl_listed (ds : List Identity) (h : Apart entries) :
    ∃ new : List Identity, new.Sublist ds ∧
      ds.foldl listed entries = entries ++ new.map (⟨none, ·⟩) ∧
      Apart (ds.foldl listed entries) ∧
      ∀ d ∈ ds, ∃ e ∈ ds.foldl listed entries, e.device.SameDevice d := by
  induction ds generalizing entries with
  | nil => exact ⟨[], List.Sublist.refl _, by simp, h, by simp⟩
  | cons d ds ih =>
    rw [List.foldl_cons]
    by_cases hd : ∃ e ∈ entries, e.device.SameDevice d
    · have hlisted : listed entries d = entries := by
        apply if_pos
        simpa using hd
      obtain ⟨new, hsub, heq, hapart, hall⟩ := ih h
      rw [hlisted]
      refine ⟨new, hsub.cons d, heq, hapart, List.forall_mem_cons.mpr ⟨?_, hall⟩⟩
      obtain ⟨e, he, hsame⟩ := hd
      refine ⟨e, ?_, hsame⟩
      rw [heq]
      exact List.mem_append_left _ he
    · have hlisted : listed entries d = entries ++ [⟨none, d⟩] := by
        apply if_neg
        simpa using hd
      have hnext : Apart (listed entries d) := by
        rw [hlisted]
        refine List.pairwise_append.mpr ⟨h, List.pairwise_singleton _ _, ?_⟩
        intro e he f hf hsame
        rw [List.mem_singleton.mp hf] at hsame
        exact hd ⟨e, he, hsame⟩
      obtain ⟨new, hsub, heq, hapart, hall⟩ := ih hnext
      have heq' : ds.foldl listed (listed entries d) = entries ++ (d :: new).map (⟨none, ·⟩) := by
        rw [heq, hlisted, List.append_assoc]
        rfl
      refine ⟨d :: new, hsub.cons_cons d, heq', hapart, List.forall_mem_cons.mpr ⟨?_, hall⟩⟩
      refine ⟨⟨none, d⟩, ?_, Identity.sameDevice_equivalence.refl d⟩
      rw [heq']
      simp

theorem Sound.mem_boundEntries (h : m.Sound configs) {e : InventoryEntry} :
    e ∈ m.boundEntries ↔ ∃ (i : Nat) (s : Slot), m.slots[i]? = some s ∧
      s.identity = some e.device ∧ e.binding = some (i, s.state) := by
  unfold boundEntries
  rw [List.mem_filterMap]
  constructor
  · rintro ⟨s, hs, he⟩
    obtain ⟨d, hd, rfl⟩ := Option.map_eq_some_iff.mp he
    obtain ⟨i, hi⟩ := List.mem_iff_getElem?.mp hs
    obtain ⟨-, hid, -⟩ := h.slots i s hi
    exact ⟨i, s, hi, hd, by rw [hid]⟩
  · rintro ⟨i, s, hi, hd, he⟩
    obtain ⟨-, hid, -⟩ := h.slots i s hi
    refine ⟨s, List.mem_of_getElem? hi, ?_⟩
    rw [hd, Option.map_some, hid, ← he]

theorem Sound.pairwise_boundEntries (h : m.Sound configs) :
    m.boundEntries.Pairwise fun e f => ¬e.device.SameDevice f.device ∧
      ∃ i j st st', e.binding = some (i, st) ∧ f.binding = some (j, st') ∧ i < j := by
  unfold boundEntries
  rw [List.pairwise_filterMap, List.pairwise_iff_getElem]
  intro i j hi hj hij e he f hf
  obtain ⟨d, hd, rfl⟩ := Option.map_eq_some_iff.mp he
  obtain ⟨d', hd', rfl⟩ := Option.map_eq_some_iff.mp hf
  have hs := List.getElem?_eq_getElem hi
  have ht := List.getElem?_eq_getElem hj
  obtain ⟨-, hid, -⟩ := h.slots i _ hs
  obtain ⟨-, hjd, -⟩ := h.slots j _ ht
  constructor
  · intro hsame
    have := h.distinct i j _ _ d d' hs ht hd hd' hsame
    omega
  · exact ⟨_, _, _, _, rfl, rfl, by rw [hid, hjd]; exact hij⟩

/-- Entries that list each device known to a manager once, those of its slots first. -/
structure Lists (m : Manager) (entries : List InventoryEntry) : Prop where
  bound : ∀ (i : Nat) (s : Slot) (d : Identity), m.slots[i]? = some s → s.identity = some d →
    s.id = i ∧ ⟨some (i, s.state), d⟩ ∈ entries
  discovered : ∀ d ∈ m.discovered, ∃ e ∈ entries, e.device.SameDevice d
  apart : Apart entries
  order : entries.Pairwise fun e f => ∀ j st, f.binding = some (j, st) →
    ∃ i st', e.binding = some (i, st') ∧ i < j
  slot : ∀ e ∈ entries, ∀ (i : Nat) (st : SlotState), e.binding = some (i, st) →
    ∃ s, m.slots[i]? = some s ∧ s.state = st ∧ s.identity = some e.device
  unbound : ∀ e ∈ entries, e.binding = none → e.device ∈ m.discovered
  marked : ∀ e ∈ entries, e.isBound = true ↔ ∃ s ∈ m.slots, s.holds e.device = true

def entriesWith (m : Manager) (new : List Identity) : List InventoryEntry :=
  m.boundEntries ++ new.map (⟨none, ·⟩)

theorem mem_entriesWith {new : List Identity} {e : InventoryEntry} :
    e ∈ m.entriesWith new ↔ e ∈ m.boundEntries ∨ ∃ d ∈ new, ⟨none, d⟩ = e := by
  rw [entriesWith, List.mem_append, List.mem_map]

theorem Sound.order_entriesWith (h : m.Sound configs) (new : List Identity) :
    (m.entriesWith new).Pairwise fun e f => ∀ j st, f.binding = some (j, st) →
      ∃ i st', e.binding = some (i, st') ∧ i < j := by
  refine List.pairwise_append.mpr ⟨h.pairwise_boundEntries.imp ?_, ?_, ?_⟩
  · rintro e f ⟨-, i, j, st, st', hi, hj, hij⟩ k st'' hk
    rw [hj] at hk
    cases hk
    exact ⟨i, st, hi, hij⟩
  · apply List.pairwise_map.mpr
    apply List.pairwise_of_forall
    intro d e j st hj
    cases hj
  · intro e he f hf j st hj
    obtain ⟨d, -, rfl⟩ := List.mem_map.mp hf
    cases hj

theorem Sound.isBound_iff (h : m.Sound configs) {new : List Identity}
    (hapart : Apart (m.entriesWith new)) {e : InventoryEntry} (he : e ∈ m.entriesWith new) :
    e.isBound = true ↔ ∃ s ∈ m.slots, s.holds e.device = true := by
  rcases mem_entriesWith.mp he with he | ⟨d, hd, rfl⟩
  · obtain ⟨i, s, hs, hd, hi⟩ := h.mem_boundEntries.mp he
    have hholds := Slot.holds_iff.mpr ⟨e.device, hd, Identity.sameDevice_equivalence.refl _⟩
    rw [isBound, hi]
    exact iff_of_true rfl ⟨s, List.mem_of_getElem? hs, hholds⟩
  · refine iff_of_false Bool.false_ne_true ?_
    rintro ⟨s, hs, hholds⟩
    obtain ⟨i, hi⟩ := List.mem_iff_getElem?.mp hs
    obtain ⟨d', hd', hsame⟩ := Slot.holds_iff.mp hholds
    have hslot : ⟨some (i, s.state), d'⟩ ∈ m.boundEntries :=
      h.mem_boundEntries.mpr ⟨i, s, hi, hd', rfl⟩
    exact (List.pairwise_append.mp hapart).2.2 _ hslot _ (List.mem_map_of_mem hd) hsame

theorem Sound.lists_inventory (h : m.Sound configs) : m.Lists m.inventory := by
  obtain ⟨new, hsub, heq, hapart, hall⟩ :=
    foldl_listed m.discovered (h.pairwise_boundEntries.imp And.left)
  change m.inventory = m.entriesWith new at heq
  change Apart m.inventory at hapart
  change ∀ d ∈ m.discovered, ∃ e ∈ m.inventory, _ at hall
  rw [heq] at hapart hall ⊢
  refine ⟨?_, hall, hapart, h.order_entriesWith new, ?_, ?_, fun e => h.isBound_iff hapart⟩
  · intro i s d hs hd
    refine ⟨(h.slots i s hs).2.1, mem_entriesWith.mpr (Or.inl ?_)⟩
    exact h.mem_boundEntries.mpr ⟨i, s, hs, hd, rfl⟩
  · intro e he i st hi
    rcases mem_entriesWith.mp he with he | ⟨d, hd, rfl⟩
    · obtain ⟨j, s, hs, hd, hj⟩ := h.mem_boundEntries.mp he
      rw [hj] at hi
      cases hi
      exact ⟨s, hs, rfl, hd⟩
    · cases hi
  · intro e he hnone
    rcases mem_entriesWith.mp he with he | ⟨d, hd, rfl⟩
    · obtain ⟨j, s, -, -, hj⟩ := h.mem_boundEntries.mp he
      rw [hj] at hnone
      cases hnone
    · exact hsub.subset hd

/-- Whatever a new manager is told, whether devices can be opened or not, and however its workers
end, its inventory lists each device once that is bound or present. -/
theorem inventory_lists_once {b : Backend} {name : String} {m₀ : Manager}
    (h : new b configs name = .ok m₀) (ops : List Operation) :
    (m₀.applyAll ops).Lists (m₀.applyAll ops).inventory :=
  ((sound_of_new h).applyAll ops).lists_inventory

/-- Of three pads the first one is found again under another name, the second one vanishes while its
slot still stops, and the third one finds no free slot. -/
theorem inventory_lists_once_stopping :
    let c : SlotConfig := ⟨.empty, .empty, [], 0, none, []⟩
    let pad (path name : String) : Identity := ⟨.mock, 0, 0, 0, 0, path, name⟩
    let works : Opener := fun _ => none
    ∃ m₀, new .reliable [c, c] "Pads" = .ok m₀ ∧
      let m := m₀.applyAll [.assign works (pad "first" "Pad"), .assign works (pad "second" "Pad"),
        .assign works (pad "first" "Twin"), .remove (pad "second" "Pad"),
        .assign works (pad "third" "Pad")]
      m.inventory = [⟨some (0, .connected), pad "first" "Pad"⟩,
        ⟨some (1, .disconnecting), pad "second" "Pad"⟩, ⟨none, pad "third" "Pad"⟩] ∧
      m.discovered = [pad "first" "Pad", pad "third" "Pad"] ∧ m.Lists m.inventory := by
  intro c pad works
  let ops : List Operation := [.assign works (pad "first" "Pad"),
    .assign works (pad "second" "Pad"), .assign works (pad "first" "Twin"),
    .remove (pad "second" "Pad"), .assign works (pad "third" "Pad")]
  have hrun : ((new .reliable [c, c] "Pads").toOption.map fun m =>
      ((m.applyAll ops).inventory, (m.applyAll ops).discovered)) =
        some ([⟨some (0, .connected), pad "first" "Pad"⟩,
          ⟨some (1, .disconnecting), pad "second" "Pad"⟩, ⟨none, pad "third" "Pad"⟩],
          [pad "first" "Pad", pad "third" "Pad"]) := by
    decide +kernel
  cases hm : new .reliable [c, c] "Pads" with
  | error e =>
    rw [hm] at hrun
    cases hrun
  | ok m₀ =>
    rw [hm] at hrun
    simp only [Except.toOption, Option.map_some, Option.some.injEq, Prod.mk.injEq] at hrun
    obtain ⟨hinventory, hdiscovered⟩ := hrun
    exact ⟨m₀, rfl, hinventory, hdiscovered, inventory_lists_once hm ops⟩

end Manager

end PadRemap
