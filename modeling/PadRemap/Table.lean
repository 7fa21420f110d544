/-! Total tables over a finite, numbered set of keys. -/

namespace PadRemap

/-- Keys numbered from zero without gaps. -/
class Enumerated (κ : Type) where
  size : Nat
  index : κ → Fin size
  ofIndex : Fin size → κ
  ofIndex_index : ∀ k, ofIndex (index k) = k
  index_ofIndex : ∀ i, index (ofIndex i) = i

namespace Enumerated

def all (κ : Type) [Enumerated κ] : List κ := (List.finRange (size κ)).map ofIndex

variable {κ : Type} [Enumerated κ]

theorem index_injective {a b : κ} (h : index a = index b) : a = b := by
  rw [← ofIndex_index a, h, ofIndex_index]

@[simp] theorem mem_all (k : κ) : k ∈ all κ :=
  List.mem_map.mpr ⟨index k, List.mem_finRange _, ofIndex_index k⟩

theorem nodup_all : (all κ).Nodup := by
  refine List.Pairwise.map _ ?_ (List.nodup_finRange _)
  intro i j hij h
  exact hij (by rw [← index_ofIndex (κ := κ) i, h, index_ofIndex])

end Enumerated

/-- One value for each key. -/
structure Table (κ α : Type) [Enumerated κ] where
  cells : Vector α (Enumerated.size κ)

namespace Table

variable {κ α : Type} [Enumerated κ]

def get (t : Table κ α) (k : κ) : α := t.cells[Enumerated.index k]

def set (t : Table κ α) (k : κ) (a : α) : Table κ α := ⟨t.cells.set (Enumerated.index k) a⟩

def fill (a : α) : Table κ α := ⟨Vector.replicate _ a⟩

def tabulate (f : κ → α) : Table κ α := ⟨Vector.ofFn fun i => f (Enumerated.ofIndex i)⟩

@[simp] theorem get_fill (a : α) (k : κ) : (fill a : Table κ α).get k = a := by
  simp [get, fill]

@[simp] theorem get_tabulate (f : κ → α) (k : κ) : (tabulate f).get k = f k := by
  simp [get, tabulate, Enumerated.ofIndex_index]

@[simp] theorem get_set_self (t : Table κ α) (k : κ) (a : α) : (t.set k a).get k = a := by
  simp [get, set]

theorem get_set_ne (t : Table κ α) {k l : κ} (a : α) (h : l ≠ k) :
    (t.set k a).get l = t.get l := by
  have : (Enumerated.index k).val ≠ (Enumerated.index l).val := fun e =>
    h (Enumerated.index_injective (Fin.ext e)).symm
  simp [get, set, this]

theorem get_set [DecidableEq κ] (t : Table κ α) (k l : κ) (a : α) :
    (t.set k a).get l = if l = k then a else t.get l := by
  split
  · subst_vars; simp
  · exact get_set_ne t a ‹_›

@[ext] theorem ext {s t : Table κ α} (h : ∀ k, s.get k = t.get k) : s = t := by
  obtain ⟨s⟩ := s
  obtain ⟨t⟩ := t
  congr 1
  ext i hi
  have := h (Enumerated.ofIndex ⟨i, hi⟩)
  simpa [get, Enumerated.index_ofIndex] using this

instance [DecidableEq α] : DecidableEq (Table κ α) := fun s t =>
  if h : s.cells = t.cells then isTrue (by cases s; cases t; simp_all)
  else isFalse (by rintro rfl; exact h rfl)

instance [Inhabited α] : Inhabited (Table κ α) := ⟨fill default⟩

end Table

end PadRemap
