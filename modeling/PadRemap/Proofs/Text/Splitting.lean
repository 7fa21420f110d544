import PadRemap.Text

/-! Where a text is cut: at the first separator, with none before it, or at every separator. Texts
without blanks at their ends are left as they are. -/

namespace PadRemap.Text

variable {sep : Char} {cs left right : List Char}

theorem cut?_eq_none : cut? sep cs = none ↔ sep ∉ cs := by
  induction cs with
  | nil => simp [cut?]
  | cons c cs ih =>
    by_cases h : c = sep
    · simp [cut?, h]
    · simp [cut?, h, ih, Ne.symm h]

theorem cut?_append (h : sep ∉ left) : cut? sep (left ++ sep :: right) = some (left, right) := by
  induction left with
  | nil => simp [cut?]
  | cons c left ih =>
    rw [List.mem_cons, not_or] at h
    simp [cut?, Ne.symm h.1, ih h.2]

theorem cut?_eq_some :
    cut? sep cs = some (left, right) ↔ cs = left ++ sep :: right ∧ sep ∉ left := by
  constructor
  · intro h
    have hsep : sep ∈ cs := by
      refine Decidable.byContradiction fun hsep => ?_
      rw [cut?_eq_none.mpr hsep] at h
      cases h
    obtain ⟨l, r, rfl, hl⟩ := List.eq_append_cons_of_mem hsep
    rw [cut?_append hl] at h
    cases h
    exact ⟨rfl, hl⟩
  · rintro ⟨rfl, hl⟩
    exact cut?_append hl

theorem fields_of_not_mem (h : sep ∉ cs) : fields sep cs = [cs] := by
  induction cs with
  | nil => rfl
  | cons c cs ih =>
    rw [List.mem_cons, not_or] at h
    simp [fields, Ne.symm h.1, ih h.2]

theorem fields_append (h : sep ∉ left) :
    fields sep (left ++ sep :: right) = left :: fields sep right := by
  induction left with
  | nil => simp [fields]
  | cons c left ih =>
    rw [List.mem_cons, not_or] at h
    simp [fields, Ne.symm h.1, ih h.2]

/-- Fields joined by a separator that none of them has come apart again. -/
theorem fields_intercalate {ts : List (List Char)} (hne : ts ≠ []) (h : ∀ t ∈ ts, sep ∉ t) :
    fields sep ([sep].intercalate ts) = ts := by
  induction ts with
  | nil => exact absurd rfl hne
  | cons t ts ih =>
    rw [List.forall_mem_cons] at h
    cases ts with
    | nil =>
      rw [List.intercalate_singleton]
      exact fields_of_not_mem h.1
    | cons t' ts =>
      rw [List.intercalate_cons_cons, List.append_assoc, List.singleton_append, fields_append h.1,
        ih (by simp) h.2]

theorem mem_intercalate {c : Char} {ts : List (List Char)} (h : c ∈ [sep].intercalate ts) :
    c = sep ∨ ∃ t ∈ ts, c ∈ t := by
  induction ts with
  | nil => simp at h
  | cons t ts ih =>
    cases ts with
    | nil => exact .inr ⟨t, by simp, by simpa using h⟩
    | cons t' ts =>
      rw [List.intercalate_cons_cons, List.mem_append, List.mem_append, List.mem_singleton] at h
      rcases h with (ht | hsep) | hts
      · exact .inr ⟨t, List.mem_cons_self, ht⟩
      · exact .inl hsep
      · exact (ih hts).imp_right fun ⟨t, ht, hc⟩ => ⟨t, List.mem_cons_of_mem _ ht, hc⟩

theorem strip_eq_self {p : Char → Bool} (hhead : ∀ c ∈ cs.head?, p c = false)
    (hlast : ∀ c ∈ cs.getLast?, p c = false) : strip p cs = cs := by
  have hdrop : ∀ {ds : List Char}, (∀ c ∈ ds.head?, p c = false) → ds.dropWhile p = ds := by
    intro ds h
    cases ds with
    | nil => rfl
    | cons d ds => rw [List.dropWhile_cons_of_neg (by simp [h d rfl])]
  rw [strip, hdrop hhead, hdrop (by simpa using hlast), List.reverse_reverse]

theorem strip_cons {p : Char → Bool} {c : Char} (h : p c = true) (cs : List Char) :
    strip p (c :: cs) = strip p cs := by
  rw [strip, strip, List.dropWhile_cons_of_pos h]

theorem trim_eq_self (h : ∀ c ∈ cs, isBlank c = false) : trim cs = cs :=
  strip_eq_self (fun c hc => h c (List.mem_of_mem_head? hc))
    fun c hc => h c (List.mem_of_mem_getLast? hc)

end PadRemap.Text
