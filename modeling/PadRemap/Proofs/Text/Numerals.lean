import PadRemap.Text

/-! Numbers as they are written in decimal are read back, signed and unsigned, as far as they are
in range. -/

namespace PadRemap.Numeral

theorem digit?_digitChar {d : Nat} (h : d < 10) : digit? 10 d.digitChar = some d := by
  have hall : ∀ d < 10, digit? 10 d.digitChar = some d := by decide
  exact hall d h

theorem value?_toDigits (n : Nat) : value? 10 (Nat.toDigits 10 n) = some n := by
  induction n using Nat.strongRecOn with
  | ind n ih =>
    rw [Nat.toDigits_eq_if (by decide)]
    split
    · next h => simp [value?, digit?_digitChar h]
    · next h =>
      have hlast : digit? 10 (n % 10).digitChar = some (n % 10) :=
        digit?_digitChar (Nat.mod_lt _ (by decide))
      have hleading := ih (n / 10) (by omega)
      rw [value?] at hleading ⊢
      rw [List.foldlM_append, hleading]
      simp only [List.foldlM_cons, hlast]
      exact congrArg some (Nat.div_add_mod' n 10)

theorem natural?_toDigits (n : Nat) : natural? 10 (Nat.toDigits 10 n) = some n := by
  obtain ⟨c, cs, hcs⟩ := List.exists_cons_of_ne_nil (Nat.toDigits_ne_nil (n := n) (b := 10))
  rw [← value?_toDigits n, hcs, natural?]

theorem toNat_of_mem_toDigits {n : Nat} {c : Char} (h : c ∈ Nat.toDigits 10 n) :
    48 ≤ c.toNat ∧ c.toNat ≤ 57 := by
  have hdigit := Nat.isDigit_of_mem_toDigits (by decide) (by decide) h
  simp only [Char.isDigit, Bool.and_eq_true, decide_eq_true_eq] at hdigit
  exact hdigit

theorem unsigned?_toDigits {n bound : Nat} (h : n < bound) :
    unsigned? 10 bound (Nat.toDigits 10 n) = some n := by
  have hdigits : unsigned? 10 bound (Nat.toDigits 10 n) =
      (natural? 10 (Nat.toDigits 10 n)).filter (· < bound) := by
    unfold unsigned?
    split
    · next r hr =>
      exact absurd (toNat_of_mem_toDigits (hr ▸ List.mem_cons_self)) (by decide)
    · rfl
  rw [hdigits, natural?_toDigits]
  simp [h]

theorem word16?_toDigits (w : UInt16) : word16? (Nat.toDigits 10 w.toNat) = some w := by
  rw [word16?, unsigned?_toDigits w.toNat_lt, Option.map_some, UInt16.ofNat_toNat]

theorem toList_toString (n : Nat) : (toString n).toList = Nat.toDigits 10 n := String.toList_ofList

theorem toList_toString_natCast (n : Nat) : (toString (n : Int)).toList = Nat.toDigits 10 n :=
  String.toList_ofList

theorem toList_toString_negSucc (n : Nat) :
    (toString (Int.negSucc n)).toList = '-' :: Nat.toDigits 10 (n + 1) := by
  change ("-" ++ String.ofList (Nat.toDigits 10 (n + 1))).toList = _
  rw [String.toList_append, String.toList_ofList (l := Nat.toDigits 10 (n + 1))]
  rfl

theorem signed?_toString {low high i : Int} (h : low ≤ i ∧ i ≤ high) :
    signed? low high (toString i).toList = some i := by
  cases i with
  | ofNat n =>
    have hdigits : signed? low high (Nat.toDigits 10 n) =
        ((natural? 10 (Nat.toDigits 10 n)).map Int.ofNat).filter fun i => low ≤ i ∧ i ≤ high := by
      unfold signed?
      split
      · next r hr =>
        exact absurd (toNat_of_mem_toDigits (hr ▸ List.mem_cons_self)) (by decide)
      · next r hr =>
        exact absurd (toNat_of_mem_toDigits (hr ▸ List.mem_cons_self)) (by decide)
      · rfl
    rw [Int.ofNat_eq_natCast, toList_toString_natCast, hdigits, natural?_toDigits, Option.map_some]
    exact Option.filter_some_pos (decide_eq_true h)
  | negSucc n =>
    rw [toList_toString_negSucc, signed?, natural?_toDigits]
    exact Option.filter_some_pos (decide_eq_true h)

end PadRemap.Numeral
