import Mathlib.Data.String.Basic

/-! Texts as bytes. Texts in the order of their characters are texts in the order of their bytes:
the encoding of a character with a greater number is greater, and never begins with the other one.
A text whose bytes are all below 128 can be read off them. -/

namespace PadRemap.Text

def bytes (s : String) : List UInt8 := s.toUTF8.data.toList

theorem bytes_eq_flatMap (s : String) : bytes s = s.toList.flatMap String.utf8EncodeChar := by
  rw [bytes, String.toUTF8_eq_toByteArray, ← String.utf8Encode_toList, List.utf8Encode,
    List.toList_data_toByteArray]

theorem ofNat_cons_lt {a b : Nat} (h : a < b) (hb : b < 256) (xs ys : List UInt8) :
    UInt8.ofNat a :: xs < UInt8.ofNat b :: ys := by
  rw [List.cons_lt_cons_iff, UInt8.lt_iff_toNat_lt, UInt8.toNat_ofNat', UInt8.toNat_ofNat']
  omega

/-- Bytes for the numbers below a bound that keep their order whatever follows. -/
def Ordered (bound : Nat) (f : Nat → List UInt8) : Prop :=
  ∀ m n, m < n → n < bound → ∀ xs ys, f m ++ xs < f n ++ ys

theorem ordered_lead {mark bound : Nat} (h : bound + mark ≤ 256) :
    Ordered bound fun v => [UInt8.ofNat (v + mark)] := by
  intro m n hlt hn xs ys
  exact ofNat_cons_lt (by omega) (by omega) xs ys

theorem Ordered.digit {bound : Nat} {f : Nat → List UInt8} (h : Ordered bound f) :
    Ordered (64 * bound) fun v => f (v / 64) ++ [UInt8.ofNat (v % 64 + 128)] := by
  intro m n hlt hn xs ys
  rw [List.append_assoc, List.append_assoc]
  rcases Nat.lt_or_eq_of_le (Nat.div_le_div_right (c := 64) (Nat.le_of_lt hlt)) with hdiv | hdiv
  · exact h _ _ hdiv (by omega) _ _
  · rw [hdiv]
    exact List.append_left_lt (ofNat_cons_lt (by omega) (by omega) xs ys)

/-- The four forms of a character: a byte below 128, or a leading byte and one to three digits. -/
theorem utf8EncodeChar_cases (c : Char) : let v := c.val.toNat
    v < 128 ∧ String.utf8EncodeChar c = [UInt8.ofNat v] ∨
    (128 ≤ v ∧ v < 2048) ∧ String.utf8EncodeChar c =
      [UInt8.ofNat (v / 64 + 192)] ++ [UInt8.ofNat (v % 64 + 128)] ∨
    (2048 ≤ v ∧ v < 65536) ∧ String.utf8EncodeChar c =
      [UInt8.ofNat (v / 64 / 64 + 224)] ++ [UInt8.ofNat (v / 64 % 64 + 128)] ++
        [UInt8.ofNat (v % 64 + 128)] ∨
    (65536 ≤ v ∧ v < 2097152) ∧ String.utf8EncodeChar c =
      [UInt8.ofNat (v / 64 / 64 / 64 + 240)] ++ [UInt8.ofNat (v / 64 / 64 % 64 + 128)] ++
        [UInt8.ofNat (v / 64 % 64 + 128)] ++ [UInt8.ofNat (v % 64 + 128)] := by
  intro v
  have hmax : v < 2097152 := by
    have := c.valid
    simp only [UInt32.isValidChar, Nat.isValidChar] at this
    omega
  have h4096 : v / 4096 = v / 64 / 64 := by rw [Nat.div_div_eq_div_mul]
  have h262144 : v / 262144 = v / 64 / 64 / 64 := by
    rw [Nat.div_div_eq_div_mul, Nat.div_div_eq_div_mul]
  have hencode : String.utf8EncodeChar c = if v ≤ 127 then [UInt8.ofNat v]
      else if v ≤ 2047 then [UInt8.ofNat (v / 64 % 32 + 192), UInt8.ofNat (v % 64 + 128)]
      else if v ≤ 65535 then [UInt8.ofNat (v / 4096 % 16 + 224), UInt8.ofNat (v / 64 % 64 + 128),
        UInt8.ofNat (v % 64 + 128)]
      else [UInt8.ofNat (v / 262144 % 8 + 240), UInt8.ofNat (v / 4096 % 64 + 128),
        UInt8.ofNat (v / 64 % 64 + 128), UInt8.ofNat (v % 64 + 128)] := rfl
  rw [hencode, h4096, h262144]
  clear_value v
  by_cases hone : v ≤ 127
  · exact .inl ⟨by omega, if_pos hone⟩
  by_cases htwo : v ≤ 2047
  · refine .inr (.inl ⟨by omega, ?_⟩)
    rw [if_neg hone, if_pos htwo, Nat.mod_eq_of_lt (a := v / 64) (by omega)]
    rfl
  by_cases hthree : v ≤ 65535
  · refine .inr (.inr (.inl ⟨by omega, ?_⟩))
    rw [if_neg hone, if_neg htwo, if_pos hthree, Nat.mod_eq_of_lt (a := v / 64 / 64) (by omega)]
    rfl
  · refine .inr (.inr (.inr ⟨by omega, ?_⟩))
    rw [if_neg hone, if_neg htwo, if_neg hthree,
      Nat.mod_eq_of_lt (a := v / 64 / 64 / 64) (by omega)]
    rfl

theorem utf8EncodeChar_lt {c d : Char} (h : c < d) (xs ys : List UInt8) :
    String.utf8EncodeChar c ++ xs < String.utf8EncodeChar d ++ ys := by
  have hlt : c.val.toNat < d.val.toNat := h
  have htwo : Ordered (64 * 32) _ := (ordered_lead (by decide : 32 + 192 ≤ 256)).digit
  have hthree : Ordered (64 * (64 * 16)) _ :=
    (ordered_lead (by decide : 16 + 224 ≤ 256)).digit.digit
  have hfour : Ordered (64 * (64 * (64 * 8))) _ :=
    (ordered_lead (by decide : 8 + 240 ≤ 256)).digit.digit.digit
  rcases utf8EncodeChar_cases c with ⟨hm, hc⟩ | ⟨hm, hc⟩ | ⟨hm, hc⟩ | ⟨hm, hc⟩
  · rcases utf8EncodeChar_cases d with ⟨hn, hd⟩ | ⟨hn, hd⟩ | ⟨hn, hd⟩ | ⟨hn, hd⟩ <;> rw [hc, hd] <;>
      exact ofNat_cons_lt (by omega) (by omega) _ _
  · rcases utf8EncodeChar_cases d with ⟨hn, hd⟩ | ⟨hn, hd⟩ | ⟨hn, hd⟩ | ⟨hn, hd⟩ <;> rw [hc, hd]
    · exact absurd hlt (by omega)
    · exact htwo _ _ hlt (by omega) _ _
    all_goals exact ofNat_cons_lt (by omega) (by omega) _ _
  · rcases utf8EncodeChar_cases d with ⟨hn, hd⟩ | ⟨hn, hd⟩ | ⟨hn, hd⟩ | ⟨hn, hd⟩ <;> rw [hc, hd]
    · exact absurd hlt (by omega)
    · exact absurd hlt (by omega)
    · exact hthree _ _ hlt (by omega) _ _
    · exact ofNat_cons_lt (by omega) (by omega) _ _
  · rcases utf8EncodeChar_cases d with ⟨hn, hd⟩ | ⟨hn, hd⟩ | ⟨hn, hd⟩ | ⟨hn, hd⟩ <;> rw [hc, hd]
    · exact absurd hlt (by omega)
    · exact absurd hlt (by omega)
    · exact absurd hlt (by omega)
    · exact hfour _ _ hlt (by omega) _ _

theorem flatMap_utf8EncodeChar_lt {cs ds : List Char} (h : cs < ds) :
    cs.flatMap String.utf8EncodeChar < ds.flatMap String.utf8EncodeChar := by
  induction h with
  | @nil d ds =>
    obtain ⟨b, bs, hb⟩ := List.exists_cons_of_ne_nil (String.utf8EncodeChar_ne_nil (c := d))
    rw [List.flatMap_nil, List.flatMap_cons, hb]
    exact List.nil_lt_cons _ _
  | rel h =>
    rw [List.flatMap_cons, List.flatMap_cons]
    exact utf8EncodeChar_lt h _ _
  | @cons c cs ds _ ih =>
    rw [List.flatMap_cons, List.flatMap_cons]
    exact List.append_left_lt ih

/-- Texts compare as their bytes do. -/
theorem bytes_lt_iff {s t : String} : bytes s < bytes t ↔ s < t := by
  have hmono : ∀ {s t : String}, s < t → bytes s < bytes t := fun h => by
    rw [bytes_eq_flatMap, bytes_eq_flatMap]
    exact flatMap_utf8EncodeChar_lt (String.lt_iff_toList_lt.mp h)
  refine ⟨fun h => ?_, hmono⟩
  rcases lt_trichotomy s t with hst | rfl | hts
  · exact hst
  · exact absurd h (List.lt_irrefl _)
  · exact absurd h (List.lt_asymm (hmono hts))

theorem utf8EncodeChar_of_ascii {c : Char} (h : ∀ b ∈ String.utf8EncodeChar c, b < 128) :
    String.utf8EncodeChar c = [UInt8.ofNat c.toNat] ∧ c.toNat < 128 := by
  have hlead : ∀ {a : Nat} {bs : List UInt8}, 128 ≤ a → a < 256 →
      String.utf8EncodeChar c ≠ UInt8.ofNat a :: bs := by
    intro a bs hlow hhigh hc
    have hhead := UInt8.lt_iff_toNat_lt.mp (h (UInt8.ofNat a) (hc ▸ List.mem_cons_self))
    rw [UInt8.toNat_ofNat', Nat.mod_eq_of_lt hhigh] at hhead
    exact absurd hhead (Nat.not_lt.mpr hlow)
  rcases utf8EncodeChar_cases c with ⟨hv, hc⟩ | ⟨hv, hc⟩ | ⟨hv, hc⟩ | ⟨hv, hc⟩
  · exact ⟨hc, hv⟩
  · exact absurd hc (hlead (by omega) (by omega))
  · exact absurd hc (hlead (by omega) (by omega))
  · exact absurd hc (hlead (by omega) (by omega))

theorem map_flatMap_utf8EncodeChar {cs : List Char}
    (h : ∀ b ∈ cs.flatMap String.utf8EncodeChar, b < 128) :
    (cs.flatMap String.utf8EncodeChar).map (fun b => Char.ofNat b.toNat) = cs := by
  induction cs with
  | nil => rfl
  | cons c cs ih =>
    rw [List.flatMap_cons] at h ⊢
    obtain ⟨hbyte, hc⟩ := utf8EncodeChar_of_ascii fun b hb => h b (List.mem_append_left _ hb)
    have hnat : (UInt8.ofNat c.toNat).toNat = c.toNat := by
      rw [UInt8.toNat_ofNat']
      omega
    rw [List.map_append, ih fun b hb => h b (List.mem_append_right _ hb), hbyte, List.map_singleton,
      hnat, Char.ofNat_toNat, List.singleton_append]

theorem toList_of_ascii {s : String} (h : ∀ b ∈ bytes s, b < 128) :
    s.toList = (bytes s).map fun b => Char.ofNat b.toNat := by
  rw [bytes_eq_flatMap] at h ⊢
  exact (map_flatMap_utf8EncodeChar h).symm

end PadRemap.Text
