import PadRemap.Evdev.Assembler
import PadRemap.Proofs.Filter.Rescaling

/-! The ranges that devices report. A raw value is moved onto the range of its axis: the ends of
the one range go to the ends of the other, values beyond an end stay at that end, and a larger raw
value never comes out smaller. A dpad axis takes only the side of the centre. -/

namespace PadRemap.Evdev

open Word

variable {a : Axis} {low high v w : Int}

def IsDpad (a : Axis) : Prop := a = .dpadX ∨ a = .dpadY

instance (a : Axis) : Decidable (IsDpad a) := inferInstanceAs (Decidable (_ ∨ _))

def side? (v low high : Int) : Option Int := do
  let sum ← short? (low + high)
  let offset ← short? (v - sum.tdiv 2)
  pure offset.sign

/-- The moved value, computed in words: of 32 bits up to the offset, of 64 bits after it. -/
def moved? (a : Axis) (v low high : Int) : Option Int := do
  let width ← short? (high - low)
  let side ← short? (a.max - a.min)
  let offset ← short? (Single.clamp low high v - low)
  let moved ← rescaled? offset side width
  let out ← long? (a.min + moved)
  pure (out.bmod 4294967296)

def scaled? (a : Axis) (v low high : Int) : Option Int :=
  if high ≤ low then some v
  else if IsDpad a then side? v low high
  else moved? a v low high

theorem sign_mono (h : v ≤ w) : v.sign ≤ w.sign := by
  grind

theorem scale_of_dpad (ha : IsDpad a) (h : low < high) (v : Int) :
    scale a v low high = (v - (low + high).tdiv 2).sign := by
  rcases ha with rfl | rfl <;> exact if_neg (Int.not_le.mpr h)

def height (a : Axis) (v low high : Int) : Int :=
  rescaled (Single.clamp low high v - low) (a.max - a.min) (high - low)

theorem scale_of_not_dpad (ha : ¬IsDpad a) (h : low < high) (v : Int) :
    scale a v low high = a.min + height a v low high := by
  unfold scale
  rw [if_neg (Int.not_le.mpr h)]
  cases a with
  | dpadX => exact absurd (.inl rfl) ha
  | dpadY => exact absurd (.inr rfl) ha
  | _ => rfl

theorem side_nonneg (a : Axis) : 0 ≤ a.max - a.min := Int.sub_nonneg_of_le a.min_le_max

theorem clamp_mem (h : low < high) (v : Int) :
    low ≤ Single.clamp low high v ∧ Single.clamp low high v ≤ high :=
  ⟨Single.low_le_clamp (Int.le_of_lt h) v, Single.clamp_le_high (Int.le_of_lt h) v⟩

theorem height_mono (a : Axis) (h : low < high) (hvw : v ≤ w) :
    height a v low high ≤ height a w low high := by
  have hclamp := Single.clamp_mono (Int.le_of_lt h) hvw
  exact rescaled_mono (side_nonneg a) (Int.sub_pos.mpr h) (by omega)

theorem height_mem (a : Axis) (h : low < high) (v : Int) :
    0 ≤ height a v low high ∧ height a v low high ≤ a.max - a.min := by
  obtain ⟨hlow, hhigh⟩ := clamp_mem h v
  constructor
  · exact rescaled_nonneg (side_nonneg a) (Int.sub_pos.mpr h) (by omega)
  · exact rescaled_le (side_nonneg a) (Int.sub_pos.mpr h) (by omega)

theorem scale_mono (a : Axis) (h : low < high) (hvw : v ≤ w) :
    scale a v low high ≤ scale a w low high := by
  by_cases ha : IsDpad a
  · rw [scale_of_dpad ha h, scale_of_dpad ha h]
    exact sign_mono (by omega)
  · rw [scale_of_not_dpad ha h, scale_of_not_dpad ha h]
    exact Int.add_le_add_left (height_mono a h hvw) a.min

theorem inRange_scale (ha : ¬IsDpad a) (h : low < high) (v : Int) :
    a.InRange (scale a v low high) := by
  obtain ⟨hnonneg, hle⟩ := height_mem a h v
  rw [scale_of_not_dpad ha h]
  constructor <;> omega

theorem scale_low (ha : ¬IsDpad a) (h : low < high) : scale a low low high = a.min := by
  have hheight : height a low low high = 0 := by
    rw [height, Single.clamp_of_mem (Int.le_refl _) (Int.le_of_lt h), Int.sub_self, rescaled_zero]
  rw [scale_of_not_dpad ha h, hheight, Int.add_zero]

theorem scale_high (ha : ¬IsDpad a) (h : low < high) : scale a high low high = a.max := by
  have hheight : height a high low high = a.max - a.min := by
    rw [height, Single.clamp_of_mem (Int.le_of_lt h) (Int.le_refl _)]
    exact rescaled_width (Int.sub_pos.mpr h)
  rw [scale_of_not_dpad ha h, hheight, Int.add_comm, Int.sub_add_cancel]

theorem scale_dpad_cases (ha : IsDpad a) (h : low < high) (v : Int) :
    scale a v low high = -1 ∨ scale a v low high = 0 ∨ scale a v low high = 1 := by
  rw [scale_of_dpad ha h]
  rcases Int.sign_trichotomy (v - (low + high).tdiv 2) with hs | hs | hs
  · exact .inr (.inr hs)
  · exact .inr (.inl hs)
  · exact .inl hs

theorem scale_dpad_ends (ha : IsDpad a) (h : 2 ≤ high - low) :
    scale a low low high = -1 ∧ scale a high low high = 1 := by
  -- half of the sum is rounded toward zero, which is up for some ranges and down for others
  have hhalf : low + high - 1 ≤ 2 * (low + high).tdiv 2 ∧
      2 * (low + high).tdiv 2 ≤ low + high + 1 := by
    grind
  rw [scale_of_dpad ha (by omega), scale_of_dpad ha (by omega)]
  exact ⟨Int.sign_eq_neg_one_of_neg (by omega), Int.sign_eq_one_of_pos (by omega)⟩

/-- A device with the range of the axis itself reports the values of the axis. -/
theorem scale_axis (h : a.InRange v) : scale a v a.min a.max = v := by
  have hlt : a.min < a.max := Int.lt_of_le_of_lt a.min_le_zero a.zero_lt_max
  by_cases ha : IsDpad a
  · rw [scale_of_dpad ha hlt]
    obtain ⟨hlow, hhigh⟩ := h
    rcases ha with rfl | rfl
    all_goals
      change -1 ≤ v at hlow
      change v ≤ 1 at hhigh
      obtain rfl | rfl | rfl : v = -1 ∨ v = 0 ∨ v = 1 := by omega
      all_goals rfl
  · have hheight : height a v a.min a.max = v - a.min := by
      rw [height, Single.clamp_of_mem h.1 h.2]
      exact rescaled_same (Int.sub_pos.mpr hlt)
    rw [scale_of_not_dpad ha hlt, hheight, Int.add_comm, Int.sub_add_cancel]

theorem side?_eq (hsum : Short (low + high)) (hv : Short (v - (low + high).tdiv 2)) :
    side? v low high = some (v - (low + high).tdiv 2).sign := by
  rw [side?, short?_eq hsum, Option.bind_eq_bind, Option.bind_some, short?_eq hv]
  rfl

theorem moved?_eq (ha : ¬IsDpad a) (h : low < high) (hwidth : Short (high - low)) (v : Int) :
    moved? a v low high = some (scale a v low high) := by
  obtain ⟨hlow, hhigh⟩ := clamp_mem h v
  have hside : (a.max - a.min).natAbs ≤ 65536 := by
    cases a <;> decide
  have hout := (inRange_scale ha h v).natAbs_le
  have hwidth' := hwidth.2
  obtain ⟨hmoved, hbound⟩ := rescaled?_eq (Single.clamp low high v - low) (a.max - a.min)
    (high - low) (by omega) hside (by omega) (by omega)
  rw [scale_of_not_dpad ha h, height, rescaled] at hout ⊢
  simp only [moved?, short?_eq hwidth,
    short?_eq (show Short (a.max - a.min) from ⟨by omega, by omega⟩),
    short?_eq (show Short (Single.clamp low high v - low) from ⟨by omega, by omega⟩), hmoved,
    Option.bind_eq_bind, Option.bind_some]
  rw [long?_eq (by omega)]
  exact congrArg some (Int.bmod_eq_of_le (by omega) (by omega))

theorem scaled?_eq (h : low < high) (hwidth : Short (high - low)) (hsum : Short (low + high))
    (hv : IsDpad a → Short (v - (low + high).tdiv 2)) :
    scaled? a v low high = some (scale a v low high) := by
  rw [scaled?, if_neg (Int.not_le.mpr h)]
  by_cases ha : IsDpad a
  · rw [if_pos ha, side?_eq hsum (hv ha), scale_of_dpad ha h]
  · rw [if_neg ha, moved?_eq ha h hwidth]

/-- A larger raw value never comes out smaller. The ends of the device range go to the ends of the
axis, and values beyond them to the same; on a dpad axis, to the sides of the centre where the range
has a centre. The range of the axis itself is left as it is. Words hold every number on the way, as
long as the width of the range, the sum of its ends and the offset from its centre are words. -/
theorem scale_onto_axis (a : Axis) (h : low < high) (hwidth : Short (high - low))
    (hsum : Short (low + high)) :
    (∀ v, (IsDpad a → Short (v - (low + high).tdiv 2)) →
      scaled? a v low high = some (scale a v low high)) ∧
    (∀ v w, v ≤ w → scale a v low high ≤ scale a w low high) ∧
    (¬IsDpad a → (∀ v, a.InRange (scale a v low high)) ∧
      scale a low low high = a.min ∧ scale a high low high = a.max) ∧
    (IsDpad a →
      (∀ v, scale a v low high = -1 ∨ scale a v low high = 0 ∨ scale a v low high = 1) ∧
      (2 ≤ high - low → scale a low low high = -1 ∧ scale a high low high = 1)) ∧
    (low = a.min → high = a.max → ∀ v, a.InRange v → scale a v low high = v) := by
  refine ⟨?_, ?_, ?_, ?_, ?_⟩
  · intro v hv
    exact scaled?_eq h hwidth hsum hv
  · intro v w hvw
    exact scale_mono a h hvw
  · intro ha
    exact ⟨inRange_scale ha h, scale_low ha h, scale_high ha h⟩
  · intro ha
    exact ⟨scale_dpad_cases ha h, scale_dpad_ends ha⟩
  · rintro rfl rfl v hv
    exact scale_axis hv

/-- The widest range of 32 bits on a stick, and a range with a negative odd sum on a dpad axis. -/
theorem scale_onto_axis_extremes :
    (scaled? .y2 1073741823 (-1073741824) 1073741823 = some 32767 ∧
      scale .y2 (-1073741824) (-1073741824) 1073741823 = -32768 ∧
      scale .y2 0 (-1073741824) 1073741823 = -1 ∧
      scale .y2 2147483647 (-1073741824) 1073741823 = 32767) ∧
    [-3, -2, -1, 0].map (scaled? .dpadX · (-3) 0) = [some (-1), some (-1), some 0, some 1] ∧
      scale .dpadX (-3) (-3) 0 = -1 ∧ scale .dpadX 0 (-3) 0 = 1 := by
  obtain ⟨hcomputed, -, hwide, -⟩ := scale_onto_axis .y2
    (show (-1073741824 : Int) < 1073741823 by decide) (by decide) (by decide)
  obtain ⟨-, -, -, hdpad, -⟩ := scale_onto_axis .dpadX (show (-3 : Int) < 0 by decide) (by decide)
    (by decide)
  obtain ⟨-, hlow, hhigh⟩ := hwide (by decide)
  obtain ⟨-, hends⟩ := hdpad (by decide)
  refine ⟨⟨?_, hlow, by decide, by decide⟩, by decide, hends (by decide)⟩
  rw [hcomputed _ (fun hdpad => absurd hdpad (by decide))]
  exact congrArg some hhigh

end PadRemap.Evdev
