import PadRemap.Proofs.Filter.Faultless

/-! Calibration as a map of the measured range onto the range of an axis. A distance carried over
from one width to another never decreases while the distance grows, and the whole width is carried
over to the whole side. A calibrated value is put together from two such pieces, which meet at the
centre. -/

namespace PadRemap

namespace Single

variable {low high v w : Int}

theorem clamp_mono (hle : low ≤ high) (h : v ≤ w) : clamp low high v ≤ clamp low high w := by
  unfold clamp
  grind

end Single

theorem Axis.clamp_mono (a : Axis) {v w : Int} (h : v ≤ w) : a.clamp v ≤ a.clamp w :=
  Single.clamp_mono a.min_le_max h

namespace Word

variable {d e side width : Int}

def rescaled (distance side width : Int) : Int := (distance * side).tdiv width

theorem rescaled_zero (side width : Int) : rescaled 0 side width = 0 := by
  rw [rescaled, Int.zero_mul, Int.zero_tdiv]

theorem rescaled_mono (hs : 0 ≤ side) (hw : 0 < width) (h : d ≤ e) :
    rescaled d side width ≤ rescaled e side width :=
  Int.tdiv_le_tdiv hw (Int.mul_le_mul_of_nonneg_right h hs)

theorem rescaled_nonneg (hs : 0 ≤ side) (hw : 0 < width) (hd : 0 ≤ d) :
    0 ≤ rescaled d side width :=
  Int.tdiv_nonneg (Int.mul_nonneg hd hs) (Int.le_of_lt hw)

theorem rescaled_width (hw : 0 < width) : rescaled width side width = side :=
  Int.mul_tdiv_cancel_left side (Int.ne_of_gt hw)

theorem rescaled_le (hs : 0 ≤ side) (hw : 0 < width) (h : d ≤ width) :
    rescaled d side width ≤ side := by
  have hmono := rescaled_mono hs hw h
  rwa [rescaled_width hw] at hmono

theorem rescaled_same (hw : 0 < width) : rescaled d width width = d :=
  Int.mul_tdiv_cancel d (Int.ne_of_gt hw)

end Word

open Word

namespace Calibration

variable {c : Calibration} {v w : Int}

theorem rest_eq (c : Calibration) :
    c.rest = if c.axis = .lt ∨ c.axis = .rt then c.axis.min else 0 := by
  unfold rest
  cases c.axis <;> rfl

theorem inRange_rest (c : Calibration) : c.axis.InRange c.rest := by
  unfold rest
  split
  · exact ⟨Int.le_refl _, c.axis.min_le_max⟩
  · exact c.axis.inRange_zero

/-- How far below the rest position a value below the centre comes out, but for the clamp. -/
def fall (c : Calibration) (v : Int) : Int :=
  rescaled (c.center - v) (c.rest - c.axis.min) (c.center - c.low)

/-- How far above the rest position any other value comes out. -/
def rise (c : Calibration) (v : Int) : Int :=
  rescaled (v - c.center) (c.axis.max - c.rest) (c.high - c.center)

theorem apply_of_lt (h : v < c.center) : c.apply v = c.axis.clamp (c.rest - c.fall v) := by
  simp only [apply, scaled, width, fall, rescaled, if_pos h]

theorem apply_of_le (h : c.center ≤ v) : c.apply v = c.axis.clamp (c.rest + c.rise v) := by
  simp only [apply, scaled, width, rise, rescaled, if_neg (Int.not_lt.mpr h)]

theorem apply_center (c : Calibration) : c.apply c.center = c.rest := by
  have hrise : c.rise c.center = 0 := by
    rw [rise, Int.sub_self, rescaled_zero]
  rw [apply_of_le (Int.le_refl _), hrise, Int.add_zero]
  exact Axis.clamp_of_inRange c.inRange_rest

namespace Valid

theorem fall_anti (h : c.Valid) (hvw : v ≤ w) : c.fall w ≤ c.fall v := by
  have hside : c.axis.min ≤ c.rest := c.inRange_rest.1
  exact rescaled_mono (by omega) (Int.sub_pos.mpr h.1) (by omega)

theorem rise_mono (h : c.Valid) (hvw : v ≤ w) : c.rise v ≤ c.rise w := by
  have hside : c.rest ≤ c.axis.max := c.inRange_rest.2
  exact rescaled_mono (by omega) (Int.sub_pos.mpr h.2) (by omega)

theorem fall_nonneg (h : c.Valid) (hv : v ≤ c.center) : 0 ≤ c.fall v := by
  have hside : c.axis.min ≤ c.rest := c.inRange_rest.1
  exact rescaled_nonneg (by omega) (Int.sub_pos.mpr h.1) (by omega)

theorem rise_nonneg (h : c.Valid) (hv : c.center ≤ v) : 0 ≤ c.rise v := by
  have hside : c.rest ≤ c.axis.max := c.inRange_rest.2
  exact rescaled_nonneg (by omega) (Int.sub_pos.mpr h.2) (by omega)

theorem apply_low (h : c.Valid) : c.apply c.low = c.axis.min := by
  have hfall : c.fall c.low = c.rest - c.axis.min := rescaled_width (Int.sub_pos.mpr h.1)
  rw [apply_of_lt h.1, hfall, Int.sub_sub_self]
  exact Axis.clamp_of_inRange ⟨Int.le_refl _, c.axis.min_le_max⟩

theorem apply_high (h : c.Valid) : c.apply c.high = c.axis.max := by
  have hrise : c.rise c.high = c.axis.max - c.rest := rescaled_width (Int.sub_pos.mpr h.2)
  rw [apply_of_le (Int.le_of_lt h.2), hrise, Int.add_comm, Int.sub_add_cancel]
  exact Axis.clamp_of_inRange ⟨c.axis.min_le_max, Int.le_refl _⟩

theorem apply_le_rest (h : c.Valid) (hv : v < c.center) : c.apply v ≤ c.rest := by
  have hfall := h.fall_nonneg (Int.le_of_lt hv)
  calc c.apply v
      = c.axis.clamp (c.rest - c.fall v) := apply_of_lt hv
    _ ≤ c.axis.clamp c.rest := c.axis.clamp_mono (by omega)
    _ = c.rest := Axis.clamp_of_inRange c.inRange_rest

theorem rest_le_apply (h : c.Valid) (hv : c.center ≤ v) : c.rest ≤ c.apply v := by
  have hrise := h.rise_nonneg hv
  calc c.rest
      = c.axis.clamp c.rest := (Axis.clamp_of_inRange c.inRange_rest).symm
    _ ≤ c.axis.clamp (c.rest + c.rise v) := c.axis.clamp_mono (by omega)
    _ = c.apply v := (apply_of_le hv).symm

theorem apply_mono (h : c.Valid) (hvw : v ≤ w) : c.apply v ≤ c.apply w := by
  by_cases hw : w < c.center
  · have hfall := h.fall_anti hvw
    rw [apply_of_lt (Int.lt_of_le_of_lt hvw hw), apply_of_lt hw]
    exact c.axis.clamp_mono (by omega)
  · have hw : c.center ≤ w := Int.not_lt.mp hw
    by_cases hv : v < c.center
    · -- the pieces have widths of their own, and only the rest position compares them
      exact Int.le_trans (h.apply_le_rest hv) (h.rest_le_apply hw)
    · have hv : c.center ≤ v := Int.not_lt.mp hv
      have hrise := h.rise_mono hvw
      rw [apply_of_le hv, apply_of_le hw]
      exact c.axis.clamp_mono (by omega)

end Valid

/-- A calibration with an inner centre never lets a larger value come out smaller. Its ends and its
centre go to the ends and the rest of the axis, whatever the measured range. Words of 64 bits hold
every number on the way. -/
theorem monotone_through_anchors (h : c.Valid) (hc : c.InWords) :
    (∀ v, Short v → c.computed? v = some (c.apply v)) ∧
      (∀ v w, v ≤ w → c.apply v ≤ c.apply w) ∧
      (∀ v, c.axis.InRange (c.apply v)) ∧
      c.apply c.low = c.axis.min ∧
      c.apply c.center = (if c.axis = .lt ∨ c.axis = .rt then c.axis.min else 0) ∧
      c.apply c.high = c.axis.max := by
  refine ⟨?_, ?_, ?_, h.apply_low, ?_, h.apply_high⟩
  · intro v hv
    exact computed?_eq h hc hv
  · intro v w hvw
    exact h.apply_mono hvw
  · intro v
    exact c.axis.inRange_clamp _
  · rw [c.apply_center, c.rest_eq]

/-- The whole range of 32 bits on both sides of a centre next to its upper end, and a trigger whose
lower side is flat. -/
theorem monotone_through_anchors_widest :
    let c : Calibration := ⟨.y1, -2147483648, 2147483646, 2147483647⟩
    let t : Calibration := ⟨.rt, -20, 20, 200⟩
    (c.computed? (-2147483648) = some (-32768) ∧ c.apply 2147483645 = 0 ∧
      c.apply 2147483646 = 0 ∧ c.apply 2147483647 = 32767 ∧ c.apply 0 ≤ c.apply 2147483645) ∧
    (t.apply (-20) = 0 ∧ t.apply 20 = 0 ∧ t.apply 110 = 127 ∧ t.apply 200 = 255) := by
  intro c t
  have hc := monotone_through_anchors (c := c) (by decide) ⟨by decide, by decide, by decide⟩
  have ht := monotone_through_anchors (c := t) (by decide) ⟨by decide, by decide, by decide⟩
  obtain ⟨hcomputed, hmono, -, hlow, hcenter, hhigh⟩ := hc
  obtain ⟨-, -, -, hlow', hcenter', hhigh'⟩ := ht
  refine ⟨⟨?_, by decide +kernel, hcenter, hhigh, hmono _ _ (by decide)⟩, hlow', hcenter',
    by decide +kernel, hhigh'⟩
  rw [hcomputed _ (by decide)]
  exact congrArg some hlow

end Calibration

end PadRemap
