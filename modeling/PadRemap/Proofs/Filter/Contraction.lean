import PadRemap.Proofs.Filter.Rescaling

/-! A deadzone as a map of the range of an axis into itself. On each side of zero it works on the
magnitude alone: what is left of a magnitude is never more than the magnitude, grows with it, and
at the end of a stretched side it is the whole side again. The signed statements follow side by
side. -/

namespace PadRemap

open Word

namespace Deadzone

variable {d : Deadzone} {reach m n v w : Int}

/-- What is left of a magnitude on a side of the axis with some reach. -/
def kept (d : Deadzone) (reach m : Int) : Int :=
  if m < d.threshold then 0
  else if d.smooth then rescaled (m - d.threshold) reach (reach - d.threshold)
  else m

section Magnitude

theorem kept_of_lt (h : m < d.threshold) : d.kept reach m = 0 := if_pos h

theorem kept_of_smooth (hs : d.smooth = true) (h : d.threshold ≤ m) :
    d.kept reach m = rescaled (m - d.threshold) reach (reach - d.threshold) := by
  rw [kept, if_neg (Int.not_lt.mpr h), if_pos hs]

theorem kept_of_plain (hs : d.smooth = false) (h : d.threshold ≤ m) : d.kept reach m = m := by
  simp only [kept, if_neg (Int.not_lt.mpr h), hs, Bool.false_eq_true, if_false]

theorem kept_cases (d : Deadzone) (reach m : Int) :
    m < d.threshold ∧ d.kept reach m = 0 ∨
      d.threshold ≤ m ∧ d.smooth = false ∧ d.kept reach m = m ∨
      d.threshold ≤ m ∧ d.smooth = true ∧
        d.kept reach m = rescaled (m - d.threshold) reach (reach - d.threshold) := by
  by_cases hm : m < d.threshold
  · exact .inl ⟨hm, kept_of_lt hm⟩
  · have hm : d.threshold ≤ m := Int.not_lt.mp hm
    cases hs : d.smooth with
    | false => exact .inr (.inl ⟨hm, rfl, kept_of_plain hs hm⟩)
    | true => exact .inr (.inr ⟨hm, rfl, kept_of_smooth hs hm⟩)

theorem kept_threshold (hs : d.smooth = true) : d.kept reach d.threshold = 0 := by
  rw [kept_of_smooth hs (Int.le_refl _), Int.sub_self, rescaled_zero]

theorem kept_reach (hr : d.threshold < reach) : d.kept reach reach = reach := by
  rcases d.kept_cases reach reach with ⟨hlt, -⟩ | ⟨-, -, hk⟩ | ⟨-, -, hk⟩
  · exact absurd hlt (Int.lt_asymm hr)
  · exact hk
  · rw [hk, rescaled_width (Int.sub_pos.mpr hr)]

variable (ht : 0 ≤ d.threshold) (hr : d.threshold < reach)
include ht hr

theorem kept_nonneg (m : Int) : 0 ≤ d.kept reach m := by
  rcases d.kept_cases reach m with ⟨-, hk⟩ | ⟨hm, -, hk⟩ | ⟨hm, -, hk⟩
  · exact Int.le_of_eq hk.symm
  · rw [hk]
    exact Int.le_trans ht hm
  · rw [hk]
    exact rescaled_nonneg (by omega) (by omega) (by omega)

theorem kept_mono (h : m ≤ n) : d.kept reach m ≤ d.kept reach n := by
  rcases d.kept_cases reach m with ⟨-, hk⟩ | ⟨hm, hs, hk⟩ | ⟨hm, hs, hk⟩
  · rw [hk]
    exact kept_nonneg ht hr n
  · rwa [hk, kept_of_plain hs (Int.le_trans hm h)]
  · rw [hk, kept_of_smooth hs (Int.le_trans hm h)]
    exact rescaled_mono (by omega) (by omega) (by omega)

theorem kept_le (hm : 0 ≤ m) (h : m ≤ reach) : d.kept reach m ≤ m := by
  rcases d.kept_cases reach m with ⟨-, hk⟩ | ⟨-, -, hk⟩ | ⟨-, -, hk⟩
  · rwa [hk]
  · exact Int.le_of_eq hk
  · have hwidth : 0 < reach - d.threshold := Int.sub_pos.mpr hr
    have hstretch : d.threshold * m ≤ d.threshold * reach := Int.mul_le_mul_of_nonneg_left h ht
    have hproduct : (m - d.threshold) * reach ≤ m * (reach - d.threshold) := by
      rw [Int.sub_mul, Int.mul_sub, Int.mul_comm m d.threshold]
      omega
    calc d.kept reach m
        = rescaled (m - d.threshold) reach (reach - d.threshold) := hk
      _ ≤ (m * (reach - d.threshold)).tdiv (reach - d.threshold) :=
          Int.tdiv_le_tdiv hwidth hproduct
      _ = m := Int.mul_tdiv_cancel m (Int.ne_of_gt hwidth)

end Magnitude

theorem natAbs_le_reach (hv : d.axis.InRange v) : (v.natAbs : Int) ≤ d.reach v := by
  obtain ⟨hlow, hhigh⟩ := hv
  unfold reach
  split <;> omega

/-- The sign is put back on what is left of the magnitude, and the word of 32 bits holds it. -/
theorem apply_eq (hd : d.Valid) (hv : d.axis.InRange v) :
    d.apply v = v.sign * d.kept (d.reach v) v.natAbs := by
  obtain ⟨ht, hmax⟩ := hd
  have hr : d.threshold < d.reach v := Int.lt_of_lt_of_le hmax (d.max_le_reach hv)
  unfold apply
  by_cases hsilent : d.Silences v
  · rw [if_pos hsilent, kept_of_lt hsilent, Int.mul_zero]
  · have hloud : d.threshold ≤ v.natAbs := Int.not_lt.mp hsilent
    rw [if_neg hsilent]
    cases hs : d.smooth with
    | false =>
      rw [kept_of_plain hs hloud, Int.sign_mul_natAbs]
      rfl
    | true =>
      have hnonneg := kept_nonneg ht hr v.natAbs
      have hle := kept_le ht hr (Int.natCast_nonneg _) (natAbs_le_reach hv)
      have hkept : (d.kept (d.reach v) v.natAbs).natAbs ≤ 32768 := by
        have := hv.natAbs_le
        omega
      have hsmall := natAbs_mul_le (natAbs_sign_le v) hkept
      rw [if_pos rfl]
      change (v.sign * rescaled (v.natAbs - d.threshold) (d.reach v)
        (d.reach v - d.threshold)).bmod 4294967296 = _
      rw [← kept_of_smooth hs hloud]
      exact Int.bmod_eq_of_le (by omega) (by omega)

theorem apply_of_neg (hd : d.Valid) (hv : d.axis.InRange v) (hneg : v < 0) :
    d.apply v = -d.kept (-d.axis.min) (-v) := by
  rw [apply_eq hd hv, Int.sign_eq_neg_one_of_neg hneg, Int.neg_one_mul, reach, if_pos hneg,
    Int.ofNat_natAbs_of_nonpos (Int.le_of_lt hneg)]

theorem apply_of_nonneg (hd : d.Valid) (hv : d.axis.InRange v) (hpos : 0 ≤ v) :
    d.apply v = d.kept d.axis.max v := by
  rw [apply_eq hd hv, reach, if_neg (Int.not_lt.mpr hpos), Int.natAbs_of_nonneg hpos]
  rcases Int.lt_or_eq_of_le hpos with hpos | rfl
  · rw [Int.sign_eq_one_of_pos hpos, Int.one_mul]
  · -- at zero the sign is lost, and nothing is left of the magnitude either
    have hnonneg := kept_nonneg hd.1 hd.2 0
    have hle := kept_le hd.1 hd.2 (Int.le_refl 0) (Int.le_of_lt d.axis.zero_lt_max)
    rw [Int.sign_zero, Int.zero_mul]
    omega

theorem threshold_lt_neg_min (hd : d.Valid) (hv : d.axis.InRange v) (hneg : v < 0) :
    d.threshold < -d.axis.min := by
  have hmax := d.max_le_reach hv
  rw [reach, if_pos hneg] at hmax
  exact Int.lt_of_lt_of_le hd.2 hmax

theorem le_apply_of_neg (hd : d.Valid) (hv : d.axis.InRange v) (hneg : v < 0) :
    v ≤ d.apply v ∧ d.apply v ≤ 0 := by
  have hr := threshold_lt_neg_min hd hv hneg
  have hnonneg := kept_nonneg hd.1 hr (-v)
  have hle := kept_le hd.1 hr (m := -v) (by omega) (Int.neg_le_neg hv.1)
  rw [apply_of_neg hd hv hneg]
  omega

theorem apply_le_of_nonneg (hd : d.Valid) (hv : d.axis.InRange v) (hpos : 0 ≤ v) :
    0 ≤ d.apply v ∧ d.apply v ≤ v := by
  rw [apply_of_nonneg hd hv hpos]
  exact ⟨kept_nonneg hd.1 hd.2 v, kept_le hd.1 hd.2 hpos hv.2⟩

theorem apply_mono (hd : d.Valid) (hv : d.axis.InRange v) (hw : d.axis.InRange w) (h : v ≤ w) :
    d.apply v ≤ d.apply w := by
  by_cases hneg : w < 0
  · -- magnitudes count downwards below zero
    have hnegv : v < 0 := Int.lt_of_le_of_lt h hneg
    rw [apply_of_neg hd hv hnegv, apply_of_neg hd hw hneg]
    exact Int.neg_le_neg
      (kept_mono hd.1 (threshold_lt_neg_min hd hw hneg) (Int.neg_le_neg h))
  · have hpos : 0 ≤ w := Int.not_lt.mp hneg
    by_cases hneg : v < 0
    · exact Int.le_trans (le_apply_of_neg hd hv hneg).2 (apply_le_of_nonneg hd hw hpos).1
    · rw [apply_of_nonneg hd hv (Int.not_lt.mp hneg), apply_of_nonneg hd hw hpos]
      exact kept_mono hd.1 hd.2 h

theorem apply_max (hd : d.Valid) : d.apply d.axis.max = d.axis.max := by
  rw [apply_of_nonneg hd ⟨d.axis.min_le_max, Int.le_refl _⟩ (Int.le_of_lt d.axis.zero_lt_max)]
  exact kept_reach hd.2

theorem apply_min (hd : d.Valid) : d.apply d.axis.min = d.axis.min := by
  have hv : d.axis.InRange d.axis.min := ⟨Int.le_refl _, d.axis.min_le_max⟩
  rcases Int.lt_or_eq_of_le d.axis.min_le_zero with hneg | hzero
  · rw [apply_of_neg hd hv hneg, kept_reach (threshold_lt_neg_min hd hv hneg), Int.neg_neg]
  · have happly := apply_le_of_nonneg hd hv (Int.le_of_eq hzero.symm)
    omega

theorem apply_of_silences (h : d.Silences v) : d.apply v = 0 := if_pos h

theorem apply_of_plain (hs : d.smooth = false) (h : d.threshold ≤ v.natAbs) : d.apply v = v := by
  rw [apply, if_neg (show ¬d.Silences v from Int.not_lt.mpr h), hs]
  rfl

theorem apply_between (hd : d.Valid) (hv : d.axis.InRange v) :
    v ≤ d.apply v ∧ d.apply v ≤ 0 ∨ 0 ≤ d.apply v ∧ d.apply v ≤ v := by
  by_cases hneg : v < 0
  · exact .inl (le_apply_of_neg hd hv hneg)
  · exact .inr (apply_le_of_nonneg hd hv (Int.not_lt.mp hneg))

theorem sign_apply (hd : d.Valid) (hv : d.axis.InRange v) :
    d.apply v = 0 ∨ (d.apply v).sign = v.sign := by
  rcases apply_between hd hv with ⟨hle, hzero⟩ | ⟨hzero, hle⟩
  · rcases Int.lt_or_eq_of_le hzero with hneg | heq
    · right
      rw [Int.sign_eq_neg_one_of_neg hneg, Int.sign_eq_neg_one_of_neg (by omega)]
    · exact .inl heq
  · rcases Int.lt_or_eq_of_le hzero with hpos | heq
    · right
      rw [Int.sign_eq_one_of_pos hpos, Int.sign_eq_one_of_pos (by omega)]
    · exact .inl heq.symm

theorem natAbs_apply_le (hd : d.Valid) (hv : d.axis.InRange v) :
    (d.apply v).natAbs ≤ v.natAbs := by
  rcases apply_between hd hv with h | h <;> omega

theorem inRange_apply (hd : d.Valid) (hv : d.axis.InRange v) : d.axis.InRange (d.apply v) := by
  have hzero := d.axis.inRange_zero
  rcases apply_between hd hv with ⟨hle, hle'⟩ | ⟨hle, hle'⟩
  · exact ⟨Int.le_trans hv.1 hle, Int.le_trans hle' hzero.2⟩
  · exact ⟨Int.le_trans hzero.1 hle, Int.le_trans hle' hv.2⟩

theorem apply_apply (hs : d.smooth = false) (v : Int) : d.apply (d.apply v) = d.apply v := by
  by_cases hsilent : d.Silences v
  · rw [apply_of_silences hsilent, apply_zero]
  · rw [apply_of_plain hs (Int.not_lt.mp hsilent), apply_of_plain hs (Int.not_lt.mp hsilent)]

/-- What a deadzone does to the values of its axis. -/
structure Contracts (d : Deadzone) : Prop where
  monotone : ∀ v w, d.axis.InRange v → d.axis.InRange w → v ≤ w → d.apply v ≤ d.apply w
  silent : ∀ v, d.axis.InRange v → (v.natAbs : Int) < d.threshold → d.apply v = 0
  sign : ∀ v, d.axis.InRange v → d.apply v = 0 ∨ (d.apply v).sign = v.sign
  magnitude : ∀ v, d.axis.InRange v → (d.apply v).natAbs ≤ v.natAbs
  inRange : ∀ v, d.axis.InRange v → d.axis.InRange (d.apply v)
  edge : d.smooth = true → ∀ v, d.axis.InRange v → (v.natAbs : Int) = d.threshold → d.apply v = 0
  ends : d.smooth = true → d.apply d.axis.min = d.axis.min ∧ d.apply d.axis.max = d.axis.max
  passed : d.smooth = false → ∀ v, d.axis.InRange v → d.threshold ≤ v.natAbs → d.apply v = v
  idempotent : d.smooth = false → ∀ v, d.axis.InRange v → d.apply (d.apply v) = d.apply v
  computed : ∀ v, d.axis.InRange v → d.computed? v = some (d.apply v)

theorem Valid.contracts (hd : d.Valid) : d.Contracts where
  monotone _ _ := apply_mono hd
  silent _ _ := apply_of_silences
  sign _ := sign_apply hd
  magnitude _ := natAbs_apply_le hd
  inRange _ := inRange_apply hd
  edge hs v hv h := by
    rw [apply_eq hd hv, h, kept_threshold hs, Int.mul_zero]
  ends _ := ⟨apply_min hd, apply_max hd⟩
  passed hs _ _ := apply_of_plain hs
  idempotent hs v _ := apply_apply hs v
  computed _ := computed?_eq hd

end Deadzone

theorem FilterSpec.build_deadzone {name : String} {a : Axis} (ha : Axis.parse name = .ok a)
    (threshold : Int) (smooth : Bool) :
    (FilterSpec.deadzone name threshold smooth).build =
      if (⟨a, threshold, smooth⟩ : Deadzone).Valid then .ok (.deadzone ⟨a, threshold, smooth⟩)
      else .error (.deadzoneOutside ⟨a, threshold, smooth⟩) := by
  rw [build, axisOf, ha]
  rfl

namespace Deadzone

/-- A deadzone is accepted just where its threshold is at least zero and less than the greatest
value of its axis. Then no value gets larger in magnitude or changes its side, and the order of the
values stays. -/
theorem contracts_of_accepted (d : Deadzone) :
    (∀ name, Axis.parse name = .ok d.axis →
      ((FilterSpec.deadzone name d.threshold d.smooth).build = .ok (.deadzone d) ↔
        0 ≤ d.threshold ∧ d.threshold < d.axis.max)) ∧
      (0 ≤ d.threshold → d.threshold < d.axis.max → d.Contracts) := by
  refine ⟨fun name ha => ?_, fun hlow hhigh => Valid.contracts ⟨hlow, hhigh⟩⟩
  rw [FilterSpec.build_deadzone ha]
  constructor
  · intro h
    split at h
    · next hd => exact hd
    · cases h
  · intro hd
    exact if_pos hd

/-- The last threshold that a stick admits leaves a width of one above zero and of two below. -/
theorem contracts_of_accepted_last_threshold :
    let d : Deadzone := ⟨.x1, 32766, true⟩
    (FilterSpec.deadzone "X1" 32766 true).build = .ok (.deadzone d) ∧ d.Contracts ∧
      [-32768, -32767, -32766, 32766, 32767].map d.apply = [-32768, -16384, 0, 0, 32767] := by
  intro d
  have hname : Axis.parse "X1" = .ok d.axis := by with_unfolding_all rfl
  obtain ⟨haccepted, hcontracts⟩ := contracts_of_accepted d
  exact ⟨(haccepted "X1" hname).mpr (by decide), hcontracts (by decide) (by decide),
    by decide +kernel⟩

end Deadzone

end PadRemap
