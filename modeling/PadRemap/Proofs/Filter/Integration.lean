import Mathlib.Algebra.BigOperators.Ring.List
import Mathlib.Data.List.Induction
import Mathlib.Data.Nat.ModEq
import PadRemap.Proofs.Filter.Faultless
import PadRemap.Proofs.Filter.Mealy

/-! Integration over time. Every tick moves a position in the direction of its deflection and keeps
it in range. A time that is cut into several ticks leads as far as one tick of the whole time but
for what the ticks lose by rounding, which is less than one unit for each of them. -/

namespace PadRemap

open Word

namespace Word

variable {σ p low high : Int}

theorem tdiv_sign_mul (hσ : σ = 1 ∨ σ = 0 ∨ σ = -1) (n d : Nat) :
    (σ * n).tdiv d = σ * (n / d : Nat) := by
  rcases hσ with rfl | rfl | rfl
  · rw [Int.one_mul, Int.one_mul, Int.ofNat_tdiv]
  · rw [Int.zero_mul, Int.zero_mul, Int.zero_tdiv]
  · rw [Int.neg_one_mul, Int.neg_one_mul, Int.neg_tdiv, Int.ofNat_tdiv]

/-- Two moves in one direction are one move, whether or not they end at the border. -/
theorem clamp_clamp_add (hσ : σ = 1 ∨ σ = 0 ∨ σ = -1) (hlow : low ≤ p) (hhigh : p ≤ high)
    (m n : Nat) :
    Single.clamp low high (Single.clamp low high (p + σ * m) + σ * n) =
      Single.clamp low high (p + σ * (m + n : Nat)) := by
  unfold Single.clamp
  rcases hσ with rfl | rfl | rfl <;> split_ifs <;> omega

/-- A border can only take away from the difference of two moves. -/
theorem exists_clamp_add (hσ : σ = 1 ∨ σ = 0 ∨ σ = -1) (h : low ≤ high) (p : Int) {m n d : Nat}
    (hle : m ≤ n) (hd : n ≤ m + d) :
    ∃ k ≤ d, Single.clamp low high (p + σ * n) = Single.clamp low high (p + σ * m) + σ * k := by
  refine ⟨(Single.clamp low high (p + σ * n) - Single.clamp low high (p + σ * m)).natAbs, ?_⟩
  unfold Single.clamp
  rcases hσ with rfl | rfl | rfl <;> split_ifs <;> omega

/-- The whole quotient is between the sum of the quotients and one more for each cut. -/
theorem sum_div_le (d : Nat) (xs : List Nat) :
    (xs.map (· / d)).sum ≤ xs.sum / d ∧
      xs.sum / d ≤ (xs.map (· / d)).sum + (xs.length - 1) := by
  induction xs with
  | nil => simp
  | cons x xs ih =>
    have hlow : x / d + xs.sum / d ≤ (x + xs.sum) / d := Nat.div_add_div_le_add_div
    have hhigh := Nat.add_div_le_div_add_div_add_one x xs.sum d
    simp only [List.map_cons, List.sum_cons, List.length_cons]
    cases xs with
    | nil => simp
    | cons y ys =>
      rw [List.length_cons] at *
      omega

end Word

namespace Track

variable {t : Track} {v : Int}

def heading (speed v : Int) : Int := (speed * v).sign

/-- How many thousandths of a unit a deflection is worth in each millisecond. -/
def rate (speed v : Int) : Nat := if threshold < v.natAbs then (speed * v).natAbs / 32768 else 0

theorem heading_cases (speed v : Int) :
    heading speed v = 1 ∨ heading speed v = 0 ∨ heading speed v = -1 := Int.sign_trichotomy _

theorem delta_eq (t : Track) (v : Int) (ms : Nat) :
    t.delta v ms = heading t.speed v * ((t.speed * v).natAbs / 32768 * ms / 1000 : Nat) := by
  -- both quotients are rounded toward zero, so the sign can be taken out of them
  have hpace : t.pace v = heading t.speed v * ((t.speed * v).natAbs / 32768 : Nat) := by
    rw [← tdiv_sign_mul (heading_cases ..), heading, Int.sign_mul_natAbs]
    rfl
  rw [delta, hpace, Int.mul_assoc, ← Int.natCast_mul]
  exact tdiv_sign_mul (heading_cases ..) _ 1000

theorem advance_of_loud (t : Track) (h : threshold < v.natAbs) (ms : Nat) :
    t.advance v ms =
      { t with position := Single.clamp (-32768) 32767 (t.position + t.delta v ms) } := if_pos h

theorem advance_of_quiet (t : Track) (h : v.natAbs ≤ threshold) (ms : Nat) :
    t.advance v ms = t := if_neg (Nat.not_lt.mpr h)

structure Held (t : Track) : Prop where
  low : -32768 ≤ t.position
  high : t.position ≤ 32767

theorem Held.clamp (h : t.Held) : Single.clamp (-32768) 32767 t.position = t.position :=
  Single.clamp_of_mem h.low h.high

theorem Held.inRange (h : t.Held) (ha : t.axis.isStick = true) : t.axis.InRange t.position := by
  obtain ⟨hlow, hhigh⟩ := h
  unfold Axis.InRange
  cases hc : t.axis <;> rw [hc] at ha <;> cases ha
  all_goals exact ⟨hlow, hhigh⟩

theorem Held.advance (h : t.Held) (v : Int) (ms : Nat) : (t.advance v ms).Held := by
  unfold Track.advance
  split
  · exact ⟨Single.low_le_clamp (by decide) _, Single.clamp_le_high (by decide) _⟩
  · exact h

theorem Held.position_advance (h : t.Held) (v : Int) (ms : Nat) :
    (t.advance v ms).position = Single.clamp (-32768) 32767
      (t.position + heading t.speed v * (rate t.speed v * ms / 1000 : Nat)) := by
  by_cases hv : threshold < v.natAbs
  · rw [advance_of_loud t hv, rate, if_pos hv, delta_eq]
  · rw [advance_of_quiet t (Nat.not_lt.mp hv), rate, if_neg hv, Nat.zero_mul, Nat.zero_div,
      Int.natCast_zero, Int.mul_zero, Int.add_zero, h.clamp]

def along (t : Track) (us : List Tick) : Track :=
  us.foldl (fun t u => t.advance (u.message.axis t.axis) u.ms) t

theorem along_concat (t : Track) (us : List Tick) (u : Tick) :
    t.along (us ++ [u]) =
      (t.along us).advance (u.message.axis (t.along us).axis) u.ms := List.foldl_concat ..

theorem along_append (t : Track) (us vs : List Tick) :
    t.along (us ++ vs) = (t.along us).along vs := List.foldl_append

theorem Held.along (h : t.Held) (us : List Tick) : (t.along us).Held := by
  induction us using List.reverseRecOn with
  | nil => exact h
  | append_singleton us u ih =>
    rw [along_concat]
    exact ih.advance _ _

theorem rest_along (t : Track) (us : List Tick) : (t.along us).rest = t.rest := by
  induction us using List.reverseRecOn with
  | nil => rfl
  | append_singleton us u ih => rw [along_concat, rest_advance, ih]

theorem axis_along (t : Track) (us : List Tick) : (t.along us).axis = t.axis := by
  have h := congrArg Track.axis (t.rest_along us)
  exact h

theorem speed_along (t : Track) (us : List Tick) : (t.along us).speed = t.speed := by
  have h := congrArg Track.speed (t.rest_along us)
  exact h

/-- At a constant deflection the moves add up, and the border counts once. -/
theorem Held.position_along (h : t.Held) {us : List Tick}
    (hus : ∀ u ∈ us, u.message.axis t.axis = v) :
    (t.along us).position = Single.clamp (-32768) 32767 (t.position +
      heading t.speed v * ((us.map fun u => rate t.speed v * u.ms / 1000).sum : Nat)) := by
  induction us using List.reverseRecOn with
  | nil =>
    simp only [List.map_nil, List.sum_nil, Int.natCast_zero, Int.mul_zero, Int.add_zero, h.clamp]
    rfl
  | append_singleton us u ih =>
    have hu : u.message.axis t.axis = v := hus u (by simp)
    rw [along_concat, (h.along us).position_advance, axis_along, speed_along, hu,
      ih fun w hw => hus w (List.mem_append_left _ hw),
      clamp_clamp_add (heading_cases ..) h.low h.high, List.map_append, List.sum_append,
      List.map_singleton, List.sum_singleton]

/-- What a position over time does, at the speed of an axis. -/
structure Integrates (a : Axis) (speed : Int) (pos : List Tick → Int) : Prop where
  start : pos [] = 0
  moved : ∀ us u, 4000 < (u.message.axis a).natAbs → pos (us ++ [u]) =
    Single.clamp (-32768) 32767
      (pos us + ((speed * u.message.axis a).tdiv 32768 * u.ms).tdiv 1000)
  low : ∀ us, -32768 ≤ pos us
  high : ∀ us, pos us ≤ 32767
  still : ∀ us u, (u.message.axis a).natAbs ≤ 4000 → pos (us ++ [u]) = pos us
  directed : ∀ us u, ∃ k : Nat,
    pos (us ++ [u]) = pos us + heading speed (u.message.axis a) * k
  divided : ∀ us parts whole, (∀ u ∈ parts, u.message.axis a = whole.message.axis a) →
    (parts.map Tick.ms).sum = whole.ms →
    ∃ k : Nat, k ≤ parts.length - 1 ∧
      pos (us ++ [whole]) = pos (us ++ parts) + heading speed (whole.message.axis a) * k

theorem Held.directed (h : t.Held) (v : Int) (ms : Nat) :
    ∃ k : Nat, (t.advance v ms).position = t.position + heading t.speed v * k := by
  obtain ⟨k, -, hk⟩ := exists_clamp_add (heading_cases t.speed v)
    (show (-32768 : Int) ≤ 32767 by decide) t.position (Nat.zero_le (rate t.speed v * ms / 1000))
    (Nat.le_add_left _ 0)
  refine ⟨k, ?_⟩
  rw [h.position_advance, hk, Int.natCast_zero, Int.mul_zero, Int.add_zero, h.clamp]

theorem Held.divided (h : t.Held) {parts : List Tick} {whole : Tick}
    (hparts : ∀ u ∈ parts, u.message.axis t.axis = whole.message.axis t.axis)
    (hms : (parts.map Tick.ms).sum = whole.ms) :
    ∃ k : Nat, k ≤ parts.length - 1 ∧ (t.along [whole]).position =
      (t.along parts).position + heading t.speed (whole.message.axis t.axis) * k := by
  obtain ⟨hle, hd⟩ := sum_div_le 1000
    (parts.map fun u => rate t.speed (whole.message.axis t.axis) * u.ms)
  rw [List.sum_map_mul_left, hms, List.map_map] at hle hd
  rw [List.length_map] at hd
  obtain ⟨k, hk, hposition⟩ := exists_clamp_add
    (heading_cases t.speed (whole.message.axis t.axis)) (show (-32768 : Int) ≤ 32767 by decide)
    t.position hle hd
  refine ⟨k, hk, ?_⟩
  rw [h.position_along hparts]
  exact (h.position_advance _ _).trans hposition

theorem held_along (a : Axis) (speed : Int) (us : List Tick) :
    (along { axis := a, speed } us).Held := Held.along ⟨by simp, by simp⟩ us

theorem integrates_along (a : Axis) (speed : Int) :
    Integrates a speed fun us => (along { axis := a, speed } us).position := by
  have hheld := held_along a speed
  refine ⟨rfl, ?_, fun us => (hheld us).low, fun us => (hheld us).high, ?_, ?_, ?_⟩
  · intro us u hu
    simp only [along_concat, axis_along]
    rw [advance_of_loud _ hu, delta, pace, speed_along]
    rfl
  · intro us u hu
    simp only [along_concat, axis_along]
    rw [advance_of_quiet _ hu]
  · intro us u
    have hdirected := (hheld us).directed (u.message.axis a) u.ms
    rw [speed_along] at hdirected
    simp only [along_concat, axis_along]
    exact hdirected
  · intro us parts whole hparts hms
    have hdivided := @Held.divided _ (hheld us) parts whole
    rw [axis_along, speed_along] at hdivided
    simp only [along_append]
    exact hdivided hparts hms

end Track

namespace Integrator

section

variable (ms : Nat) {ts : List Track}

theorem getElem?_updateTracks (h : (ts.map Track.axis).Nodup) (m : Message) (i : Nat) :
    (updateTracks ms ts m).1[i]? = ts[i]?.map fun t => t.advance (m.axis t.axis) ms := by
  induction ts generalizing m i with
  | nil => rfl
  | cons t ts ih =>
    obtain ⟨ht, hts⟩ := List.nodup_cons.mp h
    cases i with
    | zero => rfl
    | succ i =>
      rw [updateTracks_cons, List.getElem?_cons_succ, List.getElem?_cons_succ, ih hts]
      apply Option.map_congr
      intro u hu
      have hne : u.axis ≠ t.axis := by
        rintro heq
        exact ht (heq ▸ List.mem_map_of_mem (List.mem_of_getElem? hu))
      rw [t.axis_update_of_ne ms m hne]

theorem axis_updateTracks (h : (ts.map Track.axis).Nodup) (m : Message) {i : Nat} {t : Track}
    (ht : ts[i]? = some t) : (updateTracks ms ts m).2.axis t.axis =
      t.axis.clamp (t.advance (m.axis t.axis) ms).position := by
  induction ts generalizing m i with
  | nil => simp at ht
  | cons u ts ih =>
    obtain ⟨hu, hts⟩ := List.nodup_cons.mp h
    cases i with
    | zero =>
      obtain rfl : u = t := Option.some.inj ht
      rw [updateTracks_cons, axis_updateTracks_of_not_mem ms hu, Track.update,
        Message.axis_setAxis, Track.axis_advance, if_pos rfl]
    | succ i =>
      have hne : t.axis ≠ u.axis := by
        rintro heq
        exact hu (heq ▸ List.mem_map_of_mem (List.mem_of_getElem? ht))
      rw [updateTracks_cons, ih hts _ ht, u.axis_update_of_ne ms m hne]

end

def tick (s : Integrator) (u : Tick) : Integrator × Message := s.update u.ms u.message

def tick? (s : Integrator) (u : Tick) : Option (Integrator × Message) :=
  (computedTracks? u.ms s.tracks u.message).map fun (ts, m) => (⟨ts⟩, m)

theorem after_concat (s : Integrator) (us : List Tick) (u : Tick) :
    (Mealy.after tick s (us ++ [u])).tracks =
      (updateTracks u.ms (Mealy.after tick s us).tracks u.message).1 := by
  rw [Mealy.after_append]
  rfl

theorem nodup_after {s : Integrator} (h : (s.tracks.map Track.axis).Nodup) (us : List Tick) :
    ((Mealy.after tick s us).tracks.map Track.axis).Nodup := by
  induction us using List.reverseRecOn with
  | nil => exact h
  | append_singleton us u ih =>
    rw [after_concat, axes_updateTracks]
    exact ih

theorem inWords_after {s : Integrator} (h : ∀ t ∈ s.tracks, t.InWords) (us : List Tick) :
    ∀ t ∈ (Mealy.after tick s us).tracks, t.InWords := by
  induction us using List.reverseRecOn with
  | nil => exact h
  | append_singleton us u ih =>
    rw [after_concat]
    exact inWords_updateTracks ih u.message

theorem getElem?_after {s : Integrator} (h : (s.tracks.map Track.axis).Nodup) (us : List Tick)
    (i : Nat) : (Mealy.after tick s us).tracks[i]? = s.tracks[i]?.map (Track.along · us) := by
  induction us using List.reverseRecOn with
  | nil => simp [Mealy.after, Track.along]
  | append_singleton us u ih =>
    rw [after_concat, getElem?_updateTracks _ (nodup_after h us), ih, Option.map_map]
    apply Option.map_congr
    intro t ht
    exact (t.along_concat us u).symm

theorem axis_tick {s : Integrator} (h : (s.tracks.map Track.axis).Nodup) {i : Nat} {t : Track}
    (ht : s.tracks[i]? = some t) (hheld : t.Held) (hstick : t.axis.isStick = true)
    (us : List Tick) (u : Tick) : (tick (Mealy.after tick s us) u).2.axis t.axis =
      (t.along (us ++ [u])).position := by
  have hnow : (Mealy.after tick s us).tracks[i]? = some (t.along us) := by
    rw [getElem?_after h, ht]
    rfl
  have hout := axis_updateTracks u.ms (nodup_after h us) u.message hnow
  have hnext := (hheld.along (us ++ [u])).inRange (by rw [Track.axis_along]; exact hstick)
  rw [Track.axis_along] at hout hnext
  rw [Track.along_concat, Track.axis_along] at hnext ⊢
  exact hout.trans (Axis.clamp_of_inRange hnext)

/-- At speeds of 32 bits, ticks of 32 bits and axes of 16 bits everything stays within words of 64
bits. Each axis comes out with its position, which is an integral up to rounding. -/
theorem exact_within_rounding {speeds : List (Axis × Int)}
    (hdistinct : (speeds.map Prod.fst).Nodup)
    (hspeeds : ∀ p ∈ speeds, p.1.isStick = true ∧ Short p.2) {us : List Tick}
    (hus : ∀ u ∈ us, u.ms < 4294967296 ∧ u.message.InRange) :
    ∃ out, Mealy.run? tick? (ofSpeeds speeds) us =
        some (Mealy.after tick (ofSpeeds speeds) us, out) ∧
      out.length = us.length ∧
      ∀ (i : Nat) a speed, speeds[i]? = some (a, speed) → ∃ pos, Track.Integrates a speed pos ∧
        (∀ vs, (Mealy.after tick (ofSpeeds speeds) vs).position? i = some (pos vs)) ∧
        ∀ (n : Nat) m, out[n]? = some m → m.axis a = pos (us.take (n + 1)) := by
  have haxes : ((ofSpeeds speeds).tracks.map Track.axis).Nodup := by
    rw [ofSpeeds, List.map_map]
    exact hdistinct
  have hwords : ∀ t ∈ (ofSpeeds speeds).tracks, t.InWords := by
    intro t ht
    obtain ⟨p, hp, rfl⟩ := List.mem_map.mp ht
    exact ⟨(hspeeds p hp).2, by simp, by simp⟩
  refine ⟨_, Mealy.run?_eq tick ?_, Mealy.length_outputs _ _ _, ?_⟩
  · intro n u hu
    obtain ⟨hms, hm⟩ := hus u (List.mem_of_getElem? hu)
    rw [tick?, computedTracks?_eq (inWords_after hwords _) hm hms]
    rfl
  · intro i a speed hi
    have htrack : (ofSpeeds speeds).tracks[i]? = some { axis := a, speed } := by
      rw [ofSpeeds, List.getElem?_map, hi]
      rfl
    refine ⟨_, Track.integrates_along a speed, ?_, ?_⟩
    · intro vs
      rw [position?, getElem?_after haxes, htrack]
      rfl
    · intro n m hm
      rw [Mealy.getElem?_outputs] at hm
      obtain ⟨u, hu, rfl⟩ := Option.map_eq_some_iff.mp hm
      have hstick : a.isStick = true := (hspeeds _ (List.mem_of_getElem? hi)).1
      rw [List.take_add_one, hu]
      exact axis_tick haxes htrack (Track.held_along a speed []) hstick _ u

/-- One millisecond is too short for this speed to move the position at all, and three of them at
once move it by two units. -/
theorem exact_within_rounding_short_ticks :
    let m := (Message.neutral.setAxis .x1 32767).setAxis .y2 (-32768)
    let speeds : List (Axis × Int) := [(.y2, -2147483648), (.x1, 1000)]
    let parts : List Tick := [⟨1, m⟩, ⟨1, m⟩, ⟨1, m⟩]
    (∃ out, Mealy.run? tick? (ofSpeeds speeds) parts =
      some (Mealy.after tick (ofSpeeds speeds) parts, out)) ∧
    ∃ pos, Track.Integrates .x1 1000 pos ∧ pos parts = 0 ∧ pos [⟨3, m⟩] = 2 := by
  intro m speeds parts
  have hm : m.InRange := (Message.InRange.neutral.setAxis _ _).setAxis _ _
  have hdistinct : (speeds.map Prod.fst).Nodup := by decide
  have hspeeds : ∀ p ∈ speeds, p.1.isStick = true ∧ Short p.2 := by decide
  have hparts : ∀ u ∈ parts, u.ms < 4294967296 ∧ u.message.InRange := by simp [parts, hm]
  obtain ⟨out, hrun, -, hpos⟩ := exact_within_rounding hdistinct hspeeds hparts
  obtain ⟨pos, hintegrates, hposition, -⟩ := hpos 1 .x1 1000 rfl
  refine ⟨⟨out, hrun⟩, pos, hintegrates, Option.some.inj ?_, Option.some.inj ?_⟩
  · rw [← hposition]
    decide +kernel
  · rw [← hposition]
    decide +kernel

end Integrator

end PadRemap
