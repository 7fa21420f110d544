import PadRemap.Proofs.Filter.Building
import PadRemap.Proofs.Pad.Coherence

/-! Filters computed in machine words. A number that does not fit its word, and a division by zero,
are faults. The main statement says that a chain built from specifications goes through every tick
without a fault and lets through just what it lets through with unbounded integers, and that every
axis is in range after every filter. -/

namespace PadRemap

namespace Word

def Short (v : Int) : Prop := -2147483648 ≤ v ∧ v ≤ 2147483647

def Long (v : Int) : Prop := -9223372036854775808 ≤ v ∧ v ≤ 9223372036854775807

instance (v : Int) : Decidable (Short v) := inferInstanceAs (Decidable (_ ∧ _))

instance (v : Int) : Decidable (Long v) := inferInstanceAs (Decidable (_ ∧ _))

def short? (v : Int) : Option Int := if Short v then some v else none

def long? (v : Int) : Option Int := if Long v then some v else none

def quotient? (v w : Int) : Option Int := if w = 0 then none else long? (v.tdiv w)

def rescaled? (distance side width : Int) : Option Int := do
  let distance ← long? distance
  let side ← long? side
  let product ← long? (distance * side)
  let width ← long? width
  quotient? product width

variable {v w : Int}

theorem short?_eq (h : Short v) : short? v = some v := if_pos h

theorem long?_eq (h : v.natAbs ≤ 9223372036854775807) : long? v = some v :=
  if_pos ⟨by omega, by omega⟩

theorem natAbs_mul_le {m n : Nat} (hv : v.natAbs ≤ m) (hw : w.natAbs ≤ n) :
    (v * w).natAbs ≤ m * n := by
  rw [Int.natAbs_mul]
  exact Nat.mul_le_mul hv hw

theorem natAbs_sign_le (v : Int) : v.sign.natAbs ≤ 1 := by
  rw [Int.natAbs_sign]
  split <;> decide

theorem natAbs_tdiv_le (v w : Int) : (v.tdiv w).natAbs ≤ v.natAbs := by
  rw [Int.natAbs_tdiv]
  exact Nat.div_le_self ..

theorem quotient?_eq (hv : v.natAbs ≤ 9223372036854775807) (hw : w ≠ 0) :
    quotient? v w = some (v.tdiv w) := by
  rw [quotient?, if_neg hw]
  exact long?_eq (Nat.le_trans (natAbs_tdiv_le v w) hv)

/-- Distances of 32 bits and sides of 16 bits leave room for the product. -/
theorem rescaled?_eq (distance side width : Int) (hd : distance.natAbs ≤ 4294967296)
    (hs : side.natAbs ≤ 65536) (hw : 0 < width) (hw' : width ≤ 4294967296) :
    rescaled? distance side width = some ((distance * side).tdiv width) ∧
      ((distance * side).tdiv width).natAbs ≤ 281474976710656 := by
  have hproduct : (distance * side).natAbs ≤ 281474976710656 := natAbs_mul_le hd hs
  constructor
  · have hdistance : long? distance = some distance := long?_eq (by omega)
    have hside : long? side = some side := long?_eq (by omega)
    have hheld : long? (distance * side) = some (distance * side) := long?_eq (by omega)
    have hwidth : long? width = some width := long?_eq (by omega)
    simp only [rescaled?, hdistance, hside, hheld, hwidth, Option.bind_eq_bind, Option.bind_some]
    exact quotient?_eq (by omega) (by omega)
  · exact Nat.le_trans (natAbs_tdiv_le ..) hproduct

end Word

open Word

theorem Axis.InRange.natAbs_le {a : Axis} {v : Int} (h : a.InRange v) : v.natAbs ≤ 32768 := by
  cases a <;> simp only [Axis.InRange, Axis.min, Axis.max] at h <;> omega

theorem Axis.InRange.short {a : Axis} {v : Int} (h : a.InRange v) : Short v := by
  have hv := h.natAbs_le
  constructor <;> omega

namespace Calibration

def computed? (c : Calibration) (v : Int) : Option Int := do
  if v < c.center then
    let d ← rescaled? (c.center - v) (c.rest - c.axis.min) (c.center - c.low)
    let out ← long? (c.rest - d)
    pure (c.axis.clamp out)
  else
    let d ← rescaled? (v - c.center) (c.axis.max - c.rest) (c.high - c.center)
    let out ← long? (c.rest + d)
    pure (c.axis.clamp out)

structure InWords (c : Calibration) : Prop where
  low : Short c.low
  center : Short c.center
  high : Short c.high

theorem computed?_eq {c : Calibration} (hvalid : c.Valid) (hc : c.InWords) {v : Int}
    (hv : Short v) : c.computed? v = some (c.apply v) := by
  obtain ⟨hlow, hhigh⟩ := hvalid
  obtain ⟨⟨hl, hl'⟩, ⟨hm, hm'⟩, ⟨hh, hh'⟩⟩ := hc
  obtain ⟨hv, hv'⟩ := hv
  have hsides : c.rest.natAbs ≤ 65536 ∧ (c.rest - c.axis.min).natAbs ≤ 65536 ∧
      (c.axis.max - c.rest).natAbs ≤ 65536 := by
    unfold rest
    cases c.axis <;> decide
  obtain ⟨hrest, hleft, hright⟩ := hsides
  by_cases h : v < c.center
  · obtain ⟨heq, hd⟩ := rescaled?_eq (c.center - v) (c.rest - c.axis.min) (c.center - c.low)
      (by omega) hleft (by omega) (by omega)
    simp only [computed?, apply, scaled, width, h, if_true, heq, Option.bind_eq_bind,
      Option.bind_some]
    rw [long?_eq (by omega)]
    rfl
  · obtain ⟨heq, hd⟩ := rescaled?_eq (v - c.center) (c.axis.max - c.rest) (c.high - c.center)
      (by omega) hright (by omega) (by omega)
    simp only [computed?, apply, scaled, width, h, if_false, heq, Option.bind_eq_bind,
      Option.bind_some]
    rw [long?_eq (by omega)]
    rfl

end Calibration

namespace Deadzone

def computed? (d : Deadzone) (v : Int) : Option Int := do
  let magnitude ← short? v.natAbs
  if magnitude < d.threshold then pure 0
  else if !d.smooth then pure v
  else
    let reach ← short? (d.reach v)
    let past ← short? (magnitude - d.threshold)
    let scaled ← rescaled? past reach (reach - d.threshold)
    let out ← long? (v.sign * scaled)
    pure (out.bmod 4294967296)

theorem natAbs_reach_le (d : Deadzone) (v : Int) : (d.reach v).natAbs ≤ 32768 := by
  unfold reach
  cases d.axis <;> split <;> decide

theorem max_le_reach (d : Deadzone) {v : Int} (hv : d.axis.InRange v) : d.axis.max ≤ d.reach v := by
  unfold reach
  cases h : d.axis <;> simp only [h, Axis.InRange, Axis.min, Axis.max] at hv ⊢ <;> split <;> omega

theorem computed?_eq {d : Deadzone} (hvalid : d.Valid) {v : Int} (hv : d.axis.InRange v) :
    d.computed? v = some (d.apply v) := by
  obtain ⟨hlow, hhigh⟩ := hvalid
  have hv' := hv.natAbs_le
  have hreach := d.natAbs_reach_le v
  have hmax := d.max_le_reach hv
  have hmagnitude : short? v.natAbs = some (v.natAbs : Int) := short?_eq ⟨by omega, by omega⟩
  unfold computed? apply
  rw [hmagnitude, Option.bind_eq_bind, Option.bind_some]
  by_cases hsilent : d.Silences v
  · rw [if_pos hsilent, if_pos (show (v.natAbs : Int) < d.threshold from hsilent)]
    rfl
  have hloud : ¬(v.natAbs : Int) < d.threshold := hsilent
  rw [if_neg hsilent, if_neg hloud]
  cases d.smooth with
  | false => rfl
  | true =>
    obtain ⟨heq, hscaled⟩ := rescaled?_eq (v.natAbs - d.threshold) (d.reach v)
      (d.reach v - d.threshold) (by omega) (by omega) (by omega) (by omega)
    have hout := natAbs_mul_le (natAbs_sign_le v) hscaled
    simp only [short?_eq (show Short (d.reach v) from ⟨by omega, by omega⟩),
      short?_eq (show Short (v.natAbs - d.threshold) from ⟨by omega, by omega⟩), heq,
      Option.bind_some, Bool.not_true, Bool.false_eq_true, if_false, if_true,
      scaled, width]
    rw [long?_eq (by omega)]
    rfl

end Deadzone

namespace Track

def computed? (t : Track) (v : Int) (ms : Nat) : Option Track := do
  let magnitude ← short? v.natAbs
  if threshold < magnitude then
    let product ← long? (t.speed * v)
    let pace ← quotient? product fullDeflection
    let distance ← long? (pace * ms)
    let delta ← quotient? distance 1000
    let position ← long? (t.position + delta)
    pure { t with position := Single.clamp (-32768) 32767 position }
  else pure t

structure InWords (t : Track) : Prop where
  speed : Short t.speed
  low : -32768 ≤ t.position
  high : t.position ≤ 32767

theorem InWords.advance {t : Track} (h : t.InWords) (v : Int) (ms : Nat) :
    (t.advance v ms).InWords := by
  unfold Track.advance
  split
  · exact ⟨h.speed, Single.low_le_clamp (by decide) _, Single.clamp_le_high (by decide) _⟩
  · exact h

/-- Full speed at full deflection for the longest tick is just within 64 bits. -/
theorem computed?_eq {t : Track} (h : t.InWords) {v : Int} (hv : v.natAbs ≤ 32768) {ms : Nat}
    (hms : ms < 4294967296) : t.computed? v ms = some (t.advance v ms) := by
  obtain ⟨⟨hs, hs'⟩, hlow, hhigh⟩ := h
  have hmagnitude : short? v.natAbs = some (v.natAbs : Int) := short?_eq ⟨by omega, by omega⟩
  have hspeed : t.speed.natAbs ≤ 2147483648 := by omega
  have hproduct : (t.speed * v).natAbs ≤ 2147483648 * 32768 := natAbs_mul_le hspeed hv
  have hpace : (t.pace v).natAbs ≤ 2147483648 := by
    rw [pace, Int.natAbs_tdiv]
    exact Nat.div_le_of_le_mul (Nat.mul_comm .. ▸ hproduct)
  have hdistance : (t.pace v * ms).natAbs ≤ 2147483648 * 4294967295 :=
    natAbs_mul_le hpace (by omega)
  have hdelta : (t.delta v ms).natAbs ≤ 9223372034707292160 / 1000 := by
    rw [delta, Int.natAbs_tdiv]
    exact Nat.div_le_div_right hdistance
  unfold computed? advance
  rw [hmagnitude, Option.bind_eq_bind, Option.bind_some]
  by_cases hfast : threshold < v.natAbs
  · have hpace' : quotient? (t.speed * v) fullDeflection = some (t.pace v) :=
      quotient?_eq (by omega) (by decide)
    have hdelta' : quotient? (t.pace v * ms) 1000 = some (t.delta v ms) :=
      quotient?_eq (by omega) (by decide)
    rw [if_pos (Int.ofNat_lt.mpr hfast), if_pos hfast, long?_eq (by omega)]
    simp only [Option.bind_some, hpace']
    rw [long?_eq (by omega)]
    simp only [Option.bind_some, hdelta']
    rw [long?_eq (by omega)]
    rfl
  · rw [if_neg (mt Int.ofNat_lt.mp hfast), if_neg hfast]
    rfl

end Track

namespace Integrator

def computedTracks? (ms : Nat) : List Track → Message → Option (List Track × Message)
  | [], m => some ([], m)
  | t :: ts, m => do
    let t ← t.computed? (m.axis t.axis) ms
    let (ts, m) ← computedTracks? ms ts (m.setAxis t.axis t.position)
    pure (t :: ts, m)

variable {ms : Nat}

theorem inRange_updateTracks (ts : List Track) {m : Message} (hm : m.InRange) :
    (updateTracks ms ts m).2.InRange := by
  induction ts generalizing m with
  | nil => exact hm
  | cons t ts ih => exact ih (hm.setAxis _ _)

theorem inWords_updateTracks {ts : List Track} (h : ∀ t ∈ ts, t.InWords) (m : Message) :
    ∀ t ∈ (updateTracks ms ts m).1, t.InWords := by
  induction ts generalizing m with
  | nil => exact h
  | cons t ts ih =>
    obtain ⟨ht, hts⟩ := List.forall_mem_cons.mp h
    exact List.forall_mem_cons.mpr ⟨ht.advance _ ms, ih hts _⟩

theorem computedTracks?_eq {ts : List Track} (h : ∀ t ∈ ts, t.InWords) {m : Message}
    (hm : m.InRange) (hms : ms < 4294967296) :
    computedTracks? ms ts m = some (updateTracks ms ts m) := by
  induction ts generalizing m with
  | nil => rfl
  | cons t ts ih =>
    obtain ⟨ht, hts⟩ := List.forall_mem_cons.mp h
    rw [computedTracks?, Track.computed?_eq ht (hm t.axis).natAbs_le hms, Option.bind_eq_bind,
      Option.bind_some, ih hts (hm.setAxis _ _)]
    rfl

end Integrator

namespace Autofire

/-- One tick with a counter of 64 bits; a period of zero is a fault. -/
def computed? (s : Autofire) (ms : Nat) (m : Message) : Option (Autofire × Message) :=
  if m.button s.button ∧ (s.period = 0 ∨ 18446744073709551616 ≤ s.held + ms) then none
  else some (s.update ms m)

theorem computed?_eq {s : Autofire} (hperiod : 0 < s.period) {ms : Nat} {m : Message}
    (hheld : (s.update ms m).1.held < 18446744073709551616) :
    s.computed? ms m = some (s.update ms m) := by
  refine if_neg ?_
  rintro ⟨hb, hfault⟩
  rw [update, if_pos hb] at hheld
  change s.held + ms < _ at hheld
  omega

theorem period_update (s : Autofire) (ms : Nat) (m : Message) :
    (s.update ms m).1.period = s.period := by
  unfold update
  split <;> rfl

end Autofire

namespace Message.InRange

variable {m : Message}

theorem setDeflection (h : m.InRange) (a : Axis) (v : Float32) : (m.setDeflection a v).InRange :=
  h.setAxis a _

theorem restrictStick (h : m.InRange) (x y : Axis) : (FourWay.restrictStick m x y).InRange := by
  unfold FourWay.restrictStick
  split <;> exact h.setAxis _ _

theorem fourWay (h : m.InRange) (s : FourWay) : (s.update m).2.InRange := by
  have hsticks := (h.restrictStick .x1 .y1).restrictStick .x2 .y2
  simp only [FourWay.update]
  split
  · exact hsticks
  · unfold FourWay.restrictDpad
    split <;> exact InRange.syncDpad (InRange.setButton (InRange.setButton hsticks _ _) _ _)

theorem dpadRotation (h : m.InRange) (r : DpadRotation) : (r.update m).InRange := by
  unfold DpadRotation.update
  split
  · exact h
  · split
    · exact h
    · exact InRange.syncDpad h

theorem squareAxis (h : m.InRange) : (SquareAxis.update m).InRange :=
  (((h.setAxis _ _).setAxis _ _).setAxis _ _).setAxis _ _

theorem autofire (h : m.InRange) (s : Autofire) (ms : Nat) : (s.update ms m).2.InRange := by
  unfold Autofire.update
  split
  · exact h.setButton _ _
  · exact h

end Message.InRange

namespace Filter

/-- One tick computed in words. The other filters compute with single-precision numbers, where no
operation is a fault, or only compare. -/
def computed? (ms : Nat) : Filter → Message → Option (Filter × Message)
  | calibration c, m =>
    (c.computed? (m.axis c.axis)).map fun v => (calibration c, m.setAxis c.axis v)
  | deadzone d, m => (d.computed? (m.axis d.axis)).map fun v => (deadzone d, m.setAxis d.axis v)
  | autofire s, m => (s.computed? ms m).map fun (s, m) => (autofire s, m)
  | integrator s, m =>
    (Integrator.computedTracks? ms s.tracks m).map fun (ts, m) => (integrator ⟨ts⟩, m)
  | f, m => some (f.update ms m)

/-- The parameters are as checked, and every number is a word of its size. -/
def Ready : Filter → Prop
  | calibration c => c.Valid ∧ c.InWords
  | deadzone d => d.Valid
  | autofire s => 0 < s.period
  | integrator s => ∀ t ∈ s.tracks, t.InWords
  | _ => True

def CounterFits : Filter → Prop
  | autofire s => s.held < 18446744073709551616
  | _ => True

instance : (f : Filter) → Decidable f.CounterFits
  | autofire _ => inferInstanceAs (Decidable (_ < _))
  | calibration _ | deadzone _ | sensitivity _ | squareAxis | fourWay _ | dpadRotation _
  | integrator _ => isTrue trivial

variable {f : Filter} {ms : Nat} {m : Message}

theorem inRange_update (f : Filter) (ms : Nat) (hm : m.InRange) : (f.update ms m).2.InRange := by
  cases f with
  | calibration c => exact hm.setAxis _ _
  | deadzone d => exact hm.setAxis _ _
  | sensitivity s => exact hm.setDeflection _ _
  | squareAxis => exact hm.squareAxis
  | fourWay s => exact hm.fourWay s
  | dpadRotation r => exact hm.dpadRotation r
  | autofire s => exact hm.autofire s ms
  | integrator s => exact Integrator.inRange_updateTracks s.tracks hm

theorem Ready.update (h : f.Ready) (ms : Nat) (m : Message) : (f.update ms m).1.Ready := by
  cases f with
  | autofire s => exact Nat.lt_of_lt_of_eq h (s.period_update ms m).symm
  | integrator s => exact Integrator.inWords_updateTracks h m
  | _ => exact h

theorem computed?_eq (h : f.Ready) (hm : m.InRange) (hms : ms < 4294967296)
    (hheld : (f.update ms m).1.CounterFits) : f.computed? ms m = some (f.update ms m) := by
  cases f with
  | calibration c =>
    rw [computed?, Calibration.computed?_eq h.1 h.2 (hm c.axis).short]
    rfl
  | deadzone d =>
    rw [computed?, Deadzone.computed?_eq h (hm d.axis)]
    rfl
  | autofire s =>
    rw [computed?, Autofire.computed?_eq h hheld]
    rfl
  | integrator s =>
    rw [computed?, Integrator.computedTracks?_eq h hm hms]
    rfl
  | _ => rfl

end Filter

namespace FilterSpec

def InWords : FilterSpec → Prop
  | relativeAxis _ speed => Short speed
  | calibration _ low center high => Short low ∧ Short center ∧ Short high
  | _ => True

theorem Builds.ready {s : FilterSpec} {f : Filter} (h : s.Builds f) (hs : s.InWords) : f.Ready := by
  cases h with
  | relativeAxis speed ha =>
    intro t ht
    cases List.mem_singleton.mp ht
    exact ⟨hs, show (-32768 : Int) ≤ 0 by decide, show (0 : Int) ≤ 32767 by decide⟩
  | autofire hb hp => exact hp
  | calibration ha hc => exact ⟨hc, hs.1, hs.2.1, hs.2.2⟩
  | deadzone ha hd => exact hd
  | _ => trivial

end FilterSpec

namespace Chain

def computedAll? (ms : Nat) : List Filter → Message → Option (List Filter × Message)
  | [], m => some ([], m)
  | f :: fs, m => do
    let (f, m) ← f.computed? ms m
    let (fs, m) ← computedAll? ms fs m
    pure (f :: fs, m)

/-- What a chain that computes in words lets through, if it gets to the last tick. -/
def computedOutputs? : Chain → List Tick → Option (List Message)
  | _, [] => some []
  | c, t :: ts => do
    let (fs, m) ← computedAll? t.ms c.filters t.message
    let later ← computedOutputs? ⟨fs⟩ ts
    pure (m :: later)

def after (c : Chain) (ts : List Tick) : Chain :=
  ts.foldl (fun c t => (c.update t.ms t.message).1) c

theorem inRange_updateAll (fs : List Filter) (ms : Nat) {m : Message} (hm : m.InRange) :
    (updateAll ms fs m).2.InRange := by
  induction fs generalizing m with
  | nil => exact hm
  | cons f fs ih => exact ih (f.inRange_update ms hm)

theorem computedAll?_eq {fs : List Filter} (h : ∀ f ∈ fs, f.Ready) {ms : Nat} {m : Message}
    (hm : m.InRange) (hms : ms < 4294967296)
    (hheld : ∀ f ∈ (updateAll ms fs m).1, f.CounterFits) :
    computedAll? ms fs m = some (updateAll ms fs m) ∧ ∀ f ∈ (updateAll ms fs m).1, f.Ready := by
  induction fs generalizing m with
  | nil => exact ⟨rfl, h⟩
  | cons f fs ih =>
    obtain ⟨hf, hfs⟩ := List.forall_mem_cons.mp h
    rw [updateAll_cons] at hheld ⊢
    obtain ⟨hcounter, hcounters⟩ := List.forall_mem_cons.mp hheld
    obtain ⟨heq, hready⟩ := ih hfs (f.inRange_update ms hm) hcounters
    refine ⟨?_, List.forall_mem_cons.mpr ⟨hf.update ms m, hready⟩⟩
    simp only [computedAll?, Filter.computed?_eq hf hm hms hcounter, Option.bind_eq_bind,
      Option.bind_some, heq]
    rfl

theorem computedOutputs?_eq {c : Chain} (h : ∀ f ∈ c.filters, f.Ready) {ts : List Tick}
    (hts : ∀ t ∈ ts, t.ms < 4294967296 ∧ t.message.InRange)
    (hheld : ∀ n, ∀ f ∈ (c.after (ts.take n)).filters, f.CounterFits) :
    c.computedOutputs? ts = some (c.outputs ts) := by
  induction ts generalizing c with
  | nil => rfl
  | cons t ts ih =>
    obtain ⟨⟨hms, hm⟩, hts⟩ := List.forall_mem_cons.mp hts
    obtain ⟨heq, hready⟩ := computedAll?_eq h hm hms (hheld 1)
    have hlater := ih (c := (c.update t.ms t.message).1) hready hts fun n => hheld (n + 1)
    simp only [computedOutputs?, heq, Option.bind_eq_bind, Option.bind_some]
    change (computedOutputs? (c.update t.ms t.message).1 ts).bind _ = _
    rw [hlater]
    rfl

/-- A chain built from specifications goes through any ticks without a fault, as long as no hold
counter outgrows its word: no divisor is zero, every number fits its word, and what comes out is
what unbounded integers give. After any number of its filters, at any tick, every axis is in
range. -/
theorem faultless_of_specs {specs : List FilterSpec} (hspecs : ∀ s ∈ specs, s.InWords) {c : Chain}
    (hc : ofSpecs specs = .ok c) {ts : List Tick}
    (hts : ∀ t ∈ ts, t.ms < 4294967296 ∧ t.message.InRange)
    (hheld : ∀ n, ∀ f ∈ (c.after (ts.take n)).filters, f.CounterFits) :
    c.computedOutputs? ts = some (c.outputs ts) ∧
      ∀ n (hn : n < ts.length) count,
        (updateAll ts[n].ms ((c.after (ts.take n)).filters.take count)
          ts[n].message).2.InRange := by
  refine ⟨computedOutputs?_eq (fun f hf => ?_) hts hheld, fun n hn count => ?_⟩
  · obtain ⟨s, hs, hbuilds⟩ := exists_builds_of_mem hc hf
    exact hbuilds.ready (hspecs s hs)
  · exact inRange_updateAll _ _ (hts ts[n] (List.getElem_mem hn)).2

/-- The widest calibration, the last admissible deadzone, full speed at full deflection for the
longest tick, and a button held for as long. -/
theorem faultless_of_specs_extremes :
    let specs : List FilterSpec :=
      [.relativeAxis "X1" (-2147483648), .autofire "A" 2, .deadzone "LT" 254 true,
        .calibration "Y1" (-2147483648) 2147483646 2147483647]
    let m : Message := (((Message.neutral.setAxis .x1 (-32768)).setAxis .y1 (-32768)).setAxis .lt
      255).setButton .faceA true
    let ts : List Tick := [⟨4294967295, m⟩, ⟨0, m⟩]
    ∃ c, ofSpecs specs = .ok c ∧ c.computedOutputs? ts = some (c.outputs ts) ∧
      (c.outputs ts).map (fun n => (n.axis .x1, n.axis .y1, n.axis .lt, n.button .faceA)) =
        [(32767, -16384, 255, true), (32767, -16384, 255, false)] := by
  intro specs m ts
  let c : Chain := ofFilters
    [.integrator (.ofSpeeds [(.x1, -2147483648)]), .autofire { button := .faceA, period := 2 },
      .deadzone ⟨.lt, 254, true⟩, .calibration ⟨.y1, -2147483648, 2147483646, 2147483647⟩]
  have hc : ofSpecs specs = .ok c := by with_unfolding_all rfl
  have hspecs : ∀ s ∈ specs, s.InWords := by
    intro s hs
    simp only [specs, List.mem_cons, List.not_mem_nil, or_false] at hs
    rcases hs with rfl | rfl | rfl | rfl
    exacts [show Short _ by decide, trivial, trivial, show Short _ ∧ Short _ ∧ Short _ by decide]
  have hts : ∀ t ∈ ts, t.ms < 4294967296 ∧ t.message.InRange := by
    have hm : m.InRange := ((Message.InRange.neutral.setAxis _ _).setAxis _ _).setAxis _ _
    intro t ht
    simp only [ts, List.mem_cons, List.not_mem_nil, or_false] at ht
    rcases ht with rfl | rfl
    exacts [⟨by decide, hm⟩, ⟨by decide, hm⟩]
  have hheld : ∀ n, ∀ f ∈ (c.after (ts.take n)).filters, f.CounterFits := by
    intro n
    match n with
    | 0 => decide +kernel
    | 1 => decide +kernel
    | n + 2 =>
      rw [List.take_of_length_le (Nat.le_add_left 2 n)]
      decide +kernel
  exact ⟨c, hc, (faultless_of_specs hspecs hc hts hheld).1, by decide +kernel⟩

end Chain

end PadRemap
