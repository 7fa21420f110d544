import PadRemap.Filter.Spec

/-! What a specification builds: a filter at rest whose parameters have been checked, or an error.
A chain holds the filters of its specifications and no others. -/

namespace PadRemap

theorem Except.bind_eq_ok {ε α β : Type} {x : Except ε α} {f : α → Except ε β} {y : β} :
    x >>= f = .ok y ↔ ∃ a, x = .ok a ∧ f a = .ok y := by
  cases x with
  | error e => simp [bind, Except.bind]
  | ok a => simp [bind, Except.bind]

theorem Except.mapError_eq_ok {ε ε' α : Type} {x : Except ε α} {g : ε → ε'} {y : α} :
    x.mapError g = .ok y ↔ x = .ok y := by
  cases x with
  | error e => exact ⟨nofun, nofun⟩
  | ok a => constructor <;> (intro h; cases h; rfl)

theorem exists_of_mapM_ok {ε α β : Type} {f : α → Except ε β} {xs : List α} {ys : List β}
    (h : xs.mapM f = .ok ys) {y : β} (hy : y ∈ ys) : ∃ x ∈ xs, f x = .ok y := by
  induction xs generalizing ys with
  | nil =>
    cases h
    cases hy
  | cons x xs ih =>
    rw [List.mapM_cons] at h
    obtain ⟨z, hz, h⟩ := Except.bind_eq_ok.mp h
    obtain ⟨zs, hzs, h⟩ := Except.bind_eq_ok.mp h
    cases h
    rcases List.mem_cons.mp hy with rfl | hy
    · exact ⟨x, List.mem_cons_self, hz⟩
    · obtain ⟨x', hx', he⟩ := ih hzs hy
      exact ⟨x', List.mem_cons_of_mem _ hx', he⟩

namespace FilterSpec

/-- The filter that a specification stands for. -/
inductive Builds : FilterSpec → Filter → Prop where
  | relativeAxis {name : String} {a : Axis} (speed : Int) (ha : Axis.parse name = .ok a) :
    Builds (.relativeAxis name speed) (.integrator (.ofSpeeds [(a, speed)]))
  | squareAxis : Builds .squareAxis .squareAxis
  | autofire {name : String} {b : Button} {period : Nat} (hb : Button.parse name = .ok b)
    (hp : 0 < period) : Builds (.autofire name period) (.autofire { button := b, period })
  | calibration {name : String} {c : Calibration} (ha : Axis.parse name = .ok c.axis)
    (hc : c.Valid) : Builds (.calibration name c.low c.center c.high) (.calibration c)
  | sensitivity {name : String} {s : Sensitivity} (ha : Axis.parse name = .ok s.axis)
    (hs : s.value.isFinite = true) : Builds (.sensitivity name s.value) (.sensitivity s)
  | deadzone {name : String} {d : Deadzone} (ha : Axis.parse name = .ok d.axis) (hd : d.Valid) :
    Builds (.deadzone name d.threshold d.smooth) (.deadzone d)
  | fourWay : Builds .fourWay (.fourWay {})
  | dpadRotation {degrees : Int} (hd : degrees.tmod 45 = 0) :
    Builds (.dpadRotation degrees) (.dpadRotation (.ofDegrees degrees))

theorem builds_of_build {s : FilterSpec} {f : Filter} (h : s.build = .ok f) : s.Builds f := by
  cases s with
  | relativeAxis name speed =>
    obtain ⟨a, ha, h⟩ := Except.bind_eq_ok.mp h
    cases h
    exact .relativeAxis speed (Except.mapError_eq_ok.mp ha)
  | squareAxis =>
    cases h
    exact .squareAxis
  | autofire name period =>
    obtain ⟨b, hb, h⟩ := Except.bind_eq_ok.mp h
    by_cases hp : period = 0
    · simp only [if_pos hp] at h
      cases h
    · simp only [if_neg hp] at h
      cases h
      exact .autofire (Except.mapError_eq_ok.mp hb) (Nat.pos_of_ne_zero hp)
  | calibration name low center high =>
    obtain ⟨a, ha, h⟩ := Except.bind_eq_ok.mp h
    simp only at h
    split at h
    · next hc =>
      cases h
      exact .calibration (c := ⟨a, low, center, high⟩) (Except.mapError_eq_ok.mp ha) hc
    · cases h
  | sensitivity name value =>
    unfold build at h
    by_cases hv : (!value.isFinite) = true
    · simp only [if_pos hv] at h
      cases h
    · simp only [if_neg hv] at h
      obtain ⟨a, ha, h⟩ := Except.bind_eq_ok.mp h
      cases h
      exact .sensitivity (s := ⟨a, value⟩) (Except.mapError_eq_ok.mp ha) (by simpa using hv)
  | deadzone name threshold smooth =>
    obtain ⟨a, ha, h⟩ := Except.bind_eq_ok.mp h
    simp only at h
    split at h
    · next hd =>
      cases h
      exact .deadzone (d := ⟨a, threshold, smooth⟩) (Except.mapError_eq_ok.mp ha) hd
    · cases h
  | fourWay =>
    cases h
    exact .fourWay
  | dpadRotation degrees =>
    unfold build at h
    by_cases hd : degrees.tmod 45 ≠ 0
    · simp only [if_pos hd] at h
      cases h
    · simp only [if_neg hd] at h
      cases h
      exact .dpadRotation (Decidable.not_not.mp hd)

end FilterSpec

theorem Chain.exists_builds_of_mem {specs : List FilterSpec} {c : Chain}
    (h : ofSpecs specs = .ok c) {f : Filter} (hf : f ∈ c.filters) : ∃ s ∈ specs, s.Builds f := by
  unfold ofSpecs at h
  cases hm : specs.mapM FilterSpec.build with
  | error e =>
    rw [hm] at h
    cases h
  | ok fs =>
    rw [hm] at h
    cases h
    obtain ⟨stage, -, hmem⟩ := List.mem_flatMap.mp hf
    obtain ⟨s, hs, hbuild⟩ := exists_of_mapM_ok hm (List.mem_filter.mp hmem).1
    exact ⟨s, hs, FilterSpec.builds_of_build hbuild⟩

end PadRemap
