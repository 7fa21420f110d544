import PadRemap.Filter.Spec
import PadRemap.Proofs.Mapper.Drive

/-! What a chain remembers. Autofire and the four-way restrictor forget with the first message in
which nothing is pressed; an integrator never forgets. A chain whose axes rest at zero and whose
integrators have not moved lets the neutral message through as it is. -/

namespace PadRemap

namespace Message

theorem neutral_setAxis_zero (a : Axis) : neutral.setAxis a 0 = neutral := by
  ext c
  · rfl
  · rw [axis_setAxis, axis_neutral, Axis.clamp_of_inRange a.inRange_zero, ite_self]

def Released (m : Message) : Prop := ∀ b, m.button b = false

theorem released_neutral : neutral.Released := button_neutral

end Message

namespace Track

def rest (t : Track) : Track := { t with position := 0 }

theorem rest_advance (t : Track) (v : Int) (ms : Nat) : (t.advance v ms).rest = t.rest := by
  unfold advance
  split <;> rfl

end Track

namespace Integrator

variable (ms : Nat)

theorem updateTracks_cons (t : Track) (ts : List Track) (m : Message) :
    updateTracks ms (t :: ts) m =
      ((t.update ms m).1 :: (updateTracks ms ts (t.update ms m).2).1,
        (updateTracks ms ts (t.update ms m).2).2) := rfl

theorem rest_updateTracks (ts : List Track) (m : Message) :
    (updateTracks ms ts m).1.map Track.rest = ts.map Track.rest := by
  induction ts generalizing m with
  | nil => rfl
  | cons t ts ih =>
    rw [updateTracks_cons, List.map_cons, List.map_cons, ih]
    exact congrArg (· :: _) (t.rest_advance _ ms)

theorem released_updateTracks (ts : List Track) {m : Message} (hm : m.Released) :
    (updateTracks ms ts m).2.Released := by
  induction ts generalizing m with
  | nil => exact hm
  | cons t ts ih => exact ih (m := (t.update ms m).2) hm

theorem updateTracks_neutral {ts : List Track} (h : ∀ t ∈ ts, t.position = 0) :
    updateTracks ms ts .neutral = (ts, .neutral) := by
  induction ts with
  | nil => rfl
  | cons t ts ih =>
    have hstay : t.advance (Message.neutral.axis t.axis) ms = t := by
      rw [Message.axis_neutral]
      rfl
    have ht : t.update ms .neutral = (t, .neutral) := by
      rw [Track.update, hstay, h t List.mem_cons_self, Message.neutral_setAxis_zero]
    rw [updateTracks_cons, ht, ih fun u hu => h u (List.mem_cons_of_mem t hu)]

end Integrator

namespace FourWay

theorem button_restrictStick (m : Message) (x y : Axis) (b : Button) :
    (restrictStick m x y).button b = m.button b := by
  unfold restrictStick
  split <;> rfl

theorem restrictStick_neutral (x y : Axis) : restrictStick .neutral x y = .neutral := by
  unfold restrictStick
  split <;> exact Message.neutral_setAxis_zero _

theorem update_of_released (s : FourWay) {m : Message} (hm : m.Released) :
    s.update m = (⟨none⟩, restrictStick (restrictStick m .x1 .y1) .x2 .y2) := by
  have hb : ∀ b, (restrictStick (restrictStick m .x1 .y1) .x2 .y2).button b = false := by
    intro b
    rw [button_restrictStick, button_restrictStick, hm b]
  simp [update, orientation, verticalPressed, horizontalPressed, hb]

end FourWay

theorem DpadRotation.update_of_released (r : DpadRotation) {m : Message} (hm : m.Released) :
    r.update m = m := by
  have hcentre : Dpad.ofMessage m = ⟨false, false, false, false⟩ := by simp [Dpad.ofMessage, hm _]
  have hnone : Dpad.compass.idxOf? ⟨false, false, false, false⟩ = none := by decide
  rw [update, hcentre, Dpad.turn?, hnone]
  split <;> rfl

theorem Deadzone.apply_zero (d : Deadzone) : d.apply 0 = 0 := by
  unfold apply
  split
  · rfl
  · split <;> simp

theorem Sensitivity.update_neutral (s : Sensitivity) : s.update .neutral = .neutral := by
  have hcurve : curve s.value (Float32.ofBits 0) = 0 := by
    unfold curve
    rw [if_neg (by decide +kernel), if_neg (by decide +kernel)]
  have hzero : Message.neutral.setDeflection s.axis 0 = Message.neutral.setAxis s.axis 0 := by
    unfold Message.setDeflection
    cases s.axis <;> exact congrArg _ (by decide +kernel)
  rw [update, Message.deflection_of_rest (Message.axis_neutral _), hcurve, hzero,
    Message.neutral_setAxis_zero]

theorem SquareAxis.update_neutral : update .neutral = .neutral := by
  have hstick : ∀ x y, stick .neutral x y = .neutral := by
    intro x y
    have hzero : denormalize (squarify (normalize 0) (normalize 0)).1 = 0 ∧
        denormalize (squarify (normalize 0) (normalize 0)).2 = 0 := by decide +kernel
    simp only [stick, Message.axis_neutral, hzero.1, hzero.2, Message.neutral_setAxis_zero]
  rw [update, hstick, hstick]

namespace Filter

variable {f : Filter}

def rest : Filter → Filter
  | fourWay _ => fourWay {}
  | autofire s => autofire { s with held := 0 }
  | integrator s => integrator ⟨s.tracks.map Track.rest⟩
  | f => f

/-- No track of the filter has left the place where it started. -/
def Unmoved : Filter → Prop
  | integrator s => ∀ t ∈ s.tracks, t.position = 0
  | _ => True

/-- The filter takes an axis at zero for one at rest. -/
def Centred : Filter → Prop
  | calibration c => c.apply 0 = 0
  | _ => True

theorem rest_update (f : Filter) (ms : Nat) (m : Message) : (f.update ms m).1.rest = f.rest := by
  cases f with
  | fourWay s => rfl
  | autofire s =>
    change rest (autofire (s.update ms m).1) = rest (autofire s)
    unfold Autofire.update
    split <;> rfl
  | integrator s =>
    change integrator ⟨(Integrator.updateTracks ms s.tracks m).1.map Track.rest⟩ = _
    rw [Integrator.rest_updateTracks]
    rfl
  | _ => rfl

theorem rest_eq_of_unmoved (h : f.Unmoved) (hi : f.stage = .integrator) : f.rest = f := by
  cases f with
  | integrator s =>
    have hs : s.tracks.map Track.rest = s.tracks := by
      refine List.map_congr_left (fun t ht => ?_) |>.trans s.tracks.map_id
      rw [Track.rest, ← h t ht]
      rfl
    rw [rest, hs]
  | _ => cases hi

/-- A filter whose output depends on the message alone. -/
def Memoryless : Filter → Prop
  | fourWay _ | autofire _ | integrator _ => False
  | _ => True

theorem rest_eq_of_memoryless (h : f.rest.Memoryless) : f.rest = f := by
  cases f with
  | fourWay s => cases h
  | autofire s => cases h
  | integrator s => cases h
  | _ => rfl

theorem unmoved_of_rest (h : f.rest.stage ≠ .integrator) : f.Unmoved := by
  cases f with
  | integrator s => exact (h rfl).elim
  | _ => trivial

theorem centred_of_rest (h : f.rest.Centred) : f.Centred := by
  cases f with
  | calibration c => exact h
  | _ => trivial

theorem update_of_released (hf : f.Unmoved) (ms : Nat) {m : Message} (hm : m.Released) :
    f.update ms m = f.rest.update ms m := by
  cases f with
  | fourWay s =>
    rw [rest, update, update, FourWay.update_of_released s hm, FourWay.update_of_released _ hm]
  | autofire s =>
    have hb : m.button s.button = false := hm _
    simp [rest, update, Autofire.update, hb]
  | integrator s => rw [rest_eq_of_unmoved hf rfl]
  | _ => rfl

theorem released_update (f : Filter) (ms : Nat) {m : Message} (hm : m.Released) :
    (f.update ms m).2.Released := by
  cases f with
  | fourWay s =>
    intro b
    rw [update, FourWay.update_of_released s hm]
    exact (FourWay.button_restrictStick _ _ _ b).trans
      ((FourWay.button_restrictStick _ _ _ b).trans (hm b))
  | dpadRotation r =>
    rw [update, r.update_of_released hm]
    exact hm
  | autofire s =>
    have hb : m.button s.button = false := hm _
    rw [update, Autofire.update, hb]
    exact hm
  | integrator s => exact Integrator.released_updateTracks ms s.tracks hm
  | _ => exact hm

theorem update_neutral (hf : f.Unmoved) (hc : f.Centred) (ms : Nat) :
    (f.update ms .neutral).2 = .neutral ∧ (f.update ms .neutral).1.Unmoved ∧
      (f.update ms .neutral).1.Centred := by
  cases f with
  | calibration c =>
    have hzero : c.apply (Message.neutral.axis c.axis) = 0 := (Message.axis_neutral _).symm ▸ hc
    refine ⟨?_, trivial, hc⟩
    rw [update, Calibration.update, hzero, Message.neutral_setAxis_zero]
  | deadzone d =>
    refine ⟨?_, trivial, trivial⟩
    rw [update, Deadzone.update, Message.axis_neutral, d.apply_zero, Message.neutral_setAxis_zero]
  | sensitivity s => exact ⟨s.update_neutral, trivial, trivial⟩
  | squareAxis => exact ⟨SquareAxis.update_neutral, trivial, trivial⟩
  | fourWay s =>
    refine ⟨?_, trivial, trivial⟩
    rw [update, FourWay.update_of_released s Message.released_neutral,
      FourWay.restrictStick_neutral, FourWay.restrictStick_neutral]
    rfl
  | dpadRotation r =>
    exact ⟨r.update_of_released Message.released_neutral, trivial, trivial⟩
  | autofire s =>
    have hb : Message.neutral.button s.button = false := Message.button_neutral _
    rw [update, Autofire.update, hb]
    exact ⟨rfl, trivial, trivial⟩
  | integrator s =>
    rw [update, Integrator.update, Integrator.updateTracks_neutral ms hf]
    exact ⟨rfl, hf, trivial⟩

end Filter

namespace Chain

variable {c : Chain}

def rest (c : Chain) : Chain := ⟨c.filters.map Filter.rest⟩

def Unmoved (c : Chain) : Prop := ∀ f ∈ c.filters, f.Unmoved

def Centred (c : Chain) : Prop := ∀ f ∈ c.filters, f.Centred

def Memoryless (c : Chain) : Prop := ∀ f ∈ c.filters, f.Memoryless

theorem rest_eq_of_forall (h : ∀ f ∈ c.filters, f.rest = f) : c.rest = c :=
  congrArg mk ((List.map_congr_left h).trans (List.map_id c.filters))

theorem rest_eq_of_memoryless (h : c.rest.Memoryless) : c.rest = c :=
  rest_eq_of_forall fun _ hf => Filter.rest_eq_of_memoryless (h _ (List.mem_map_of_mem hf))

theorem unmoved_of_rest (h : ∀ f ∈ c.rest.filters, f.stage ≠ .integrator) : c.Unmoved :=
  fun _ hf => Filter.unmoved_of_rest (h _ (List.mem_map_of_mem hf))

theorem centred_of_rest (h : c.rest.Centred) : c.Centred :=
  fun _ hf => Filter.centred_of_rest (h _ (List.mem_map_of_mem hf))

theorem updateAll_cons (ms : Nat) (f : Filter) (fs : List Filter) (m : Message) :
    updateAll ms (f :: fs) m =
      ((f.update ms m).1 :: (updateAll ms fs (f.update ms m).2).1,
        (updateAll ms fs (f.update ms m).2).2) := rfl

/-- A tick changes nothing of a chain but its memory. -/
theorem rest_update (c : Chain) (ms : Nat) (m : Message) : (c.update ms m).1.rest = c.rest := by
  suffices h : ∀ (fs : List Filter) (m : Message),
      (updateAll ms fs m).1.map Filter.rest = fs.map Filter.rest from
    congrArg Chain.mk (h c.filters m)
  intro fs
  induction fs with
  | nil => exact fun _ => rfl
  | cons f fs ih =>
    intro m
    rw [updateAll_cons, List.map_cons, List.map_cons, Filter.rest_update, ih]

/-- A chain forgets with the first message in which nothing is pressed, its integrators apart. -/
theorem update_of_released (h : c.Unmoved) (ms : Nat) {m : Message} (hm : m.Released) :
    c.update ms m = c.rest.update ms m := by
  obtain ⟨fs⟩ := c
  suffices h : updateAll ms fs m = updateAll ms (fs.map Filter.rest) m by
    rw [update, h]
    rfl
  induction fs generalizing m with
  | nil => rfl
  | cons f fs ih =>
    have hf : f.Unmoved := h f List.mem_cons_self
    have hfs : (⟨fs⟩ : Chain).Unmoved := fun g hg => h g (List.mem_cons_of_mem f hg)
    rw [List.map_cons, updateAll_cons, updateAll_cons, ← Filter.update_of_released hf ms hm,
      ih (Filter.released_update f ms hm) hfs]

theorem update_neutral (h : c.Unmoved) (hc : c.Centred) (ms : Nat) :
    (c.update ms .neutral).2 = .neutral ∧ (c.update ms .neutral).1.Unmoved ∧
      (c.update ms .neutral).1.Centred := by
  obtain ⟨fs⟩ := c
  induction fs with
  | nil => exact ⟨rfl, h, hc⟩
  | cons f fs ih =>
    obtain ⟨hm, hf, hfc⟩ := Filter.update_neutral (h f List.mem_cons_self)
      (hc f List.mem_cons_self) ms
    obtain ⟨hms, hfs, hfsc⟩ := ih (fun g hg => h g (List.mem_cons_of_mem f hg))
      fun g hg => hc g (List.mem_cons_of_mem f hg)
    have hstep : updateAll ms (f :: fs) .neutral =
        ((f.update ms .neutral).1 :: (updateAll ms fs .neutral).1,
          (updateAll ms fs .neutral).2) := by
      rw [updateAll_cons, hm]
    rw [update, hstep]
    exact ⟨hms, List.forall_mem_cons.mpr ⟨hf, hfs⟩, List.forall_mem_cons.mpr ⟨hfc, hfsc⟩⟩

end Chain

end PadRemap
