import PadRemap.Proofs.Filter.Memory

/-! What a filter that works on axes of its own reads and writes: these axes and nothing else. Two
of them on different axes do not notice each other. -/

namespace PadRemap

namespace Message

def AgreeOn (as : List Axis) (m n : Message) : Prop := ∀ a ∈ as, m.axis a = n.axis a

theorem deflection_congr {m n : Message} {a : Axis} (h : m.axis a = n.axis a) :
    m.deflection a = n.deflection a := by
  unfold deflection
  rw [h]

end Message

namespace Track

theorem axis_advance (t : Track) (v : Int) (ms : Nat) : (t.advance v ms).axis = t.axis := by
  unfold advance
  split <;> rfl

theorem axis_update_of_ne (t : Track) (ms : Nat) (m : Message) {a : Axis} (h : a ≠ t.axis) :
    (t.update ms m).2.axis a = m.axis a := by
  rw [update, Message.axis_setAxis, axis_advance, if_neg h]

end Track

namespace Integrator

variable (ms : Nat)

theorem axes_updateTracks (ts : List Track) (m : Message) :
    (updateTracks ms ts m).1.map Track.axis = ts.map Track.axis := by
  induction ts generalizing m with
  | nil => rfl
  | cons t ts ih =>
    rw [updateTracks_cons, List.map_cons, List.map_cons, ih]
    exact congrArg (· :: _) (t.axis_advance _ ms)

theorem button_updateTracks (ts : List Track) (m : Message) (b : Button) :
    (updateTracks ms ts m).2.button b = m.button b := by
  induction ts generalizing m with
  | nil => rfl
  | cons t ts ih => exact ih (t.update ms m).2

theorem axis_updateTracks_of_not_mem {ts : List Track} {a : Axis} (h : a ∉ ts.map Track.axis)
    (m : Message) : (updateTracks ms ts m).2.axis a = m.axis a := by
  induction ts generalizing m with
  | nil => rfl
  | cons t ts ih =>
    rw [List.map_cons, List.mem_cons, not_or] at h
    exact (ih h.2 _).trans (t.axis_update_of_ne ms m h.1)

theorem updateTracks_congr {ts : List Track} {as : List Axis} (hs : ∀ t ∈ ts, t.axis ∈ as)
    {m n : Message} (h : m.AgreeOn as n) :
    (updateTracks ms ts m).1 = (updateTracks ms ts n).1 ∧
      (updateTracks ms ts m).2.AgreeOn as (updateTracks ms ts n).2 := by
  induction ts generalizing m n with
  | nil => exact ⟨rfl, h⟩
  | cons t ts ih =>
    have hv : m.axis t.axis = n.axis t.axis := h _ (hs t List.mem_cons_self)
    have hstep : (t.update ms m).2.AgreeOn as (t.update ms n).2 := by
      intro a ha
      simp only [Track.update, Message.axis_setAxis, hv, h a ha]
    obtain ⟨htracks, hmessage⟩ := ih (fun u hu => hs u (List.mem_cons_of_mem t hu)) hstep
    have htrack : (t.update ms m).1 = (t.update ms n).1 := by
      rw [Track.update, Track.update, hv]
    rw [updateTracks_cons, updateTracks_cons, htracks, htrack]
    exact ⟨rfl, hmessage⟩

end Integrator

namespace Filter

/-- The axes of a filter that works axis by axis; none for a filter of whole messages. -/
def axes : Filter → List Axis
  | calibration c => [c.axis]
  | deadzone d => [d.axis]
  | sensitivity s => [s.axis]
  | integrator s => s.tracks.map Track.axis
  | _ => []

variable {f g : Filter}

theorem axes_update (f : Filter) (ms : Nat) (m : Message) : (f.update ms m).1.axes = f.axes := by
  cases f with
  | integrator s => exact Integrator.axes_updateTracks ms s.tracks m
  | _ => rfl

theorem button_update (h : f.axes ≠ []) (ms : Nat) (m : Message) (b : Button) :
    (f.update ms m).2.button b = m.button b := by
  cases f with
  | integrator s => exact Integrator.button_updateTracks ms s.tracks m b
  | calibration c => rfl
  | deadzone d => rfl
  | sensitivity s => rfl
  | _ => exact (h rfl).elim

theorem axis_update_of_not_mem (h : f.axes ≠ []) {a : Axis} (ha : a ∉ f.axes) (ms : Nat)
    (m : Message) : (f.update ms m).2.axis a = m.axis a := by
  cases f with
  | integrator s => exact Integrator.axis_updateTracks_of_not_mem ms ha m
  | calibration c =>
    exact (Message.axis_setAxis ..).trans (if_neg fun hc => ha (by simp [axes, hc]))
  | deadzone d => exact (Message.axis_setAxis ..).trans (if_neg fun hc => ha (by simp [axes, hc]))
  | sensitivity s =>
    exact (Message.axis_setAxis ..).trans (if_neg fun hc => ha (by simp [axes, hc]))
  | _ => exact (h rfl).elim

theorem update_congr (h : f.axes ≠ []) {m n : Message} (hmn : m.AgreeOn f.axes n) (ms : Nat) :
    (f.update ms m).1 = (f.update ms n).1 ∧
      (f.update ms m).2.AgreeOn f.axes (f.update ms n).2 := by
  have hset : ∀ {a : Axis} {x y : Int}, x = y → (m.setAxis a x).AgreeOn [a] (n.setAxis a y) := by
    rintro a x _ rfl c hc
    rw [List.mem_singleton.mp hc, Message.axis_setAxis, Message.axis_setAxis, if_pos rfl,
      if_pos rfl]
  cases f with
  | calibration c =>
    exact ⟨rfl, hset (congrArg c.apply (hmn _ List.mem_cons_self))⟩
  | deadzone d =>
    exact ⟨rfl, hset (congrArg d.apply (hmn _ List.mem_cons_self))⟩
  | sensitivity s =>
    refine ⟨rfl, ?_⟩
    have hv : m.deflection s.axis = n.deflection s.axis :=
      Message.deflection_congr (hmn _ List.mem_cons_self)
    change (m.setDeflection s.axis _).AgreeOn [s.axis] (n.setDeflection s.axis _)
    rw [hv]
    exact hset rfl
  | integrator s =>
    obtain ⟨htracks, hmessage⟩ := Integrator.updateTracks_congr ms
      (fun t ht => List.mem_map_of_mem (f := Track.axis) ht) hmn
    exact ⟨congrArg (fun ts => integrator ⟨ts⟩) htracks, hmessage⟩
  | _ => exact (h rfl).elim

/-- Filters that work on axes of their own, and on different ones. -/
structure Apart (f g : Filter) : Prop where
  left : f.axes ≠ []
  right : g.axes ≠ []
  disjoint : ∀ a ∈ f.axes, a ∉ g.axes

theorem Apart.symm (h : f.Apart g) : g.Apart f :=
  ⟨h.right, h.left, fun a hg hf => h.disjoint a hf hg⟩

theorem Apart.update (h : f.Apart g) (ms : Nat) (m n : Message) :
    (f.update ms m).1.Apart (g.update ms n).1 :=
  ⟨(f.axes_update ms m).symm ▸ h.left, (g.axes_update ms n).symm ▸ h.right,
    (f.axes_update ms m).symm ▸ (g.axes_update ms n).symm ▸ h.disjoint⟩

theorem Apart.agreeOn (h : f.Apart g) (ms : Nat) (m : Message) :
    (g.update ms m).2.AgreeOn f.axes m :=
  fun a ha => axis_update_of_not_mem h.right (h.disjoint a ha) ms m

/-- Filters on different axes may work in either order. -/
theorem Apart.update_comm (h : f.Apart g) (ms : Nat) (m : Message) :
    (f.update ms (g.update ms m).2).1 = (f.update ms m).1 ∧
      (g.update ms (f.update ms m).2).1 = (g.update ms m).1 ∧
      (f.update ms (g.update ms m).2).2 = (g.update ms (f.update ms m).2).2 := by
  obtain ⟨hf, hfm⟩ := update_congr h.left (h.agreeOn ms m) ms
  obtain ⟨hg, hgm⟩ := update_congr h.right (h.symm.agreeOn ms m) ms
  refine ⟨hf, hg, Message.ext (fun b => ?_) fun a => ?_⟩
  · rw [button_update h.left, button_update h.right, button_update h.right, button_update h.left]
  · by_cases haf : a ∈ f.axes
    · rw [hfm a haf, axis_update_of_not_mem h.right (h.disjoint a haf)]
    · rw [axis_update_of_not_mem h.left haf]
      by_cases hag : a ∈ g.axes
      · rw [hgm a hag]
      · rw [axis_update_of_not_mem h.right hag, axis_update_of_not_mem h.right hag,
          axis_update_of_not_mem h.left haf]

end Filter

end PadRemap
