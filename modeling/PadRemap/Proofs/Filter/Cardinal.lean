import PadRemap.Proofs.Filter.Mealy
import PadRemap.Proofs.Pad.Coherence

/-! The four-way restrictor over time. Every message comes out with its sticks and its dpad in one
of the four cardinal directions. On a diagonal of the dpad the orientation of the tick before is
kept, if there was any. Messages that are restricted already are fixed points, whatever is
remembered. -/

namespace PadRemap

namespace Message

theorem setAxis_eq_self {m : Message} {a : Axis} (h : m.axis a = 0) : m.setAxis a 0 = m := by
  ext c
  · rfl
  · rw [axis_setAxis, Axis.clamp_of_inRange a.inRange_zero]
    by_cases hc : c = a
    · rw [if_pos hc, hc, h]
    · rw [if_neg hc]

theorem setButton_eq_self {m : Message} {b : Button} (h : m.button b = false) :
    m.setButton b false = m := by
  ext c
  · rw [button_setButton]
    by_cases hc : c = b
    · rw [if_pos hc, hc, h]
    · rw [if_neg hc]
  · rfl

theorem DpadCoherent.syncDpad_eq_self {m : Message} (h : m.DpadCoherent) : m.syncDpad = m := by
  obtain ⟨hx, hy⟩ := DpadCoherent.syncDpad m
  ext a
  · rfl
  · by_cases hax : a = .dpadX
    · rw [hax, hx, h.1]
      rfl
    · by_cases hay : a = .dpadY
      · rw [hay, hy, h.2]
        rfl
      · rw [Message.syncDpad, axis_setAxis, if_neg hay, axis_setAxis, if_neg hax]

end Message

namespace FourWay

variable {m n : Message}

def dpadPressed (m : Message) : Bool := verticalPressed m || horizontalPressed m

/-- A message that points in cardinal directions only. -/
structure Cardinal (m : Message) : Prop where
  leftStick : m.axis .x1 = 0 ∨ m.axis .y1 = 0
  rightStick : m.axis .x2 = 0 ∨ m.axis .y2 = 0
  dpad : m.axis .dpadX = 0 ∨ m.axis .dpadY = 0
  buttons : verticalPressed m = false ∨ horizontalPressed m = false

def KeepsStronger (x y : Axis) (m n : Message) : Prop :=
  if (m.axis y).natAbs < (m.axis x).natAbs then n.axis x = m.axis x ∧ n.axis y = 0
  else n.axis x = 0 ∧ n.axis y = m.axis y

/-- The second message is what is left of the first one. -/
structure Restricts (m n : Message) : Prop where
  cardinal : Cardinal n
  leftStick : KeepsStronger .x1 .y1 m n
  rightStick : KeepsStronger .x2 .y2 m n
  pressed : dpadPressed n = dpadPressed m
  vertical : verticalPressed n = true → n.button .dpadUp = m.button .dpadUp ∧
    n.button .dpadDown = m.button .dpadDown ∧ n.axis .dpadY = m.axis .dpadY
  horizontal : horizontalPressed n = true → n.button .dpadLeft = m.button .dpadLeft ∧
    n.button .dpadRight = m.button .dpadRight ∧ n.axis .dpadX = m.axis .dpadX
  buttons : ∀ b : Button, b.isDpad = false → n.button b = m.button b
  axes : ∀ a ∈ [Axis.lt, .rt, .trigger], n.axis a = m.axis a

theorem verticalPressed_eq_false :
    verticalPressed m = false ↔ m.button .dpadUp = false ∧ m.button .dpadDown = false :=
  Bool.or_eq_false_iff

theorem horizontalPressed_eq_false :
    horizontalPressed m = false ↔ m.button .dpadLeft = false ∧ m.button .dpadRight = false :=
  Bool.or_eq_false_iff

theorem dpadX_eq_zero (hc : m.DpadCoherent) (h : horizontalPressed m = false) :
    m.axis .dpadX = 0 := by
  obtain ⟨hl, hr⟩ := horizontalPressed_eq_false.mp h
  simp [hc.1, Message.count, hl, hr]

theorem dpadY_eq_zero (hc : m.DpadCoherent) (h : verticalPressed m = false) :
    m.axis .dpadY = 0 := by
  obtain ⟨hu, hd⟩ := verticalPressed_eq_false.mp h
  simp [hc.2, Message.count, hu, hd]

theorem axis_restrictStick (m : Message) {x y a : Axis} (hx : a ≠ x) (hy : a ≠ y) :
    (restrictStick m x y).axis a = m.axis a := by
  unfold restrictStick
  split
  · rw [Message.axis_setAxis, if_neg hy]
  · rw [Message.axis_setAxis, if_neg hx]

theorem keepsStronger_restrictStick (m : Message) {x y : Axis} (h : x ≠ y) :
    KeepsStronger x y m (restrictStick m x y) := by
  have hzero : ∀ a : Axis, (m.setAxis a 0).axis a = 0 := by
    intro a
    rw [Message.axis_setAxis, if_pos rfl, Axis.clamp_of_inRange a.inRange_zero]
  unfold KeepsStronger restrictStick
  split
  · exact ⟨by rw [Message.axis_setAxis, if_neg h], hzero y⟩
  · exact ⟨hzero x, by rw [Message.axis_setAxis, if_neg h.symm]⟩

theorem restrictStick_eq_self {x y : Axis} (h : m.axis x = 0 ∨ m.axis y = 0) :
    restrictStick m x y = m := by
  unfold restrictStick
  split
  · apply Message.setAxis_eq_self
    omega
  · apply Message.setAxis_eq_self
    omega

def sticks (m : Message) : Message := restrictStick (restrictStick m .x1 .y1) .x2 .y2

theorem button_sticks (m : Message) (b : Button) : (sticks m).button b = m.button b :=
  (button_restrictStick _ _ _ b).trans (button_restrictStick _ _ _ b)

theorem orientation_sticks (s : FourWay) (m : Message) :
    s.orientation (sticks m) = s.orientation m := by
  simp only [orientation, verticalPressed, horizontalPressed, button_sticks]

/-- What is remembered of a tick is its orientation, which decides the dpad as well. -/
theorem update_eq (s : FourWay) (m : Message) :
    s.update m = (⟨s.orientation m⟩, match s.orientation m with
      | none => sticks m
      | some vertical => restrictDpad vertical (sticks m)) := by
  have ho := s.orientation_sticks m
  unfold update
  change (match s.orientation (sticks m) with
    | none => ((⟨none⟩ : FourWay), sticks m)
    | some vertical => (⟨some vertical⟩, restrictDpad vertical (sticks m))) = _
  rw [ho]
  cases s.orientation m with
  | none => rfl
  | some vertical => rfl

theorem orientation_eq_none {s : FourWay} : s.orientation m = none ↔ dpadPressed m = false := by
  unfold orientation dpadPressed
  cases verticalPressed m <;> cases horizontalPressed m <;> simp

theorem verticalPressed_of_orientation {s : FourWay} (h : s.orientation m = some true) :
    verticalPressed m = true := by
  unfold orientation at h
  cases hv : verticalPressed m with
  | true => rfl
  | false => cases hh : horizontalPressed m <;> simp [hv, hh] at h

theorem horizontalPressed_of_orientation {s : FourWay} (h : s.orientation m = some false) :
    horizontalPressed m = true := by
  unfold orientation at h
  cases hh : horizontalPressed m with
  | true => rfl
  | false => cases hv : verticalPressed m <;> simp [hv, hh] at h

theorem dpadPressed_of_orientation {s : FourWay} {vertical : Bool}
    (h : s.orientation m = some vertical) : dpadPressed m = true := by
  apply Bool.of_not_eq_false
  intro hnone
  rw [orientation_eq_none.mpr hnone] at h
  cases h

theorem axis_update (s : FourWay) (m : Message) {a : Axis} (hx : a ≠ .dpadX) (hy : a ≠ .dpadY) :
    (s.update m).2.axis a = (sticks m).axis a := by
  rw [update_eq]
  cases s.orientation m with
  | none => rfl
  | some vertical => cases vertical <;> simp [restrictDpad, Message.syncDpad, hx, hy]

theorem button_update (s : FourWay) (m : Message) (b : Button) :
    (s.update m).2.button b = (m.button b &&
      match b with
      | .dpadUp | .dpadDown => s.orientation m == some true
      | .dpadLeft | .dpadRight => s.orientation m == some false
      | _ => true) := by
  rw [update_eq]
  cases ho : s.orientation m with
  | none =>
    obtain ⟨hv, hh⟩ := Bool.or_eq_false_iff.mp (orientation_eq_none.mp ho)
    obtain ⟨hu, hd⟩ := verticalPressed_eq_false.mp hv
    obtain ⟨hl, hr⟩ := horizontalPressed_eq_false.mp hh
    cases b <;> simp [button_sticks, hu, hd, hl, hr]
  | some vertical =>
    cases vertical <;> cases b <;> simp [restrictDpad, Message.syncDpad, button_sticks]

theorem verticalPressed_update (s : FourWay) (m : Message) :
    verticalPressed (s.update m).2 = (s.orientation m == some true) := by
  have hpressed := verticalPressed_of_orientation (s := s) (m := m)
  unfold verticalPressed at hpressed ⊢
  rw [button_update, button_update, ← Bool.and_or_distrib_right]
  by_cases ho : s.orientation m = some true
  · rw [hpressed ho, Bool.true_and]
  · simp [ho]

theorem horizontalPressed_update (s : FourWay) (m : Message) :
    horizontalPressed (s.update m).2 = (s.orientation m == some false) := by
  have hpressed := horizontalPressed_of_orientation (s := s) (m := m)
  unfold horizontalPressed at hpressed ⊢
  rw [button_update, button_update, ← Bool.and_or_distrib_right]
  by_cases ho : s.orientation m = some false
  · rw [hpressed ho, Bool.true_and]
  · simp [ho]

theorem dpadPressed_update (s : FourWay) (m : Message) :
    dpadPressed (s.update m).2 = dpadPressed m := by
  rw [dpadPressed, verticalPressed_update, horizontalPressed_update]
  cases ho : s.orientation m with
  | none => exact (orientation_eq_none.mp ho).symm
  | some vertical =>
    rw [dpadPressed_of_orientation ho]
    cases vertical <;> rfl

theorem vertical_update (s : FourWay) (hm : m.DpadCoherent)
    (h : verticalPressed (s.update m).2 = true) :
    (s.update m).2.button .dpadUp = m.button .dpadUp ∧
      (s.update m).2.button .dpadDown = m.button .dpadDown ∧
      (s.update m).2.axis .dpadY = m.axis .dpadY := by
  rw [verticalPressed_update] at h
  have hup : (s.update m).2.button .dpadUp = m.button .dpadUp := by simp [button_update, h]
  have hdown : (s.update m).2.button .dpadDown = m.button .dpadDown := by simp [button_update, h]
  refine ⟨hup, hdown, ?_⟩
  rw [(s.coherent_update hm).2, hm.2, Message.count, Message.count, hup, hdown]
  rfl

theorem horizontal_update (s : FourWay) (hm : m.DpadCoherent)
    (h : horizontalPressed (s.update m).2 = true) :
    (s.update m).2.button .dpadLeft = m.button .dpadLeft ∧
      (s.update m).2.button .dpadRight = m.button .dpadRight ∧
      (s.update m).2.axis .dpadX = m.axis .dpadX := by
  rw [horizontalPressed_update] at h
  have hleft : (s.update m).2.button .dpadLeft = m.button .dpadLeft := by simp [button_update, h]
  have hright : (s.update m).2.button .dpadRight = m.button .dpadRight := by
    simp [button_update, h]
  refine ⟨hleft, hright, ?_⟩
  rw [(s.coherent_update hm).1, hm.1, Message.count, Message.count, hleft, hright]
  rfl

theorem one_released_update (s : FourWay) (m : Message) :
    verticalPressed (s.update m).2 = false ∨ horizontalPressed (s.update m).2 = false := by
  rw [verticalPressed_update, horizontalPressed_update]
  cases s.orientation m with
  | none => exact Or.inl rfl
  | some vertical => cases vertical <;> simp

theorem KeepsStronger.congr {x y : Axis} {m' n' : Message} (h : KeepsStronger x y m n)
    (hmx : m'.axis x = m.axis x) (hmy : m'.axis y = m.axis y) (hnx : n'.axis x = n.axis x)
    (hny : n'.axis y = n.axis y) : KeepsStronger x y m' n' := by
  unfold KeepsStronger
  rw [hmx, hmy, hnx, hny]
  exact h

theorem KeepsStronger.one_at_zero {x y : Axis} (h : KeepsStronger x y m n) :
    n.axis x = 0 ∨ n.axis y = 0 := by
  unfold KeepsStronger at h
  split at h
  · exact Or.inr h.2
  · exact Or.inl h.1

theorem keepsStronger_sticks (m : Message) :
    KeepsStronger .x1 .y1 m (sticks m) ∧ KeepsStronger .x2 .y2 m (sticks m) := by
  let left := restrictStick m .x1 .y1
  constructor
  · apply (keepsStronger_restrictStick m (by decide)).congr rfl rfl
    · exact axis_restrictStick left (by decide) (by decide)
    · exact axis_restrictStick left (by decide) (by decide)
  · apply (keepsStronger_restrictStick left (by decide)).congr ?_ ?_ rfl rfl
    · exact (axis_restrictStick m (by decide) (by decide)).symm
    · exact (axis_restrictStick m (by decide) (by decide)).symm

theorem restricts_update (s : FourWay) (hm : m.DpadCoherent) : Restricts m (s.update m).2 := by
  have hn := s.coherent_update hm
  have hreleased := s.one_released_update m
  obtain ⟨hleft, hright⟩ := keepsStronger_sticks m
  have hleft' : KeepsStronger .x1 .y1 m (s.update m).2 :=
    hleft.congr rfl rfl (s.axis_update m (by decide) (by decide))
      (s.axis_update m (by decide) (by decide))
  have hright' : KeepsStronger .x2 .y2 m (s.update m).2 :=
    hright.congr rfl rfl (s.axis_update m (by decide) (by decide))
      (s.axis_update m (by decide) (by decide))
  have hdpad : (s.update m).2.axis .dpadX = 0 ∨ (s.update m).2.axis .dpadY = 0 := by
    rcases hreleased with h | h
    · exact Or.inr (dpadY_eq_zero hn h)
    · exact Or.inl (dpadX_eq_zero hn h)
  refine ⟨⟨hleft'.one_at_zero, hright'.one_at_zero, hdpad, hreleased⟩, hleft', hright',
    s.dpadPressed_update m, s.vertical_update hm, s.horizontal_update hm, ?_, ?_⟩
  · intro b hb
    rw [button_update]
    cases b <;> simp [Button.isDpad] at hb ⊢
  · intro a ha
    simp only [List.mem_cons, List.not_mem_nil, or_false] at ha
    rcases ha with rfl | rfl | rfl <;>
      rw [s.axis_update m (by decide) (by decide), sticks,
        axis_restrictStick _ (by decide) (by decide), axis_restrictStick _ (by decide) (by decide)]

theorem update_of_cardinal (h : Cardinal m) (hm : m.DpadCoherent) (s : FourWay) :
    (s.update m).2 = m := by
  have hsticks : sticks m = m := by
    rw [sticks, restrictStick_eq_self h.leftStick, restrictStick_eq_self h.rightStick]
  rw [update_eq, hsticks]
  cases ho : s.orientation m with
  | none => rfl
  | some vertical =>
    cases vertical with
    | true =>
      have hv := verticalPressed_of_orientation ho
      have hh : horizontalPressed m = false := by
        rcases h.buttons with h | h
        · rw [hv] at h
          cases h
        · exact h
      obtain ⟨hl, hr⟩ := horizontalPressed_eq_false.mp hh
      simp only [restrictDpad, if_true, Message.setButton_eq_self hl, Message.setButton_eq_self hr,
        hm.syncDpad_eq_self]
    | false =>
      have hh := horizontalPressed_of_orientation ho
      have hv : verticalPressed m = false := by
        rcases h.buttons with h | h
        · exact h
        · rw [hh] at h
          cases h
      obtain ⟨hu, hd⟩ := verticalPressed_eq_false.mp hv
      simp only [restrictDpad, Bool.false_eq_true, if_false, Message.setButton_eq_self hu,
        Message.setButton_eq_self hd, hm.syncDpad_eq_self]

/-- On a diagonal the orientation of the tick before stays, if the dpad was pressed then. -/
theorem verticalPressed_next (s : FourWay) (m : Message) {m' : Message}
    (hv : verticalPressed m' = true) (hh : horizontalPressed m' = true) :
    verticalPressed ((s.update m).1.update m').2 =
      if dpadPressed m then verticalPressed (s.update m).2 else true := by
  have hkept : (s.update m).1 = ⟨s.orientation m⟩ := by rw [update_eq]
  have ho : (s.update m).1.orientation m' = some ((s.orientation m).getD true) := by
    rw [hkept, orientation, hv, hh]
  rw [verticalPressed_update, verticalPressed_update, ho]
  cases hm : s.orientation m with
  | none =>
    rw [orientation_eq_none.mp hm]
    rfl
  | some vertical =>
    rw [dpadPressed_of_orientation hm]
    rfl

/-- Every message comes out as a restriction of what went in. A diagonal keeps the orientation kept
on the tick before if the dpad was pressed then, and the vertical one otherwise. A second
restrictor, whatever it remembers, leaves the results as they are. -/
theorem restricts_run {ms : List Message} (hms : ∀ m ∈ ms, m.DpadCoherent) :
    let out := Mealy.outputs update {} ms
    out.length = ms.length ∧
      (∀ (k : Nat) m n, ms[k]? = some m → out[k]? = some n → Restricts m n) ∧
      (∀ m n, ms[0]? = some m → out[0]? = some n →
        verticalPressed m = true → horizontalPressed m = true → verticalPressed n = true) ∧
      (∀ (k : Nat) m n m' n', ms[k]? = some m → out[k]? = some n → ms[k + 1]? = some m' →
        out[k + 1]? = some n' → verticalPressed m' = true → horizontalPressed m' = true →
        verticalPressed n' = if dpadPressed m then verticalPressed n else true) ∧
      ∀ s, Mealy.outputs update s out = out := by
  intro out
  have hout : ∀ (k : Nat) m n, ms[k]? = some m → out[k]? = some n →
      n = ((Mealy.after update {} (ms.take k)).update m).2 := by
    intro k m n hm hn
    rw [Mealy.getElem?_outputs, hm] at hn
    exact (Option.some.inj hn).symm
  refine ⟨Mealy.length_outputs _ _ _, ?_, ?_, ?_, ?_⟩
  · intro k m n hm hn
    rw [hout k m n hm hn]
    exact restricts_update _ (hms m (List.mem_of_getElem? hm))
  · intro m n hm hn hv hh
    rw [hout 0 m n hm hn, verticalPressed_update, List.take_zero, Mealy.after, List.foldl_nil,
      orientation, hv, hh]
    rfl
  · intro k m n m' n' hm hn hm' hn' hv hh
    rw [hout (k + 1) m' n' hm' hn', Mealy.after_take_succ update _ hm, hout k m n hm hn]
    exact verticalPressed_next _ m hv hh
  · intro s
    apply Mealy.outputs_eq_self
    intro n hn s
    obtain ⟨k, hk⟩ := List.mem_iff_getElem?.mp hn
    obtain ⟨m, hm⟩ : ∃ m, ms[k]? = some m := by
      rw [Mealy.getElem?_outputs] at hk
      obtain ⟨m, hm, -⟩ := Option.map_eq_some_iff.mp hk
      exact ⟨m, hm⟩
    have hcoherent := hms m (List.mem_of_getElem? hm)
    rw [hout k m n hm hk]
    exact update_of_cardinal (restricts_update _ hcoherent).cardinal (coherent_update _ hcoherent) s

/-- From the right to a diagonal, to another one with left and right both pressed, and after a pause
to a third one, with a stick at the lowest value of its range. -/
theorem restricts_run_diagonals :
    let pad (bs : List Button) : Message :=
      (bs.foldl (fun m b => m.setButton b true) Message.neutral).syncDpad
    let ms := [pad [.dpadRight], pad [.dpadRight, .dpadUp], pad [.dpadRight, .dpadLeft, .dpadDown],
      pad [], ((pad [.dpadLeft, .dpadDown]).setAxis .x1 (-32768)).setAxis .y1 32767]
    let out := Mealy.outputs update {} ms
    out.map verticalPressed = [false, false, false, false, true] ∧
      out.map (Message.axis · .x1) = [0, 0, 0, 0, -32768] ∧
      out.map (Message.axis · .y1) = [0, 0, 0, 0, 0] ∧
      Mealy.outputs update ⟨some false⟩ out = out := by
  intro pad ms out
  have hms : ∀ m ∈ ms, m.DpadCoherent := by decide +kernel
  obtain ⟨-, -, -, -, hagain⟩ := restricts_run hms
  refine ⟨?_, ?_, ?_, hagain _⟩ <;> decide +kernel

end FourWay

end PadRemap
