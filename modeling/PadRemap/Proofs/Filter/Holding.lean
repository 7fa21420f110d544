import Mathlib.Algebra.Group.Nat.Even
import Mathlib.Algebra.GroupWithZero.Nat
import Mathlib.Data.List.DropRight
import PadRemap.Proofs.Filter.Faultless
import PadRemap.Proofs.Filter.Mealy

/-! Autofire over time. The counter of the filter is the time for which its button has been held
without a break, whatever came before the break; so the phase of an output depends on nothing
else. -/

namespace PadRemap

/-- For how long a button has been held without a break at the end of some ticks. -/
def Button.heldTime (b : Button) (ts : List Tick) : Nat :=
  ((ts.rtakeWhile fun t => t.message.button b).map Tick.ms).sum

theorem Button.heldTime_concat (b : Button) (ts : List Tick) (t : Tick) :
    b.heldTime (ts ++ [t]) = if t.message.button b then b.heldTime ts + t.ms else 0 := by
  unfold heldTime
  rw [List.rtakeWhile_concat]
  split
  · simp
  · rfl

namespace Autofire

def tick (s : Autofire) (t : Tick) : Autofire × Message := s.update t.ms t.message

def tick? (s : Autofire) (t : Tick) : Option (Autofire × Message) := s.computed? t.ms t.message

theorem message_update (s : Autofire) (ms : Nat) (m : Message) :
    (s.update ms m).2 = m.setButton s.button (m.button s.button && firing s.period s.held) := by
  unfold update
  by_cases h : m.button s.button = true
  · simp [h]
  · ext b
    · by_cases hb : b = s.button
      · subst hb
        simp [h]
      · simp [h, hb]
    · simp [h]

theorem firing_iff (period held : Nat) : firing period held = true ↔ Even (held / period) := by
  rw [firing, beq_iff_eq, Nat.even_iff]

theorem after_ticks (b : Button) (period : Nat) (ts : List Tick) :
    Mealy.after tick { button := b, period } ts =
      { button := b, period, held := b.heldTime ts } := by
  induction ts using List.reverseRecOn with
  | nil => rfl
  | append_singleton ts t ih =>
    rw [Mealy.after_append, ih, b.heldTime_concat]
    change (Autofire.update _ t.ms t.message).1 = _
    unfold update
    split <;> rfl

/-- As long as no hold outlasts the counter, a tick never fails. It lets the button through exactly
if the whole periods in the time for which it has been held right before the tick are even in
number, and lets everything else through as it is. -/
theorem fires_by_held_time (b : Button) {period : Nat} (hperiod : 0 < period) {ts : List Tick}
    (hheld : ∀ n, b.heldTime (ts.take n) < 18446744073709551616) :
    ∃ s out, Mealy.run? tick? { button := b, period } ts = some (s, out) ∧
      out.length = ts.length ∧
      ∀ n t m, ts[n]? = some t → out[n]? = some m →
        (m.button b = true ↔
          t.message.button b = true ∧ Even (b.heldTime (ts.take n) / period)) ∧
        (∀ c, c ≠ b → m.button c = t.message.button c) ∧
        ∀ a, m.axis a = t.message.axis a := by
  refine ⟨_, _, Mealy.run?_eq tick ?_, Mealy.length_outputs _ _ _, ?_⟩
  · intro n t ht
    apply computed?_eq
    · rw [after_ticks]
      exact hperiod
    · have hnext := after_ticks b period (ts.take (n + 1))
      rw [Mealy.after_take_succ tick _ ht] at hnext
      change (Autofire.tick _ t).1.held < _
      rw [hnext]
      exact hheld (n + 1)
  · intro n t m ht hm
    rw [Mealy.getElem?_outputs, ht, after_ticks] at hm
    have hout : m = t.message.setButton b
        (t.message.button b && firing period (b.heldTime (ts.take n))) :=
      (Option.some.inj hm).symm.trans (message_update _ _ _)
    rw [hout]
    refine ⟨?_, ?_, fun a => rfl⟩
    · simp [firing_iff]
    · intro c hc
      simp [hc]

/-- A hold with a tick longer than several periods, a release, and a hold in which the phases start
anew. -/
theorem fires_by_held_time_twice :
    let pressed : Message := Message.neutral.setButton .faceA true
    let ts : List Tick := [⟨50, pressed⟩, ⟨0, pressed⟩, ⟨260, pressed⟩, ⟨49, pressed⟩,
      ⟨10, .neutral⟩, ⟨49, pressed⟩, ⟨1, pressed⟩, ⟨7, pressed⟩]
    ∃ s out, Mealy.run? tick? { button := .faceA, period := 50 } ts = some (s, out) ∧
      out.map (fun m => m.button .faceA) =
        [true, false, false, true, false, true, true, false] := by
  intro pressed ts
  have hheld : ∀ n, Button.faceA.heldTime (ts.take n) < 18446744073709551616 := by
    intro n
    by_cases hn : n < 9
    · revert n
      decide +kernel
    · rw [List.take_of_length_le (show ts.length ≤ n by simp [ts]; omega)]
      decide +kernel
  obtain ⟨s, out, hrun, hlength, hout⟩ := fires_by_held_time .faceA (show 0 < 50 by decide) hheld
  refine ⟨s, out, hrun, ?_⟩
  have hmap : out.map (fun m => m.button .faceA) = ts.mapIdx fun n t =>
      t.message.button .faceA && decide (Even (Button.faceA.heldTime (ts.take n) / 50)) := by
    apply List.ext_getElem
    · simp [hlength]
    · intro n hn hn'
      rw [List.length_map] at hn
      have hn'' : n < ts.length := hlength ▸ hn
      obtain ⟨hfires, -⟩ := hout n ts[n] out[n] (List.getElem?_eq_getElem hn'')
        (List.getElem?_eq_getElem hn)
      rw [List.getElem_map, List.getElem_mapIdx, Bool.eq_iff_iff, hfires]
      simp
  rw [hmap]
  decide +kernel

end Autofire

end PadRemap
