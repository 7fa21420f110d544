import PadRemap.Proofs.Mapper.Ensemble

/-! What an ensemble writes to. Frames are written as the mappers make them and timers keep writing
until they are removed, so everything written is for outputs in the tables of some mapper. -/

namespace PadRemap

open Mapper (Job)

namespace Ensemble

variable {ι : Type} [DecidableEq ι] {m : Multiplexer} {w : ι → Wiring} {e : Ensemble ι}

def Reaches (w : ι → Wiring) (o : Output) : Prop := ∃ i, (w i).Uses o

structure Confined (m : Multiplexer) (w : ι → Wiring) (e : Ensemble ι) : Prop where
  wired : e.Wired m w
  timers : ∀ d code, e.mux.level ⟨d, .rel, code⟩ ≠ none → Reaches w ⟨d, .rel, code⟩
  events : ∀ x ∈ Journal.events e.mux.journal.batches, Reaches w (x.2.output x.1)

omit [DecidableEq ι] in
theorem Confined.start (h : m.Fresh) (w : ι → Wiring) (scripts : ι → List Job) :
    (start m w scripts).Confined m w where
  wired := .start h.inService w scripts
  timers d code ht := (ht (h.level _)).elim
  events x hx := by
    change x ∈ Journal.events m.journal.batches at hx
    rw [h.batches] at hx
    cases hx

theorem Confined.advance (h : e.Confined m w) (i : ι) (b : Backend) :
    (e.next (.advance i b)).Confined m w := by
  rcases h.wired.mux_advance i b with he | ⟨c, hc, he⟩
  · refine ⟨h.wired.next _, ?_, ?_⟩
    · rw [he]
      exact h.timers
    · rw [he]
      exact h.events
  · refine ⟨h.wired.next _, ?_, ?_⟩
    · intro d code ht
      by_cases hu : (w i).Uses ⟨d, .rel, code⟩
      · exact ⟨i, hu⟩
      · rw [he, h.wired.service.level_perform_of_not b hc hu] at ht
        exact h.timers d code ht
    · intro x hx
      rw [he] at hx
      rcases h.wired.service.events_perform b hc hx with hx | hx
      · exact h.events x hx
      · exact ⟨i, hx⟩

theorem Confined.next (h : e.Confined m w) (mv : Move ι) : (e.next mv).Confined m w := by
  cases mv with
  | advance i b => exact h.advance i b
  | update ms b =>
    obtain ⟨-, -, hl⟩ := h.wired.service.update b ms
    refine ⟨h.wired.next _, ?_, ?_⟩
    · intro d code ht
      exact h.timers d code (hl _ ▸ ht)
    · intro x hx
      rcases h.wired.service.events_update b ms hx with hx | ⟨d, code, ht, hx⟩
      · exact h.events x hx
      · exact hx ▸ h.timers d code ht

theorem Confined.run (h : m.Fresh) (w : ι → Wiring) (scripts : ι → List Job)
    (moves : List (Move ι)) : ((Ensemble.start m w scripts).run moves).Confined m w :=
  run_induct (.start h w scripts) fun _ he mv _ => he.next mv

omit [DecidableEq ι] in
/-- If every output in the tables is on an active device and the backend obeys, no call fails. -/
theorem Wired.answer (h : e.Wired m w) (hactive : ∀ o, Reaches w o → m.IsActive o.device)
    {mv : Move ι} (hb : mv.backend.Obeys) : e.answer mv = .ok () := by
  cases mv with
  | update ms b => exact h.service.update_ok hb ms
  | advance i b =>
    cases hp : (e.players i).pending with
    | nil => simp only [Ensemble.answer, hp]
    | cons x xs =>
      have hc := ((h.players i).pending x (hp ▸ List.mem_cons_self)).1
      simp only [Ensemble.answer, hp]
      exact h.service.perform_ok hb hc fun o ho => h.devices.isActive (hactive o ⟨i, ho⟩)

end Ensemble

end PadRemap
