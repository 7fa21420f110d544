import PadRemap.Proofs.Mapper.Ensemble

/-! How long a picture lasts. What holds of a mapper and of the levels of its group before a job,
and is carried over by the plan of the job, holds of both once the plan is carried out; the calls
of mappers in other groups and the passing of time do not disturb it. -/

namespace PadRemap

open Mapper (Job)

/-- A property of the jobs begun so far, of a mapper and of the levels of its group that each
further job carries over. -/
structure Wiring.Lasting (w : Wiring) (D : List Job → Mapper → (Output → Level) → Prop) :
    Prop where
  congr : ∀ {js s l l'}, (∀ o, o.device.group = w.group → l' o = l o) → D js s l → D js s l'
  plan : ∀ {js s l} job, s.Settled → s.wiring = w → D js s l →
    D (js ++ [job]) (s.after job) fun o => (Step.writes o (s.plan job)).getD (l o)

namespace Ensemble

variable {ι : Type} [DecidableEq ι] {m : Multiplexer} {w : ι → Wiring} {i : ι}
  {D : List Job → Mapper → (Output → Level) → Prop} {e : Ensemble ι}

/-- As long as no call of a player has failed, its pending calls complete a picture. -/
structure Completes (m : Multiplexer) (w : ι → Wiring) (i : ι)
    (D : List Job → Mapper → (Output → Level) → Prop) (e : Ensemble ι) : Prop where
  wired : e.Wired m w
  holds : (∀ r ∈ (e.players i).results, r = .ok ()) → (e.players i).Sound ∧
    D (e.players i).begun (e.players i).target fun o =>
      (Step.writes o (e.players i).pending).getD (e.mux.level o)

omit [DecidableEq ι] in
theorem Completes.start (h : m.Fresh) (w : ι → Wiring) (scripts : ι → List Job) (i : ι)
    (hD : (w i).Lasting D) (hstart : D [] (w i).mapper fun _ => none) :
    (start m w scripts).Completes m w i D where
  wired := .start h.inService w scripts
  holds _ := ⟨⟨Mapper.settled_mapper (w i), rfl, fun _ _ hy => nomatch hy⟩,
    hD.congr (fun o _ => h.level o) hstart⟩

theorem level_advance_of_ne (h : e.Wired m w) (b : Backend) {j : ι} {o : Output}
    (ho : o.device.group ≠ (w j).group) :
    (e.next (.advance j b)).mux.level o = e.mux.level o := by
  have hn : ¬(w j).Uses o := fun hu => ho hu.group
  rcases h.mux_advance j b with he | ⟨c, hc, he⟩
  · rw [he]
  · rw [he]
    exact h.service.level_perform_of_not b hc hn

theorem Completes.frame (h : e.Completes m w i D) (hD : (w i).Lasting D) {mv : Move ι}
    (hp : (e.next mv).players i = e.players i)
    (hl : ∀ o, o.device.group = (w i).group → (e.next mv).mux.level o = e.mux.level o) :
    (e.next mv).Completes m w i D where
  wired := h.wired.next mv
  holds hr := by
    rw [hp] at hr ⊢
    obtain ⟨hs, hd⟩ := h.holds hr
    exact ⟨hs, hD.congr (fun o ho => by rw [hl o ho]) hd⟩

theorem Completes.next (h : e.Completes m w i D) (hD : (w i).Lasting D)
    (halone : ∀ j, j ≠ i → (w j).group ≠ (w i).group) (mv : Move ι) :
    (e.next mv).Completes m w i D := by
  cases mv with
  | update ms b =>
    obtain ⟨-, -, hl⟩ := h.wired.service.update b ms
    exact h.frame hD rfl fun o _ => hl o
  | advance j b =>
    by_cases hj : j = i
    · subst hj
      rcases (e.players j).advance_cases b e.mux with ⟨-, -, he⟩ | ⟨job, jobs, hi, -, he⟩ |
        ⟨x, xs, hp, hok, he⟩ | ⟨x, xs, err, hp, -, he⟩
      · exact h.frame hD (by simp [Ensemble.next, he]) fun o _ => by simp [Ensemble.next, he]
      · refine ⟨h.wired.next _, fun hr => ?_⟩
        simp only [Ensemble.next, he, Function.update_self] at hr ⊢
        obtain ⟨hs, hd⟩ := h.holds hr
        have ht := Player.target_of_idle hi
        refine ⟨hs.begin hi job jobs, ?_⟩
        rw [Player.target_begin]
        rw [hi, ht] at hd
        exact hD.plan job (ht ▸ hs.settled) (h.wired.players j).mapper.wiring hd
      · have hc := ((h.wired.players j).pending x (hp ▸ List.mem_cons_self)).1
        have hlevel := h.wired.service.level_perform hc hok
        refine ⟨h.wired.next _, fun hr => ?_⟩
        simp only [Ensemble.next, he, Function.update_self] at hr ⊢
        obtain ⟨hs, hd⟩ := h.holds fun r hm => hr r (by
          simp only [Player.pass]
          split
          · exact List.mem_append_left _ hm
          · exact hm)
        refine ⟨hs.pass hp, ?_⟩
        rw [Player.target_pass hp]
        refine hD.congr (fun o _ => ?_) hd
        simp only [Player.pass]
        rw [hlevel, hp, Step.writes_cons]
        cases Step.writes o xs <;> rfl
      · refine ⟨h.wired.next _, fun hr => ?_⟩
        simp only [Ensemble.next, he, Function.update_self] at hr
        have := hr (.error err) (List.mem_append_right _ List.mem_cons_self)
        cases this
    · refine h.frame hD (by simp [Ensemble.next, Function.update_of_ne (Ne.symm hj)]) fun o ho => ?_
      exact level_advance_of_ne h.wired b (ho ▸ (halone j hj).symm)

end Ensemble

end PadRemap
