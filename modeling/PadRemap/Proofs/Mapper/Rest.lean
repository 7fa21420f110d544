import PadRemap.Proofs.Mapper.Ensemble

/-! Everything ends at rest. Mappers may share output groups and even single outputs, and their
calls may come in any order; as long as the backend obeys, an output that is not at rest is owed a
release by some mapper, and a mapper that has been reset owes none. -/

namespace PadRemap

open Mapper (Job)

/-- A player that will write to an output again in its current job, or drives it afterwards. -/
def Player.Owes (p : Player) (o : Output) : Prop :=
  (Step.writes o p.pending).isSome ∨ ∃ x, p.target.level o x ≠ none

theorem Player.Owes.begin {p : Player} {o : Output} (h : p.Owes o) (hs : p.Sound) (hi : p.Idle)
    (job : Job) (jobs : List Job) : (p.begin job jobs).Owes o := by
  have ht := target_of_idle hi
  have hx : ∃ x, p.mapper.level o x ≠ none := by
    rcases h with h | h
    · rw [hi] at h
      cases h
    · exact ht ▸ h
  rcases (ht ▸ hs.settled).plan_writes job o with ⟨-, hsame⟩ | ⟨x, -, hw⟩
  · obtain ⟨x, hx⟩ := hx
    exact Or.inr ⟨x, by rw [target_begin, hsame]; exact hx⟩
  · exact Or.inl (Option.isSome_iff_exists.mpr ⟨_, hw⟩)

theorem Player.Owes.of_writes {p : Player} (hs : p.Sound) {x : Step} {xs : List Step}
    (hp : p.pending = x :: xs) {o : Output} {y : Int × Nat} (hw : x.call.writes o = some (some y)) :
    (p.pass x xs).Owes o := by
  cases hxs : Step.writes o xs with
  | some l => exact Or.inl (Option.isSome_iff_exists.mpr ⟨l, hxs⟩)
  | none =>
    obtain ⟨z, hz⟩ := hs.honest o y (by rw [hp, Step.writes_cons, hxs, hw]; rfl)
    exact Or.inr ⟨z, by rw [target_pass hp, hz]; simp⟩

theorem Player.Owes.pass {p : Player} {o : Output} (h : p.Owes o) {x : Step} {xs : List Step}
    (hp : p.pending = x :: xs) (hw : x.call.writes o = none) : (p.pass x xs).Owes o := by
  rcases h with h | h
  · rw [hp, Step.writes_cons, hw, Option.or_none] at h
    exact Or.inl h
  · exact Or.inr (by rwa [target_pass hp])

namespace Ensemble

variable {ι : Type} [DecidableEq ι] {m : Multiplexer} {w : ι → Wiring}
  {scripts : ι → List Job} {e : Ensemble ι}

structure Orderly (m : Multiplexer) (w : ι → Wiring) (scripts : ι → List Job)
    (e : Ensemble ι) : Prop where
  wired : e.Wired m w
  sound : ∀ i, (e.players i).Sound
  script : ∀ i, (e.players i).begun ++ (e.players i).jobs = scripts i
  results : ∀ i, ∀ r ∈ (e.players i).results, r = .ok ()
  owed : ∀ o, e.mux.level o ≠ none → ∃ i, (e.players i).Owes o

omit [DecidableEq ι] in
theorem Orderly.start (h : m.Fresh) (w : ι → Wiring) (scripts : ι → List Job) :
    (start m w scripts).Orderly m w scripts where
  wired := .start h.inService w scripts
  sound i := ⟨Mapper.settled_mapper (w i), rfl, fun _ _ hy => nomatch hy⟩
  script _ := rfl
  results _ _ hr := nomatch hr
  owed o ho := (ho (h.level o)).elim

theorem Orderly.replace (h : e.Orderly m w scripts) {i : ι} {b : Backend} {p : Player}
    {n : Multiplexer} (he : (e.players i).advance b e.mux = (n, p)) (hsound : p.Sound)
    (hres : ∀ r ∈ p.results, r = .ok ()) (howed : ∀ o, n.level o ≠ none → p.Owes o ∨
      ∃ j, j ≠ i ∧ (e.players j).Owes o) : (e.next (.advance i b)).Orderly m w scripts where
  wired := h.wired.next _
  sound := forall_players_next h.sound (he ▸ hsound)
  script := forall_players_next (Q := fun j q => q.begun ++ q.jobs = scripts j) h.script
    (((e.players i).advance_script b e.mux).trans (h.script i))
  results := forall_players_next (Q := fun _ q => ∀ r ∈ q.results, r = .ok ()) h.results
    (by rwa [he])
  owed o ho := by
    have hn : (e.next (.advance i b)).mux = n := congrArg Prod.fst he
    rcases howed o (hn ▸ ho) with hp | ⟨j, hj, hp⟩
    · refine ⟨i, ?_⟩
      rw [players_next_self, he]
      exact hp
    · refine ⟨j, ?_⟩
      rw [players_next_of_ne e hj]
      exact hp

theorem Orderly.next (h : e.Orderly m w scripts)
    (hactive : ∀ i o, (w i).Uses o → m.IsActive o.device) {mv : Move ι}
    (hb : mv.backend.Obeys) : (e.next mv).Orderly m w scripts := by
  cases mv with
  | update ms b =>
    obtain ⟨-, -, hl⟩ := h.wired.service.update b ms
    exact ⟨h.wired.next _, h.sound, h.script, h.results, fun o ho => h.owed o (hl o ▸ ho)⟩
  | advance i b =>
    rcases (e.players i).advance_cases b e.mux with ⟨-, -, he⟩ | ⟨job, jobs, hi, -, he⟩ |
      ⟨x, xs, hp, hok, he⟩ | ⟨x, xs, err, hp, herr, he⟩
    · refine h.replace he (h.sound i) (h.results i) fun o ho => ?_
      obtain ⟨j, hj⟩ := h.owed o ho
      by_cases hji : j = i
      · exact Or.inl (hji ▸ hj)
      · exact Or.inr ⟨j, hji, hj⟩
    · refine h.replace he ((h.sound i).begin hi job jobs) (h.results i) fun o ho => ?_
      obtain ⟨j, hj⟩ := h.owed o ho
      by_cases hji : j = i
      · exact Or.inl ((hji ▸ hj).begin (h.sound i) hi job jobs)
      · exact Or.inr ⟨j, hji, hj⟩
    · have hc := ((h.wired.players i).pending x (hp ▸ List.mem_cons_self)).1
      have hlevel := h.wired.service.level_perform hc hok
      refine h.replace he ((h.sound i).pass hp) (fun r hr => ?_) fun o ho => ?_
      · simp only [Player.pass] at hr
        split at hr
        · rcases List.mem_append.mp hr with hr | hr
          · exact h.results i r hr
          · exact List.mem_singleton.mp hr
        · exact h.results i r hr
      · rw [hlevel] at ho
        cases hw : x.call.writes o with
        | none =>
          rw [hw] at ho
          obtain ⟨j, hj⟩ := h.owed o ho
          by_cases hji : j = i
          · exact Or.inl ((hji ▸ hj).pass hp hw)
          · exact Or.inr ⟨j, hji, hj⟩
        | some l =>
          cases l with
          | none => rw [hw] at ho; exact (ho rfl).elim
          | some y => exact Or.inl (.of_writes (h.sound i) hp hw)
    · have hc := ((h.wired.players i).pending x (hp ▸ List.mem_cons_self)).1
      have hok := h.wired.service.perform_ok hb hc fun o ho =>
        h.wired.devices.isActive (hactive i o ho)
      cases hok.symm.trans herr

theorem Orderly.run (h : m.Fresh)
    (hactive : ∀ i o, (w i).Uses o → m.IsActive o.device) {moves : List (Move ι)}
    (hb : ∀ mv ∈ moves, mv.backend.Obeys) :
    ((Ensemble.start m w scripts).run moves).Orderly m w scripts :=
  run_induct (.start h w scripts) fun _ he mv hmv => he.next hactive (hb mv hmv)

omit [DecidableEq ι] in
/-- A player of an orderly ensemble that has ended its script with a reset is as good as new. -/
theorem Orderly.mapper_of_reset (h : e.Orderly m w scripts) {i : ι}
    (hi : (e.players i).Idle) (hj : (e.players i).jobs = [])
    (hr : (scripts i).getLast? = some .reset) : (e.players i).mapper = (w i).mapper := by
  have hs := h.script i
  rw [hj, List.append_nil] at hs
  have hmsg : (e.players i).message = .neutral := by
    rw [Player.message, hs, hr]
    rfl
  have ht := Player.target_of_idle hi
  have hsettled : (e.players i).mapper.Settled := ht ▸ (h.sound i).settled
  have hlast : (e.players i).mapper.last = .neutral := by
    rw [← hmsg, ← (h.sound i).last, ht]
  rw [← ((h.wired.players i).mapper).wiring]
  exact hsettled.eq_mapper hlast

/-- On a fresh multiplexer where all outputs are active and the backend obeys, no call fails, a
mapper between two jobs holds events only for buttons that are pressed in its last message, and
once every script has ended with a reset everything is at rest. -/
theorem rest_of_reset (hm : m.Fresh) (w : ι → Wiring)
    (hactive : ∀ i o, (w i).Uses o → m.IsActive o.device) (scripts : ι → List Job)
    (hreset : ∀ i, (scripts i).getLast? = some .reset) (moves : List (Move ι))
    (hb : ∀ mv ∈ moves, mv.backend.Obeys) :
    let e := (Ensemble.start m w scripts).run moves
    (∀ i, ∀ r ∈ (e.players i).results, r = .ok ()) ∧
    (∀ i, (e.players i).Idle → ∀ b, (e.players i).mapper.active.get b ≠ .void →
      (e.players i).message.button b = true) ∧
    ((∀ i, (e.players i).Idle ∧ (e.players i).jobs = []) →
      (∀ o v, o.kind ≠ .rel → e.mux.valueOn o = some v → v = 0) ∧
      e.mux.repeats = ∅ ∧ e.mux.Quiet ∧ ∀ i, (e.players i).mapper = (w i).mapper) := by
  intro e
  have he : e.Orderly m w scripts := .run hm hactive hb
  refine ⟨he.results, fun i hi b hact => ?_, fun hdone => ?_⟩
  · have ht := Player.target_of_idle hi
    rw [← (he.sound i).last, ht]
    exact (ht ▸ (he.sound i).settled).held b hact
  · have hnew : ∀ i, (e.players i).mapper = (w i).mapper := fun i =>
      he.mapper_of_reset (hdone i).1 (hdone i).2 (hreset i)
    have hlevel : ∀ o, e.mux.level o = none := by
      intro o
      by_contra ho
      obtain ⟨i, hw | ⟨x, hx⟩⟩ := he.owed o ho
      · rw [(hdone i).1] at hw
        cases hw
      · rw [Player.target_of_idle (hdone i).1, hnew, Mapper.level_mapper] at hx
        exact hx rfl
    refine ⟨fun o v hk hv => ?_, ?_, he.wired.service.quiet, hnew⟩
    · have := hlevel o
      rw [Multiplexer.level_of_ne_rel hk, hv] at this
      exact Level.hold_eq_none.mp this
    · refine Std.ExtTreeMap.ext_getElem? fun o => ?_
      have := hlevel ⟨o.device, .rel, o.code⟩
      rw [Multiplexer.level_rel, Multiplexer.timerOn, Option.map_eq_none_iff] at this
      simpa using this

/-- Two mappers press and release the same key, one call at a time, and are reset. -/
theorem rest_of_reset_shared_key :
    let w : Wiring := .single 0 .faceA (.key 0 304)
    let pad : Device := .active (.forDevice "pad" ⟨0, 0⟩) []
    let m : Multiplexer :=
      { base := "pad", devices := (∅ : DeviceMap Device).insert ⟨0, 0⟩ pad, finished := true }
    let script : List Job := [.process (Message.neutral.setButton .faceA true), .reset]
    let moves : List (Move Bool) :=
      [true, false, true, false, true, true, false, false].map (Move.advance · .reliable)
    let e := (Ensemble.start m (fun _ => w) fun _ => script).run moves
    (e.mux.written ⟨0, 0⟩).length = 4 ∧
    (∀ o v, o.kind ≠ .rel → e.mux.valueOn o = some v → v = 0) ∧
      e.mux.repeats = ∅ ∧ e.mux.Quiet ∧ ∀ i, (e.players i).mapper = w.mapper := by
  intro w pad m script moves e
  have hm : m.Fresh := Multiplexer.fresh_insert _ _ _
  have huses : ∀ o, w.Uses o → o.device = ⟨0, 0⟩ := by
    rintro o ⟨x, h⟩
    obtain ⟨-, ho⟩ := Wiring.canWrite_single.mp h
    cases ho
    rfl
  have hactive : ∀ (i : Bool) o, w.Uses o → m.IsActive o.device := by
    intro _ o ho
    exact ⟨.forDevice "pad" ⟨0, 0⟩, [], by simp [m, pad, huses o ho]⟩
  have hdone : (e.mux.written ⟨0, 0⟩).length = 4 ∧
      ∀ i, (e.players i).pending = [] ∧ (e.players i).jobs = [] := by
    decide +kernel
  have hrest := rest_of_reset hm (fun _ => w) hactive (fun _ => script) (fun _ => rfl) moves
    (fun mv hmv => by
      obtain ⟨i, -, rfl⟩ := List.mem_map.mp hmv
      exact fun _ _ => rfl)
  exact ⟨hdone.1, hrest.2.2 hdone.2⟩

end Ensemble

end PadRemap
