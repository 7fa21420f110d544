import PadRemap.Proofs.Mapper.Upkeep

/-! The stream of changes says what is held. If no two sources of a mapper reach one output and no
other mapper writes to its group, then after each job the values written last and the repeat timers
of the group are those of the held events and the deflected axes. -/

namespace PadRemap

open Mapper (Job)

/-- Each output of the mapper's group stands where the one source that reaches it drives it. -/
def Wiring.Displays (w : Wiring) (s : Mapper) (l : Output → Level) : Prop :=
  ∀ o, o.device.group = w.group →
    (∀ x, w.CanWrite x o → l o = s.level o x) ∧ ((∀ x, ¬w.CanWrite x o) → l o = none)

namespace Mapper

/-- What the events written so far and the timers show of a mapper. -/
structure Mirrors (s : Mapper) (m : Multiplexer) : Prop where
  pressed : ∀ b kind code, s.active.get b = .key kind code →
    (m.valueOn ⟨⟨s.group, kind⟩, .key, code⟩).getD 0 = 1
  released : ∀ kind code, (∀ b, s.active.get b ≠ .key kind code) →
    (m.valueOn ⟨⟨s.group, kind⟩, .key, code⟩).getD 0 = 0
  axis : ∀ a kind code, s.axes.lookup a = .abs kind code →
    (m.valueOn ⟨⟨s.group, kind⟩, .abs, code⟩).getD 0 = s.last.axis a
  button : ∀ b kind code v, s.active.get b = .abs kind code v →
    (m.valueOn ⟨⟨s.group, kind⟩, .abs, code⟩).getD 0 = v
  centred : ∀ kind code, (∀ a, s.axes.lookup a ≠ .abs kind code) →
    (∀ b v, s.active.get b ≠ .abs kind code v) →
    (m.valueOn ⟨⟨s.group, kind⟩, .abs, code⟩).getD 0 = 0
  timers : ∀ kind code t, m.timerOn ⟨⟨s.group, kind⟩, code⟩ = some t ↔
    (∃ b v i, s.active.get b = .rel kind code v i ∧ 0 ≤ i ∧ t = (v, max i.toNat 1)) ∨
    ∃ a speed i, s.axes.lookup a = .rel kind code speed i ∧
      Draft.relativeValue speed s.last a ≠ 0 ∧ 0 ≤ i ∧
      t = (Draft.relativeValue speed s.last a, max i.toNat 1)

variable {s : Mapper} {m : Multiplexer}

theorem level_button {b : Button} {o : Output} (h : (s.active.get b).output? s.group = some o) :
    s.level o (.button b) = (s.active.get b).level := if_pos h

theorem level_axis {a : Axis} {o : Output} (h : (s.axes.lookup a).output? s.group = some o) :
    s.level o (.axis a) = (s.axes.lookup a).level (s.last.axis a) (s.relative.get a) := if_pos h

theorem Settled.canWrite (h : s.Settled) {b : Button} {o : Output}
    (ho : (s.active.get b).output? s.group = some o) : s.wiring.CanWrite (.button b) o :=
  ⟨_, h.keeps.bound b (fun hv => by rw [hv] at ho; cases ho), ho⟩

theorem exists_of_displays (hd : s.wiring.Displays s m.level) {o : Output}
    (ho : o.device.group = s.group) {y : Int × Nat} (hy : m.level o = some y) :
    (∃ b, (s.active.get b).output? s.group = some o ∧ (s.active.get b).level = some y) ∨
    ∃ a, (s.axes.lookup a).output? s.group = some o ∧
      (s.axes.lookup a).level (s.last.axis a) (s.relative.get a) = some y := by
  obtain ⟨hcan, hnone⟩ := hd o ho
  have hx : ∃ x, s.level o x = some y := by
    by_contra hn
    have : ∀ x, ¬s.wiring.CanWrite x o := fun x hx => hn ⟨x, (hcan x hx).symm.trans hy⟩
    rw [hnone this] at hy
    cases hy
  obtain ⟨b | a, hx⟩ := hx
  · rw [level, drives, Option.ite_none_right_eq_some] at hx
    exact Or.inl ⟨b, hx⟩
  · rw [level, drives, Option.ite_none_right_eq_some] at hx
    exact Or.inr ⟨a, hx⟩

theorem value_of_level {o : Output} (hk : o.kind ≠ .rel) {v : Int} (h : m.level o = .hold v) :
    (m.valueOn o).getD 0 = v := by
  rw [Multiplexer.level_of_ne_rel hk] at h
  exact Level.hold_injective h

theorem Settled.mirrors (h : s.Settled) (hd : s.wiring.Displays s m.level) : s.Mirrors m where
  pressed b kind code hb := by
    have ho : (s.active.get b).output? s.group = some ⟨⟨s.group, kind⟩, .key, code⟩ := by
      rw [hb]; rfl
    refine value_of_level (by simp) ?_
    rw [(hd _ rfl).1 _ (h.canWrite ho), level_button ho, hb]
    rfl
  released kind code hn := by
    refine value_of_level (by simp) (v := 0) ?_
    cases hl : m.level ⟨⟨s.group, kind⟩, .key, code⟩ with
    | none => rfl
    | some y =>
      rcases exists_of_displays hd rfl hl with ⟨b, ho, -⟩ | ⟨a, ho, -⟩
      · cases hb : s.active.get b <;> rw [hb] at ho <;> cases ho
        exact (hn b hb).elim
      · cases ha : s.axes.lookup a <;> rw [ha] at ho <;> cases ho
  axis a kind code ha := by
    have ho : (s.axes.lookup a).output? s.group = some ⟨⟨s.group, kind⟩, .abs, code⟩ := by
      rw [ha]; rfl
    refine value_of_level (by simp) ?_
    rw [(hd _ rfl).1 (.axis a) ho, level_axis ho, ha]
    rfl
  button b kind code v hb := by
    have ho : (s.active.get b).output? s.group = some ⟨⟨s.group, kind⟩, .abs, code⟩ := by
      rw [hb]; rfl
    refine value_of_level (by simp) ?_
    rw [(hd _ rfl).1 _ (h.canWrite ho), level_button ho, hb]
    rfl
  centred kind code hna hnb := by
    refine value_of_level (by simp) (v := 0) ?_
    cases hl : m.level ⟨⟨s.group, kind⟩, .abs, code⟩ with
    | none => rfl
    | some y =>
      rcases exists_of_displays hd rfl hl with ⟨b, ho, -⟩ | ⟨a, ho, -⟩
      · cases hb : s.active.get b <;> rw [hb] at ho <;> cases ho
        exact (hnb b _ hb).elim
      · cases ha : s.axes.lookup a <;> rw [ha] at ho <;> cases ho
        exact (hna a ha).elim
  timers kind code t := by
    constructor
    · intro hl
      rw [← Multiplexer.level_rel] at hl
      rcases exists_of_displays hd rfl hl with ⟨b, ho, hx⟩ | ⟨a, ho, hx⟩
      · cases hb : s.active.get b <;> rw [hb] at ho hx <;> cases ho
        obtain ⟨hi, ht⟩ := Level.motion_eq_some.mp hx
        exact Or.inl ⟨b, _, _, hb, hi, ht⟩
      · have hr := h.relative a
        cases ha : s.axes.lookup a <;> rw [ha] at ho hx hr <;> cases ho
        rw [hr, AxisEvent.motion, AxisEvent.level, Option.ite_none_left_eq_some] at hx
        obtain ⟨hi, ht⟩ := Level.motion_eq_some.mp hx.2
        exact Or.inr ⟨a, _, _, ha, hx.1, hi, ht⟩
    · rintro (⟨b, v, i, hb, hi, rfl⟩ | ⟨a, speed, i, ha, hz, hi, rfl⟩)
      · have ho : (s.active.get b).output? s.group = some ⟨⟨s.group, kind⟩, .rel, code⟩ := by
          rw [hb]; rfl
        rw [← Multiplexer.level_rel, (hd _ rfl).1 _ (h.canWrite ho), level_button ho, hb]
        exact Level.motion_eq_some.mpr ⟨hi, rfl⟩
      · have ho : (s.axes.lookup a).output? s.group = some ⟨⟨s.group, kind⟩, .rel, code⟩ := by
          rw [ha]; rfl
        rw [← Multiplexer.level_rel, (hd _ rfl).1 (.axis a) ho, level_axis ho, h.relative a, ha]
        exact (if_neg hz).trans (Level.motion_eq_some.mpr ⟨hi, rfl⟩)

theorem Settled.displays_plan (h : s.Settled)
    (hunique : ∀ x y o, s.wiring.CanWrite x o → s.wiring.CanWrite y o → x = y)
    {l : Output → Level} (hd : s.wiring.Displays s l) (job : Job) :
    s.wiring.Displays (s.after job) fun o => (Step.writes o (s.plan job)).getD (l o) := by
  intro o ho
  obtain ⟨hcan, hnone⟩ := hd o ho
  rcases h.plan_writes job o with ⟨hw, hsame⟩ | ⟨y, hy, hw⟩
  · simp only [hw, Option.getD_none]
    exact ⟨fun x hx => (hcan x hx).trans (hsame x).symm, hnone⟩
  · simp only [hw, Option.getD_some]
    exact ⟨fun x hx => by rw [hunique x y o hx hy], fun hn => (hn y hy).elim⟩

end Mapper

namespace Ensemble

variable {ι : Type} [DecidableEq ι] {m : Multiplexer} {w : ι → Wiring} {i : ι}
  {e : Ensemble ι}

/-- As long as no call of a player has failed, its pending calls complete the display. -/
structure Faithful (m : Multiplexer) (w : ι → Wiring) (i : ι) (e : Ensemble ι) :
    Prop where
  wired : e.Wired m w
  shown : (∀ r ∈ (e.players i).results, r = .ok ()) → (e.players i).Sound ∧
    (w i).Displays (e.players i).target fun o =>
      (Step.writes o (e.players i).pending).getD (e.mux.level o)

omit [DecidableEq ι] in
theorem Faithful.start (h : m.Fresh) (w : ι → Wiring) (scripts : ι → List Job)
    (i : ι) : (start m w scripts).Faithful m w i where
  wired := .start h.inService w scripts
  shown _ := ⟨⟨Mapper.settled_mapper (w i), rfl, fun _ _ hy => nomatch hy⟩, fun o _ =>
    ⟨fun x _ => (h.level o).trans (Mapper.level_mapper (w i) o x).symm, fun _ => h.level o⟩⟩

theorem Faithful.next (h : e.Faithful m w i)
    (halone : ∀ j, j ≠ i → (w j).group ≠ (w i).group)
    (hunique : ∀ x y o, (w i).CanWrite x o → (w i).CanWrite y o → x = y) (mv : Move ι) :
    (e.next mv).Faithful m w i := by
  have hlasting : (w i).Lasting fun _ s l => (w i).Displays s l := by
    refine ⟨fun hl hd o ho => ?_, fun job hs hw hd => ?_⟩
    · rw [hl o ho]
      exact hd o ho
    · exact hw ▸ hs.displays_plan (hw ▸ hunique) (hw ▸ hd) job
  have hnext := (Completes.mk h.wired h.shown).next hlasting halone mv
  exact ⟨hnext.wired, hnext.holds⟩

/-- A mapper whose sources reach different outputs, alone in its group: between two jobs, none of
which has failed, what is written and what is repeated mirrors the mapper. The others may fail. -/
theorem mirrors_of_unique (hm : m.Fresh) (w : ι → Wiring) (i : ι)
    (halone : ∀ j, j ≠ i → (w j).group ≠ (w i).group)
    (hunique : ∀ x y o, (w i).CanWrite x o → (w i).CanWrite y o → x = y)
    (scripts : ι → List Job) (moves : List (Move ι)) :
    let e := (Ensemble.start m w scripts).run moves
    (∀ r ∈ (e.players i).results, r = .ok ()) → (e.players i).Idle →
      (e.players i).mapper.wiring = w i ∧
      (e.players i).mapper.last = (e.players i).message ∧
      (e.players i).mapper.Mirrors e.mux := by
  intro e hr hi
  have he : e.Faithful m w i :=
    run_induct (.start hm w scripts i) fun _ he mv _ => he.next halone hunique mv
  obtain ⟨hs, hd⟩ := he.shown hr
  have ht := Player.target_of_idle hi
  have hw : (e.players i).mapper.wiring = w i := (he.wired.players i).mapper.wiring
  refine ⟨hw, ht ▸ hs.last, (ht ▸ hs.settled).mirrors ?_⟩
  rw [hi, ht] at hd
  exact hw.symm ▸ hd

/-- One mapper holds a key down while another one writes to a device that does not exist. -/
theorem mirrors_of_unique_key :
    let w : Bool → Wiring := fun i => .single (if i then 0 else 1) .faceA (.key 0 304)
    let pad : Device := .active (.forDevice "pad" ⟨0, 0⟩) []
    let m : Multiplexer :=
      { base := "pad", devices := (∅ : DeviceMap Device).insert ⟨0, 0⟩ pad, finished := true }
    let script : List Job := [.process (Message.neutral.setButton .faceA true)]
    let moves : List (Move Bool) := [false, true, false, true].map (Move.advance · .reliable)
    let e := (Ensemble.start m w fun _ => script).run moves
    (e.players false).results = [.error (.unknownDevice ⟨1, 0⟩)] ∧
      (e.players true).mapper.active.get .faceA = .key 0 304 ∧
      (e.players true).mapper.Mirrors e.mux := by
  intro w pad m script moves e
  have hm : m.Fresh := Multiplexer.fresh_insert _ _ _
  have halone : ∀ j, j ≠ true → (w j).group ≠ (w true).group := by decide
  have hunique : ∀ x y o, (w true).CanWrite x o → (w true).CanWrite y o → x = y := by
    intro x y o hx hy
    exact (Wiring.canWrite_single.mp hx).1.trans (Wiring.canWrite_single.mp hy).1.symm
  have hrun : (e.players true).results = [.ok ()] ∧ (e.players true).pending = [] ∧
      (e.players false).results = [.error (.unknownDevice ⟨1, 0⟩)] ∧
      (e.players true).mapper.active.get .faceA = .key 0 304 := by
    decide +kernel
  obtain ⟨hok, hi, hfail, hact⟩ := hrun
  have hmirror := mirrors_of_unique hm w true halone hunique (fun _ => script) moves
    (fun r hr => by
      change r ∈ (e.players true).results at hr
      rw [hok] at hr
      exact List.mem_singleton.mp hr) hi
  exact ⟨hfail, hact, hmirror.2.2⟩

end Ensemble

end PadRemap
