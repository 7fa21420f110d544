import PadRemap.Proofs.Mapper.Ensemble
import PadRemap.Proofs.Output.Agreement

/-! Mappers with different output groups on one multiplexer. What the mappers of some groups do and
get is the same with and without the others, however their calls are interleaved and whatever
happens to the devices of the others; the main statement compares the two runs. -/

namespace PadRemap

namespace Player

variable {s : DeviceId → Bool} {m n : Multiplexer} {b c : Backend} {w : Wiring} {p : Player}

/-- A step of a player within the devices is the same on both multiplexers. -/
theorem Wired.advance_agree (hp : p.Wired w) (h : m.AgreeOn s n) (hb : b.AgreeOn (s · = true) c)
    (hw : ∀ o, w.Uses o → s o.device = true) :
    (p.advance b m).2 = (p.advance c n).2 ∧ (p.advance b m).1.AgreeOn s (p.advance c n).1 := by
  cases hx : p.pending with
  | nil =>
    obtain ⟨q, hq⟩ := advance_of_idle (p := p) hx
    rw [hq, hq]
    exact ⟨rfl, h⟩
  | cons x xs =>
    have hcall : x.call.Targets fun o => s o.device = true :=
      (hp.pending x (hx ▸ List.mem_cons_self)).1.imp hw
    obtain ⟨hres, hagree⟩ := h.perform hb hcall
    rw [advance_of_pending b m hx, advance_of_pending c n hx, hres]
    exact ⟨rfl, hagree⟩

/-- A step of a player within other devices does not show. -/
theorem Wired.advance_left (hp : p.Wired w) (h : m.AgreeOn s n) (b : Backend)
    (hw : ∀ o, w.Uses o → s o.device = false) : (p.advance b m).1.AgreeOn s n := by
  rcases hp.mux_advance b m with he | ⟨c, hc, he⟩
  · rw [he]
    exact h
  · rw [he]
    exact h.perform_left b (hc.imp hw)

theorem Wired.regular_advance (hp : p.Wired w) (hm : m.Regular) (b : Backend) :
    (p.advance b m).1.Regular := by
  rcases hp.mux_advance b m with he | ⟨c, -, he⟩
  · rw [he]
    exact hm
  · rw [he]
    exact hm.perform b c

end Player

variable {ι : Type}

namespace Move

def isOf (first : ι → Bool) : Move ι → Bool
  | advance i _ => first i
  | update .. => true

/-- The same move, with the same answers of the backend for some devices. -/
inductive AgreeOn (p : DeviceId → Prop) : Move ι → Move ι → Prop
  | advance {i b c} : b.AgreeOn p c → AgreeOn p (.advance i b) (.advance i c)
  | update {ms b c} : b.AgreeOn p c → AgreeOn p (.update ms b) (.update ms c)

end Move

namespace Ensemble

variable [DecidableEq ι] {w : ι → Wiring} {g : UInt16 → Bool} {e f : Ensemble ι} {b c : Backend}

/-- Ensembles that are in the same state as far as some output groups are concerned. -/
structure AgreeOn (g : UInt16 → Bool) (w : ι → Wiring) (e f : Ensemble ι) : Prop where
  mux : e.mux.AgreeOn (fun d => g d.group) f.mux
  regular : e.mux.Regular ∧ f.mux.Regular
  players : ∀ i, g (w i).group = true → e.players i = f.players i
  wired : ∀ i, (e.players i).Wired (w i)

namespace AgreeOn

theorem advance (h : e.AgreeOn g w f) (hb : b.AgreeOn (fun d => g d.group = true) c) {i : ι}
    (hi : g (w i).group = true) : (e.next (.advance i b)).AgreeOn g w (f.next (.advance i c)) := by
  have hsame := h.players i hi
  have hwired := h.wired i
  have hw : ∀ o, (w i).Uses o → g o.device.group = true := by
    intro o ho
    rw [ho.group, hi]
  obtain ⟨hplayer, hmux⟩ := hwired.advance_agree h.mux hb hw
  refine ⟨?_, ⟨?_, ?_⟩, fun j hj => ?_, wired_players_next h.wired _⟩
  · change ((e.players i).advance b e.mux).1.AgreeOn _ ((f.players i).advance c f.mux).1
    rw [← hsame]
    exact hmux
  · exact hwired.regular_advance h.regular.1 b
  · exact (hsame ▸ hwired).regular_advance h.regular.2 c
  · by_cases hji : j = i
    · subst hji
      rw [players_next_self, players_next_self, ← hsame]
      exact hplayer
    · rw [players_next_of_ne e hji, players_next_of_ne f hji]
      exact h.players j hj

theorem advance_left (h : e.AgreeOn g w f) (b : Backend) {i : ι} (hi : g (w i).group = false) :
    (e.next (.advance i b)).AgreeOn g w f := by
  have hw : ∀ o, (w i).Uses o → g o.device.group = false := by
    intro o ho
    rw [ho.group, hi]
  refine ⟨?_, ⟨?_, h.regular.2⟩, fun j hj => ?_, wired_players_next h.wired _⟩
  · exact (h.wired i).advance_left h.mux b hw
  · exact (h.wired i).regular_advance h.regular.1 b
  · have hji : j ≠ i := by
      rintro rfl
      exact Bool.false_ne_true (hi.symm.trans hj)
    rw [players_next_of_ne e hji]
    exact h.players j hj

theorem update (h : e.AgreeOn g w f) (hb : b.AgreeOn (fun d => g d.group = true) c) (ms : Nat) :
    (e.next (.update ms b)).AgreeOn g w (f.next (.update ms c)) where
  mux := h.mux.update h.regular.1 h.regular.2 hb ms
  regular := ⟨h.regular.1.perform b (.update ms), h.regular.2.perform c (.update ms)⟩
  players := h.players
  wired := h.wired

/-- A run agrees with every run without the steps of the others. -/
theorem run (h : e.AgreeOn g w f) {moves moves' : List (Move ι)}
    (hm : List.Forall₂ (Move.AgreeOn fun d => g d.group = true)
      (moves.filter (Move.isOf fun i => g (w i).group)) moves') :
    (e.run moves).AgreeOn g w (f.run moves') := by
  -- the left run takes every move, the right one only those that are kept
  induction moves generalizing e f moves' with
  | nil =>
    cases hm
    exact h
  | cons mv moves ih =>
    cases hmv : mv.isOf fun i => g (w i).group with
    | false =>
      rw [List.filter_cons_of_neg (by simp [hmv])] at hm
      cases mv with
      | advance i b => exact ih (h.advance_left b hmv) hm
      | update ms b => cases hmv
    | true =>
      rw [List.filter_cons_of_pos hmv] at hm
      cases hm with
      | cons hagree hm =>
        cases hagree with
        | advance hb => exact ih (h.advance hb hmv) hm
        | update hb => exact ih (h.update hb _) hm

end AgreeOn

def Owned (first : ι → Bool) (w : ι → Wiring) (d : DeviceId) : Prop :=
  ∃ i, first i = true ∧ (w i).group = d.group

/-- Output groups are kept apart. Some players share no output group with the others. Then every
run of all of them agrees with every run in which the steps of the others are left out and the
backend gives the same answers for the devices of the first: these players, with the results of
their jobs, are the same, and so are the batches and the repeat timers of their devices. -/
theorem groups_apart (base : String) (opening : List Request) (w : ι → Wiring)
    (jobs : ι → List Mapper.Job) (first : ι → Bool)
    (hdisjoint : ∀ i j, first i = true → first j = false → (w i).group ≠ (w j).group)
    (moves moves' : List (Move ι))
    (hleft : List.Forall₂ (Move.AgreeOn (Owned first w)) (moves.filter (Move.isOf first)) moves') :
    let m := (Multiplexer.new base).serve opening
    let e := (start m w jobs).run moves
    let f := (start m w jobs).run moves'
    (∀ i, first i = true → e.players i = f.players i) ∧
    (∀ ds : List DeviceId, (∀ d ∈ ds, Owned first w d) →
      e.mux.journal.batches.filter (·.device ∈ ds) = f.mux.journal.batches.filter (·.device ∈ ds)) ∧
    ∀ o : Outlet, Owned first w o.device → e.mux.repeats[o]? = f.mux.repeats[o]? := by
  classical
  intro m e f
  -- the output groups of the first players; by disjointness no other player has one of them
  let g : UInt16 → Bool := fun x => decide (∃ i, first i = true ∧ (w i).group = x)
  have howned : ∀ d : DeviceId, g d.group = true ↔ Owned first w d := fun d => decide_eq_true_iff
  have hfirst : ∀ i, g (w i).group = first i := by
    intro i
    cases hi : first i with
    | true => exact decide_eq_true ⟨i, hi, rfl⟩
    | false => exact decide_eq_false fun ⟨j, hj, he⟩ => hdisjoint j i hj hi he
  have hm : m.Regular := (Multiplexer.regular_new base).serve opening
  have hstart : (start m w jobs).AgreeOn g w (start m w jobs) :=
    ⟨.refl _ m, ⟨hm, hm⟩, fun _ _ => rfl,
      fun i => ⟨Mapper.keeps_mapper (w i), fun _ hx => nomatch hx⟩⟩
  have hrun : e.AgreeOn g w f := by
    refine hstart.run ?_
    simpa only [hfirst, howned] using hleft
  refine ⟨fun i hi => hrun.players i ((hfirst i).trans hi), fun ds hds => ?_, fun o ho => ?_⟩
  · have hsub : ∀ l : List Batch, l.filter (·.device ∈ ds) =
        (l.filter fun x => g x.device.group).filter (·.device ∈ ds) := by
      intro l
      rw [List.filter_filter]
      refine List.filter_congr fun x _ => ?_
      by_cases hx : x.device ∈ ds
      · simp [hx, (howned x.device).mpr (hds _ hx)]
      · simp [hx]
    rw [hsub, hrun.mux.batches, ← hsub]
  · exact hrun.mux.repeats o ((howned o.device).mpr ho)

/-- Two players hold down a button that moves a mouse, each on its own output group, and the other
one's mouse refuses a frame and a repeated event. -/
theorem groups_apart_refused :
    let mouse : DeviceId := .mouse 0
    let other : DeviceId := .mouse 1
    let w : Bool → Wiring := fun i => .single (if i then 0 else 1) .faceA (.rel 1 0 5 10)
    let opening : List Request :=
      [⟨.addRel mouse 0, .reliable⟩, ⟨.addRel other 0, .reliable⟩, ⟨.finish, .reliable⟩]
    let script : List Mapper.Job := [.process (Message.neutral.setButton .faceA true)]
    let bad : Backend := .refusing [] [other]
    let moves : List (Move Bool) := [.advance false bad, .advance true .reliable,
      .advance false bad, .advance true .reliable, .advance true .reliable, .advance false bad,
      .update 25 bad]
    let moves' : List (Move Bool) := [.advance true .reliable, .advance true .reliable,
      .advance true .reliable, .update 25 .reliable]
    let m := (Multiplexer.new "pad").serve opening
    let e := (start m w fun _ => script).run moves
    let f := (start m w fun _ => script).run moves'
    (e.players false).results = [.error (.backend (.operation "emit 1.mouse"))] ∧
    (f.players false).results = [] ∧
    e.players true = f.players true ∧
    f.mux.journal.batches = [⟨mouse, [⟨.rel, 0, 5⟩]⟩, ⟨mouse, [⟨.rel, 0, 5⟩, ⟨.rel, 0, 5⟩]⟩] ∧
    e.mux.journal.batches.filter (·.device ∈ [mouse]) =
      f.mux.journal.batches.filter (·.device ∈ [mouse]) ∧
    e.mux.repeats[(⟨mouse, 0⟩ : Outlet)]? = f.mux.repeats[(⟨mouse, 0⟩ : Outlet)]? := by
  intro mouse other w opening script bad moves moves'
  dsimp only
  have hdisjoint : ∀ i j : Bool, id i = true → id j = false → (w i).group ≠ (w j).group := by
    decide
  have hmine : Owned id w mouse := ⟨true, rfl, rfl⟩
  have hbad : bad.AgreeOn (Owned id w) .reliable := by
    rintro d ⟨i, hi, hd⟩
    have hne : d ≠ other := by
      rintro rfl
      exact hdisjoint i false hi rfl hd
    funext es
    simp [bad, Backend.refusing, Backend.reliable, hne]
  have hleft : List.Forall₂ (Move.AgreeOn (Owned id w)) (moves.filter (Move.isOf id)) moves' :=
    .cons (.advance fun _ _ => rfl) <| .cons (.advance fun _ _ => rfl) <|
      .cons (.advance fun _ _ => rfl) <| .cons (.update hbad) .nil
  obtain ⟨hplayers, hbatches, hrepeats⟩ :=
    groups_apart "pad" opening w (fun _ => script) id hdisjoint moves moves' hleft
  refine ⟨by decide +kernel, by decide +kernel, hplayers true rfl, by decide +kernel,
    hbatches [mouse] ?_, hrepeats ⟨mouse, 0⟩ hmine⟩
  intro d hd
  rw [List.mem_singleton.mp hd]
  exact hmine

end Ensemble

end PadRemap
