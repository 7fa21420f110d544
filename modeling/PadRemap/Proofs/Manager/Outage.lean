import PadRemap.Proofs.Manager.Discovery

/-! Scanners that fail while others succeed. A round of several scanners is handed on as one
successful scan, so what only a failing scanner would have found has vanished for the manager. The
main statement says when a pad is unplugged in this way. -/

namespace PadRemap

namespace Discovery

open Scanner (together)

def Unplugs (cs : List Change) (d : Identity) : Prop := ∃ e, d.SameDevice e ∧ .removed e ∈ cs

def FoundBeside (k : Nat) (round : List Scanner) (d : Identity) : Prop :=
  ∃ j s, j ≠ k ∧ round[j]? = some s ∧ present d s.devices = true

theorem present_together {d : Identity} {round : List Scanner} :
    present d (together round) = true ↔ ∃ s ∈ round, present d s.devices = true := by
  rw [present_iff]
  constructor
  · rintro ⟨e, he, hd⟩
    obtain ⟨s, hs, he⟩ := List.mem_flatMap.mp he
    exact ⟨s, hs, present_iff.mpr ⟨e, he, hd⟩⟩
  · rintro ⟨s, hs, hd⟩
    obtain ⟨e, he, hd⟩ := present_iff.mp hd
    exact ⟨e, List.mem_flatMap.mpr ⟨s, hs, he⟩, hd⟩

theorem present_of_found {round : List Scanner} {k : Nat} {ds : List Identity}
    (hk : round[k]? = some (.found ds)) {d : Identity} (hd : present d ds = true) :
    present d (together round) = true :=
  present_together.mpr ⟨_, List.mem_of_getElem? hk, hd⟩

theorem present_of_failing {round : List Scanner} {k : Nat} (hk : round[k]? = some .failing)
    {d : Identity} : present d (together round) = true ↔ FoundBeside k round d := by
  rw [present_together]
  constructor
  · rintro ⟨s, hs, hd⟩
    obtain ⟨j, hj⟩ := List.getElem?_of_mem hs
    refine ⟨j, s, ?_, hj, hd⟩
    rintro rfl
    rw [hk] at hj
    cases hj
    cases hd
  · rintro ⟨j, s, -, hj, hd⟩
    exact ⟨s, List.mem_of_getElem? hj, hd⟩

theorem unplugs_changes {before after : List Identity} {d : Identity} :
    Unplugs (changes before after) d ↔ present d before = true ∧ present d after = false := by
  constructor
  · rintro ⟨e, hd, he⟩
    rcases List.mem_append.mp he with he | he
    · obtain ⟨f, hf, hsame⟩ := List.mem_map.mp he
      cases hsame
      obtain ⟨hf, hgone⟩ := List.mem_filter.mp hf
      refine ⟨present_iff.mpr ⟨e, hf, hd⟩, ?_⟩
      rw [present_congr hd, ← Bool.not_eq_true']
      exact hgone
    · obtain ⟨f, -, hf⟩ := List.mem_map.mp he
      cases hf
  · rintro ⟨hbefore, hafter⟩
    obtain ⟨e, he, hd⟩ := present_iff.mp hbefore
    refine ⟨e, hd, List.mem_append_left _ (List.mem_map.mpr ⟨e, ?_, rfl⟩)⟩
    rw [present_congr hd] at hafter
    exact List.mem_filter.mpr ⟨he, by rw [hafter]; rfl⟩

theorem unplugs_append {cs ds : List Change} {d : Identity} :
    Unplugs (cs ++ ds) d ↔ Unplugs cs d ∨ Unplugs ds d := by
  simp only [Unplugs, List.mem_append, and_or_left, exists_or]

/-- What was there and is not found by the last of some scans has been reported as gone. -/
theorem unplugs_reports {d : Identity} (scans : List (List Identity)) {known : List Identity}
    (hknown : present d known = true) (hlast : present d (scans.getLast?.getD known) = false) :
    Unplugs (reports known scans) d := by
  induction scans generalizing known with
  | nil => exact nomatch hknown.symm.trans hlast
  | cons now scans ih =>
    rw [reports, unplugs_append]
    cases hnow : present d now with
    | false => exact Or.inl (unplugs_changes.mpr ⟨hknown, hnow⟩)
    | true =>
      rw [List.getLast?_cons] at hlast
      exact Or.inr (ih hnow hlast)

end Discovery

namespace Watch

open Discovery (Scanner Unplugs FoundBeside present reports)
open Discovery.Scanner (together)

/-- What happens to a manager whose scanner thread asks several scanners in each round. -/
inductive Moment where
  | round (scanners : List Scanner)
  | deliver (opener : Opener)
  | other (op : Operation) (quiet : op.isQuiet = true)

namespace Moment

def event : Moment → Event
  | round scanners => .scan (.found (together scanners))
  | deliver opener => .deliver opener
  | other op quiet => .other op quiet

def scanners? : Moment → Option (List Scanner)
  | round scanners => some scanners
  | _ => none

def rounds (moments : List Moment) : List (List Scanner) := moments.filterMap scanners?

end Moment

def pass (w : Watch) (moments : List Moment) : Watch := w.run (moments.map Moment.event)

theorem scans_pass (w : Watch) (moments : List Moment) :
    (w.pass moments).scans = w.scans ++ (Moment.rounds moments).map together := by
  induction moments generalizing w with
  | nil => exact (List.append_nil _).symm
  | cons x moments ih =>
    have hstep : (w.pass (x :: moments)).scans =
        (w.next x.event).scans ++ (Moment.rounds moments).map together := ih (w.next x.event)
    rw [hstep]
    cases x with
    | round scanners => exact List.append_assoc ..
    | deliver opener =>
      have hsame : (w.next (.deliver opener)).scans = w.scans := by
        simp only [Watch.next]
        split <;> rfl
      exact congrArg (· ++ _) hsame
    | other op quiet => rfl

/-- A scanner found a pad in some round, perhaps the last one in which it succeeded, and fails now.
Then the pad is reported as gone in just the case that it was known until now and that no other
scanner finds it; it is known if no round lies between. If no other scanner finds it, it has been
reported as gone since that round. When all changes are handled, the manager lists the pad only if
another scanner finds it. -/
theorem unplugged_by_failing {m₀ : Manager} (h : m₀.discovered = []) (before : List Moment)
    {good : List Scanner} {k : Nat} {ds : List Identity} (hgood : good[k]? = some (.found ds))
    {d : Identity} (hd : present d ds = true) (since : List Moment) {round : List Scanner}
    (hround : round[k]? = some .failing) :
    let w := (Watch.mk m₀ [] []).pass (before ++ .round good :: since)
    let told := reports (together good) ((Moment.rounds since).map together)
    ∃ new, (w.pass [.round round]).queue = w.queue ++ new ∧
      (Unplugs new d ↔ present d w.known = true ∧ ¬FoundBeside k round d) ∧
      (Moment.rounds since = [] → present d w.known = true) ∧
      (¬FoundBeside k round d → Unplugs (told ++ new) d) ∧
      ∀ later, Moment.rounds later = [] →
        let v := w.pass (.round round :: later)
        v.queue = [] → (present d v.manager.discovered = true ↔ FoundBeside k round d) := by
  intro w told
  have hscans : w.scans = (Moment.rounds before).map together ++
      together good :: (Moment.rounds since).map together := by
    rw [scans_pass]
    simp [Moment.rounds, List.filterMap_append, Moment.scanners?]
  have hknown : w.known = ((Moment.rounds since).map together).getLast?.getD (together good) := by
    rw [known, hscans, List.getLast?_append, List.getLast?_cons]
    rfl
  have hthere : present d (together good) = true := Discovery.present_of_found hgood hd
  have hnow : present d (together round) = false ↔ ¬FoundBeside k round d := by
    rw [← Discovery.present_of_failing hround, Bool.not_eq_true]
  refine ⟨Discovery.changes w.known (together round), rfl, ?_, ?_, ?_, ?_⟩
  · rw [Discovery.unplugs_changes, hnow]
  · intro hnone
    rw [hknown, hnone]
    exact hthere
  · intro hothers
    have hall := Discovery.unplugs_reports ((Moment.rounds since).map together ++ [together round])
      hthere (by rw [List.getLast?_concat]; exact hnow.mpr hothers)
    rw [Discovery.reports_append, ← hknown] at hall
    exact hall
  · intro later hlater v hqueue
    have hstart : (Watch.mk m₀ [] []).Sound := ⟨[], rfl, h⟩
    have hv : v.Sound := (hstart.run _).run _
    have hlast : v.known = together round := by
      rw [known, scans_pass]
      have hrounds : Moment.rounds (.round round :: later) = round :: Moment.rounds later := rfl
      rw [hrounds, hlater, List.map_singleton, List.getLast?_concat]
      rfl
    rw [hv.alike_known hqueue d, hlast, Discovery.present_of_failing hround]

/-- The scanner of two pads fails for two rounds; one of the pads is found by another scanner. -/
theorem unplugged_by_failing_twice :
    let c : SlotConfig := ⟨.empty, .empty, [], 0, none, []⟩
    let first : Identity := ⟨.mock, 0, 0, 0, 0, "first", "Pad"⟩
    let second : Identity := ⟨.mock, 0, 0, 0, 0, "second", "Pad"⟩
    let good : List Scanner := [.found [first], .found [first, second]]
    let bad : List Scanner := [.found [first], .failing]
    ∃ m₀, Manager.new .reliable [c, c] "Pads" = .ok m₀ ∧
      let w := (Watch.mk m₀ [] []).pass [.round good, .round bad]
      let v := w.pass (.round bad :: List.replicate 4 (.deliver fun _ => none))
      ∃ new, (w.pass [.round bad]).queue = w.queue ++ new ∧ ¬Unplugs new second ∧
        Unplugs (reports (together good) [together bad] ++ new) second ∧
        present second v.manager.discovered = false ∧
        present first v.manager.discovered = true := by
  intro c first second good bad
  have hrun : (Manager.new .reliable [c, c] "Pads").toOption.map (fun m =>
      let w := (Watch.mk m [] []).pass [.round good, .round bad]
      (m.discovered, w.known,
        (w.pass (.round bad :: List.replicate 4 (.deliver fun _ => none))).queue)) =
        some ([], [first], []) := by
    decide +kernel
  have hgood : good[1]? = some (.found [first, second]) := rfl
  have hbad : bad[1]? = some .failing := rfl
  have hsecond : ¬FoundBeside 1 bad second :=
    (Discovery.present_of_failing hbad).not.mp (by decide +kernel)
  have hfirst : FoundBeside 1 bad first :=
    (Discovery.present_of_failing hbad).mp (by decide +kernel)
  obtain ⟨m₀, hm, hvalues⟩ := Option.map_eq_some_iff.mp hrun
  simp only [Prod.mk.injEq] at hvalues
  obtain ⟨hnone, hknown, hqueue⟩ := hvalues
  obtain ⟨new, hnew, hunplugs, -, htold, hgone⟩ := unplugged_by_failing hnone [] hgood
    (show present second _ = true by decide +kernel) [.round bad] hbad
  obtain ⟨-, -, -, -, -, hkept⟩ := unplugged_by_failing hnone [] hgood
    (show present first _ = true by decide +kernel) [.round bad] hbad
  refine ⟨m₀, Except.toOption_eq_some.mp hm, new, hnew, ?_, htold hsecond, ?_, ?_⟩
  · intro hun
    have hthere := (hunplugs.mp hun).1
    rw [List.nil_append, hknown] at hthere
    revert hthere
    decide +kernel
  · rw [← Bool.not_eq_true]
    exact (hgone _ rfl hqueue).not.mpr hsecond
  · exact (hkept _ rfl hqueue).mpr hfirst

/-- A pad is unplugged by the failure of its scanner, and its slot with it; the same failure of the
whole round would have left it alone. -/
theorem unplugs_while_failing :
    let c : SlotConfig := ⟨.empty, .empty, [], 0, none, []⟩
    let first : Identity := ⟨.mock, 0, 0, 0, 0, "first", "Pad"⟩
    let second : Identity := ⟨.mock, 0, 0, 0, 0, "second", "Pad"⟩
    let good : List Scanner := [.found [first], .found [second]]
    let bad : List Scanner := [.found [first], .failing]
    let reports (scans : List ScanResult) : Option (List Report) :=
      ((Manager.new .reliable [c, c] "Pads").map fun m =>
        (m.run .reliable (fun _ => none) scans).2).toOption
    let plugged : List Report :=
      [.found first, .assigned first (.bound 0), .found second, .assigned second (.bound 1)]
    reports [.found (together good), .found (together bad)] =
      some (plugged ++ [.removed second]) ∧
    reports [.found (together good), .failed] = some plugged ∧
    ¬∀ (k : Nat) (good round : List Scanner) (ds : List Identity), good[k]? = some (.found ds) →
      round[k]? = some .failing → ∀ d ∈ ds,
        ¬Unplugs (Discovery.changes (together good) (together round)) d := by
  intro c first second good bad reports plugged
  refine ⟨by decide +kernel, by decide +kernel, fun hall => ?_⟩
  refine hall 1 good bad [second] rfl rfl second (List.mem_singleton_self _) ⟨second, rfl, ?_⟩
  decide +kernel

end Watch

end PadRemap
