import Mathlib.Logic.Relation
import Mathlib.Tactic.Choose
import PadRemap.Proofs.Filter.Footprint

/-! The order of the filters in a configuration. A chain gathers them stage by stage and keeps the
configured order within a stage. The main statement says that beyond this the order does not show:
neighbours of different stages, and neighbours that work on different axes, may trade places
without any change in what the chain lets through at any tick. -/

namespace PadRemap

/-- One tick of a chain: the milliseconds since the last one and the message that comes in. -/
structure Tick where
  ms : Nat
  message : Message

namespace Chain

def outputs : Chain → List Tick → List Message
  | _, [] => []
  | c, t :: ts => (c.update t.ms t.message).2 :: outputs (c.update t.ms t.message).1 ts

/-- Lists that differ by trades of neighbours on different axes. -/
inductive Shuffled : List Filter → List Filter → Prop where
  | refl (fs : List Filter) : Shuffled fs fs
  | swap {f g : Filter} (h : f.Apart g) (fs : List Filter) : Shuffled (f :: g :: fs) (g :: f :: fs)
  | cons (f : Filter) {fs gs : List Filter} (h : Shuffled fs gs) : Shuffled (f :: fs) (f :: gs)
  | trans {fs gs hs : List Filter} (h : Shuffled fs gs) (k : Shuffled gs hs) : Shuffled fs hs

namespace Shuffled

variable {fs gs fs' gs' : List Filter}

theorem append_left (xs : List Filter) (h : Shuffled fs gs) : Shuffled (xs ++ fs) (xs ++ gs) := by
  induction xs with
  | nil => exact h
  | cons x xs ih => exact ih.cons x

theorem append_right (h : Shuffled fs gs) (xs : List Filter) : Shuffled (fs ++ xs) (gs ++ xs) := by
  induction h with
  | refl fs => exact .refl _
  | swap h fs => exact .swap h (fs ++ xs)
  | cons f _ ih => exact ih.cons f
  | trans _ _ ihl ihr => exact ihl.trans ihr

theorem flatMap {α : Type} {p q : α → List Filter} (h : ∀ s, Shuffled (p s) (q s)) (ss : List α) :
    Shuffled (ss.flatMap p) (ss.flatMap q) := by
  induction ss with
  | nil => exact .refl _
  | cons s ss ih =>
    rw [List.flatMap_cons, List.flatMap_cons]
    exact ((h s).append_right _).trans (ih.append_left _)

theorem updateAll (h : Shuffled fs gs) (ms : Nat) (m : Message) :
    (Chain.updateAll ms fs m).2 = (Chain.updateAll ms gs m).2 ∧
      Shuffled (Chain.updateAll ms fs m).1 (Chain.updateAll ms gs m).1 := by
  induction h generalizing m with
  | refl fs => exact ⟨rfl, .refl _⟩
  | @swap f g h fs =>
    obtain ⟨hf, hg, hm⟩ := h.update_comm ms m
    rw [updateAll_cons, updateAll_cons, updateAll_cons, updateAll_cons, hf, hg, hm]
    exact ⟨rfl, .swap (h.update ms m m) _⟩
  | cons f _ ih =>
    obtain ⟨hm, hs⟩ := ih (f.update ms m).2
    rw [updateAll_cons, updateAll_cons]
    exact ⟨hm, hs.cons _⟩
  | trans _ _ ihl ihr =>
    obtain ⟨hml, hsl⟩ := ihl m
    obtain ⟨hmr, hsr⟩ := ihr m
    exact ⟨hml.trans hmr, hsl.trans hsr⟩

theorem outputs {fs gs : List Filter} (h : Shuffled fs gs) (ts : List Tick) :
    (⟨fs⟩ : Chain).outputs ts = (⟨gs⟩ : Chain).outputs ts := by
  induction ts generalizing fs gs with
  | nil => rfl
  | cons t ts ih =>
    obtain ⟨hm, hs⟩ := h.updateAll t.ms t.message
    exact congrArg₂ List.cons hm (ih hs)

end Shuffled

theorem shuffled_ofFilters (before after : List Filter) {f g : Filter}
    (h : f.stage ≠ g.stage ∨ f.Apart g) :
    Shuffled (ofFilters (before ++ f :: g :: after)).filters
      (ofFilters (before ++ g :: f :: after)).filters := by
  simp only [ofFilters]
  refine Shuffled.flatMap (fun s => ?_) Stage.all
  rw [List.filter_append, List.filter_append]
  refine Shuffled.append_left _ ?_
  by_cases hf : f.stage = s
  · by_cases hg : g.stage = s
    · have hfg : f.Apart g := h.resolve_left fun hne => hne (hf.trans hg.symm)
      simpa [hf, hg] using Shuffled.swap hfg _
    · simpa [hf, hg] using Shuffled.refl _
  · simpa [hf, List.filter_cons] using Shuffled.refl _

theorem filter_ofFilters (fs : List Filter) (s : Stage) :
    (ofFilters fs).filters.filter (fun f => f.stage = s) = fs.filter fun f => f.stage = s := by
  have hblock : ∀ t : Stage, (fs.filter fun f => f.stage = t).filter (fun f => f.stage = s) =
      if t = s then fs.filter fun f => f.stage = s else [] := by
    intro t
    rw [List.filter_filter]
    split
    · next h =>
      subst h
      simp
    · next h =>
      refine List.filter_eq_nil_iff.mpr fun f _ hf => h ?_
      simp only [Bool.and_eq_true, decide_eq_true_eq] at hf
      exact hf.2.symm.trans hf.1
  rw [ofFilters, List.filter_flatMap]
  simp only [hblock]
  cases s <;> simp [Stage.all]

theorem pairwise_stages_ofFilters (fs : List Filter) :
    (ofFilters fs).stages.Pairwise fun s t => s.rank ≤ t.rank := by
  have hstage : ∀ {s : Stage} {f : Filter}, f ∈ fs.filter (fun f => f.stage = s) → f.stage = s :=
    fun hf => of_decide_eq_true (List.mem_filter.mp hf).2
  refine List.pairwise_map.mpr (List.pairwise_flatMap.mpr ⟨fun s _ => ?_, ?_⟩)
  · refine List.pairwise_of_forall_mem_list fun f hf g hg => ?_
    exact Nat.le_of_eq (congrArg Stage.rank ((hstage hf).trans (hstage hg).symm))
  · have hall : Stage.all.Pairwise fun s t => s.rank ≤ t.rank := by decide
    refine hall.imp fun {s t} hst f hf g hg => ?_
    rw [hstage hf, hstage hg]
    exact hst

theorem ofSpecs_eq {specs : List FilterSpec} {built : FilterSpec → Filter}
    (h : ∀ s ∈ specs, s.build = .ok (built s)) :
    specs.mapM FilterSpec.build = .ok (specs.map built) ∧
      ofSpecs specs = .ok (ofFilters (specs.map built)) := by
  suffices hm : specs.mapM FilterSpec.build = .ok (specs.map built) by
    refine ⟨hm, ?_⟩
    rw [ofSpecs, hm]
    rfl
  induction specs with
  | nil => rfl
  | cons s specs ih =>
    rw [List.mapM_cons, h s List.mem_cons_self, ih fun t ht => h t (List.mem_cons_of_mem s ht)]
    rfl

end Chain

namespace FilterSpec

/-- Two specifications whose filters belong to different stages, or work on different axes. -/
def Exchangeable (s t : FilterSpec) : Prop :=
  ∃ f g, s.build = .ok f ∧ t.build = .ok g ∧ (f.stage ≠ g.stage ∨ f.Apart g)

inductive Swap : List FilterSpec → List FilterSpec → Prop where
  | mk (before after : List FilterSpec) {s t : FilterSpec} (h : s.Exchangeable t) :
    Swap (before ++ s :: t :: after) (before ++ t :: s :: after)

theorem Swap.perm {xs ys : List FilterSpec} (h : Swap xs ys) : xs.Perm ys := by
  obtain ⟨before, after, -⟩ := h
  exact (List.Perm.swap ..).append_left before

theorem Swap.outputs {xs ys : List FilterSpec} (h : Swap xs ys) {built : FilterSpec → Filter}
    (hb : ∀ s ∈ xs, s.build = .ok (built s)) (ts : List Tick) :
    (Chain.ofFilters (xs.map built)).outputs ts = (Chain.ofFilters (ys.map built)).outputs ts := by
  obtain ⟨before, after, f, g, hf, hg, hfg⟩ := h
  have hbf : Except.ok f = .ok (built _) := hf.symm.trans (hb _ (by simp))
  have hbg : Except.ok g = .ok (built _) := hg.symm.trans (hb _ (by simp))
  cases hbf
  cases hbg
  simp only [List.map_append, List.map_cons]
  exact (Chain.shuffled_ofFilters _ _ hfg).outputs ts

end FilterSpec

namespace Chain

/-- Valid specifications make a chain. Its stages ascend, and within a stage the configured order
stays. Any trades of exchangeable neighbours make a chain that lets the same messages through. -/
theorem order_within_stages {specs : List FilterSpec}
    (hvalid : ∀ s ∈ specs, ∃ f, s.build = .ok f) :
    ∃ fs c, specs.mapM FilterSpec.build = .ok fs ∧ ofSpecs specs = .ok c ∧
      c.stages.Pairwise (fun s t => s.rank ≤ t.rank) ∧
      (∀ s, c.filters.filter (fun f => f.stage = s) = fs.filter fun f => f.stage = s) ∧
      ∀ specs', Relation.ReflTransGen FilterSpec.Swap specs specs' →
        ∃ c', ofSpecs specs' = .ok c' ∧ ∀ ts, c'.outputs ts = c.outputs ts := by
  have : Nonempty Filter := ⟨.squareAxis⟩
  choose! built hbuilt using hvalid
  obtain ⟨hm, hc⟩ := ofSpecs_eq hbuilt
  refine ⟨_, _, hm, hc, pairwise_stages_ofFilters _, filter_ofFilters _, fun specs' hswaps => ?_⟩
  suffices h : (∀ s ∈ specs', s.build = .ok (built s)) ∧ ∀ ts,
      (ofFilters (specs'.map built)).outputs ts = (ofFilters (specs.map built)).outputs ts from
    ⟨_, (ofSpecs_eq h.1).2, h.2⟩
  induction hswaps with
  | refl => exact ⟨hbuilt, fun _ => rfl⟩
  | tail _ hswap ih =>
    obtain ⟨hvalid, hsame⟩ := ih
    exact ⟨fun s hs => hvalid s (hswap.perm.mem_iff.mpr hs),
      fun ts => (hswap.outputs hvalid ts).symm.trans (hsame ts)⟩

/-- Three filters of two sticks, and the same ones written the other way round. -/
theorem order_within_stages_reversed :
    let x : FilterSpec := .relativeAxis "X1" 10000
    let y : FilterSpec := .relativeAxis "Y1" 5000
    let d : FilterSpec := .deadzone "X1" 4000 true
    ∃ c c', ofSpecs [x, y, d] = .ok c ∧ ofSpecs [d, y, x] = .ok c' ∧
      c.stages = [.deadzone, .integrator, .integrator] ∧ ∀ ts, c'.outputs ts = c.outputs ts := by
  intro x y d
  have hx : x.build = .ok (.integrator (.ofSpeeds [(.x1, 10000)])) := by with_unfolding_all rfl
  have hy : y.build = .ok (.integrator (.ofSpeeds [(.y1, 5000)])) := by with_unfolding_all rfl
  have hd : d.build = .ok (.deadzone ⟨.x1, 4000, true⟩) := by with_unfolding_all rfl
  have hvalid : ∀ s ∈ [x, y, d], ∃ f, s.build = .ok f := by
    intro s hs
    simp only [List.mem_cons, List.not_mem_nil, or_false] at hs
    rcases hs with rfl | rfl | rfl
    exacts [⟨_, hx⟩, ⟨_, hy⟩, ⟨_, hd⟩]
  have hswaps : Relation.ReflTransGen FilterSpec.Swap [x, y, d] [d, y, x] := by
    have hyd : y.Exchangeable d := ⟨_, _, hy, hd, .inl (by decide)⟩
    have hxd : x.Exchangeable d := ⟨_, _, hx, hd, .inl (by decide)⟩
    have hxy : x.Exchangeable y := ⟨_, _, hx, hy, .inr ⟨by decide, by decide, by decide⟩⟩
    have h : Relation.ReflTransGen FilterSpec.Swap [x, y, d] [x, d, y] := .single (.mk [x] [] hyd)
    exact (h.tail (.mk [] [y] hxd)).tail (.mk [d] [] hxy)
  obtain ⟨-, c, -, hc, -, -, hsame⟩ := order_within_stages hvalid
  obtain ⟨c', hc', hout⟩ := hsame _ hswaps
  have hstages : c.stages = [.deadzone, .integrator, .integrator] := by
    rw [ofSpecs, List.mapM_cons, List.mapM_cons, List.mapM_cons, hx, hy, hd] at hc
    cases hc
    rfl
  exact ⟨c, c', hc, hc', hstages, hout⟩

end Chain

end PadRemap
