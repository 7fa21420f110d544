import Mathlib.Logic.Function.Iterate
import PadRemap.Proofs.Mapper.Drive

/-! Mappers at work on one multiplexer. Each has a list of jobs and makes the calls of the current
one; between any two calls of one mapper come any calls of the others, and time passes at any
moment. The backend may answer every call anew. -/

namespace PadRemap

/-- A mapper at work: the jobs before it and those begun, the calls of the current one not made yet,
and the results of those done. A failed call ends its job. -/
structure Player where
  mapper : Mapper
  jobs : List Mapper.Job
  begun : List Mapper.Job := []
  pending : List Step := []
  results : List (Except OutputError Unit) := []

namespace Player

open Mapper (Job)

def message (p : Player) : Message := (p.begun.getLast?.map Job.message).getD .neutral

def Idle (p : Player) : Prop := p.pending = []

def begin (p : Player) (job : Job) (jobs : List Job) : Player :=
  { p with jobs, begun := p.begun ++ [job], pending := p.mapper.plan job }

def pass (p : Player) (x : Step) (xs : List Step) : Player :=
  { p with
    mapper := x.mapper
    pending := xs
    results := if xs = [] then p.results ++ [.ok ()] else p.results }

def fail (p : Player) (x : Step) (e : OutputError) : Player :=
  { p with mapper := x.mapper, pending := [], results := p.results ++ [.error e] }

/-- One step: the next call of the current job, or else the beginning of the next job. -/
def advance (b : Backend) (m : Multiplexer) (p : Player) : Multiplexer × Player :=
  match p.pending, p.jobs with
  | [], [] => (m, p)
  | [], job :: jobs => (m, p.begin job jobs)
  | x :: xs, _ => match m.perform b x.call with
    | (m, .ok ()) => (m, p.pass x xs)
    | (m, .error e) => (m, p.fail x e)

theorem advance_of_idle {p : Player} (h : p.Idle) :
    ∃ q : Player, ∀ (b : Backend) (m : Multiplexer), p.advance b m = (m, q) := by
  unfold advance
  rw [h]
  cases p.jobs with
  | nil => exact ⟨p, fun _ _ => rfl⟩
  | cons job jobs => exact ⟨p.begin job jobs, fun _ _ => rfl⟩

theorem advance_of_pending (b : Backend) (m : Multiplexer) {p : Player} {x : Step}
    {xs : List Step} (h : p.pending = x :: xs) :
    p.advance b m = ((m.perform b x.call).1,
      match (m.perform b x.call).2 with
      | .ok () => p.pass x xs
      | .error e => p.fail x e) := by
  simp only [advance, h]
  cases m.perform b x.call with
  | mk m' r => cases r <;> rfl

theorem advance_cases (b : Backend) (m : Multiplexer) (p : Player) :
    (p.pending = [] ∧ p.jobs = [] ∧ p.advance b m = (m, p)) ∨
    (∃ job jobs, p.pending = [] ∧ p.jobs = job :: jobs ∧ p.advance b m = (m, p.begin job jobs)) ∨
    (∃ x xs, p.pending = x :: xs ∧ (m.perform b x.call).2 = .ok () ∧
      p.advance b m = ((m.perform b x.call).1, p.pass x xs)) ∨
    ∃ x xs e, p.pending = x :: xs ∧ (m.perform b x.call).2 = .error e ∧
      p.advance b m = ((m.perform b x.call).1, p.fail x e) := by
  cases hp : p.pending with
  | nil =>
    unfold advance
    rw [hp]
    cases hj : p.jobs with
    | nil => exact Or.inl ⟨rfl, rfl, rfl⟩
    | cons job jobs => exact Or.inr (Or.inl ⟨job, jobs, rfl, rfl, rfl⟩)
  | cons x xs =>
    rw [advance_of_pending b m hp]
    cases hr : (m.perform b x.call).2 with
    | ok u => exact Or.inr (Or.inr (Or.inl ⟨x, xs, rfl, hr, rfl⟩))
    | error e => exact Or.inr (Or.inr (Or.inr ⟨x, xs, e, rfl, hr, rfl⟩))

theorem iterate_advance (b : Backend) {m : Multiplexer} {p : Player} (h : p.pending ≠ []) :
    ∃ n, (fun q : Multiplexer × Player => q.2.advance b q.1)^[n] (m, p) =
      ((Mapper.follow b p.pending p.mapper m).2.1,
        { p with
          mapper := (Mapper.follow b p.pending p.mapper m).1
          pending := []
          results := p.results ++ [(Mapper.follow b p.pending p.mapper m).2.2] }) := by
  obtain ⟨s, jobs, begun, pending, results⟩ := p
  induction pending generalizing s m with
  | nil => exact (h rfl).elim
  | cons x xs ih =>
    cases hc : m.perform b x.call with
    | mk m' r =>
      cases r with
      | error e => exact ⟨1, by simp [advance, fail, Mapper.follow, hc]⟩
      | ok u =>
        by_cases hx : xs = []
        · subst hx
          exact ⟨1, by simp [advance, pass, Mapper.follow, hc]⟩
        · obtain ⟨n, hn⟩ := ih x.mapper hx (m := m')
          refine ⟨n + 1, ?_⟩
          rw [Function.iterate_succ_apply]
          simpa [advance, pass, Mapper.follow, hc, hx] using hn

/-- Left alone, a player does its next job as one run of the mapper does. -/
theorem iterate_advance_job (b : Backend) {m : Multiplexer} {p : Player} (hi : p.Idle) {job : Job}
    {jobs : List Job} (hj : p.jobs = job :: jobs) :
    ∃ n, (fun q : Multiplexer × Player => q.2.advance b q.1)^[n] (m, p) =
      ((Mapper.follow b (p.mapper.plan job) p.mapper m).2.1,
        { p with
          mapper := (Mapper.follow b (p.mapper.plan job) p.mapper m).1
          jobs
          begun := p.begun ++ [job]
          pending := []
          results := p.results ++ [(Mapper.follow b (p.mapper.plan job) p.mapper m).2.2] }) := by
  obtain ⟨n, hn⟩ := iterate_advance b (m := m) (p := p.begin job jobs) (p.mapper.plan_ne_nil job)
  refine ⟨n + 1, ?_⟩
  rw [Function.iterate_succ_apply]
  have hstep : p.advance b m = (m, p.begin job jobs) := by
    rw [advance, hi, hj]
  rw [hstep]
  exact hn

def target (p : Player) : Mapper := p.pending.foldl (fun _ x => x.mapper) p.mapper

theorem target_of_idle {p : Player} (h : p.Idle) : p.target = p.mapper := by
  rw [target, h]
  rfl

theorem target_begin (p : Player) (job : Job) (jobs : List Job) :
    (p.begin job jobs).target = p.mapper.after job := by
  simp [target, begin, Mapper.plan_eq]

theorem target_pass {p : Player} {x : Step} {xs : List Step} (h : p.pending = x :: xs) :
    (p.pass x xs).target = p.target := by
  rw [target, target, h]
  rfl

theorem message_begin (p : Player) (job : Job) (jobs : List Job) :
    (p.begin job jobs).message = job.message := by
  simp [message, begin]

theorem advance_script (b : Backend) (m : Multiplexer) (p : Player) :
    (p.advance b m).2.begun ++ (p.advance b m).2.jobs = p.begun ++ p.jobs := by
  rcases p.advance_cases b m with ⟨-, -, he⟩ | ⟨job, jobs, -, hj, he⟩ | ⟨x, xs, -, -, he⟩ |
    ⟨x, xs, e, -, -, he⟩
  · rw [he]
  · rw [he, hj]
    simp [begin]
  · rw [he]
    rfl
  · rw [he]
    rfl

/-- A player whose calls, also those still to make, stay within a wiring. -/
structure Wired (w : Wiring) (p : Player) : Prop where
  mapper : p.mapper.Keeps w
  pending : ∀ x ∈ p.pending, x.call.Targets w.Uses ∧ x.mapper.Keeps w

theorem Wired.advance {w : Wiring} {p : Player} (h : p.Wired w) (b : Backend) (m : Multiplexer) :
    (p.advance b m).2.Wired w := by
  rcases p.advance_cases b m with ⟨-, -, he⟩ | ⟨job, jobs, -, -, he⟩ | ⟨x, xs, hp, -, he⟩ |
    ⟨x, xs, e, hp, -, he⟩
  · rw [he]
    exact h
  · rw [he]
    exact ⟨h.mapper, h.mapper.plan job⟩
  · rw [he]
    exact ⟨(h.pending x (hp ▸ List.mem_cons_self)).2,
      fun y hy => h.pending y (hp ▸ List.mem_cons_of_mem x hy)⟩
  · rw [he]
    exact ⟨(h.pending x (hp ▸ List.mem_cons_self)).2, fun _ hy => nomatch hy⟩

theorem mux_advance (b : Backend) (m : Multiplexer) (p : Player) : (p.advance b m).1 = m ∨
    ∃ x ∈ p.pending, (p.advance b m).1 = (m.perform b x.call).1 := by
  rcases p.advance_cases b m with ⟨-, -, he⟩ | ⟨_, _, -, -, he⟩ | ⟨x, xs, hp, -, he⟩ |
    ⟨x, xs, _, hp, -, he⟩
  · exact Or.inl (by rw [he])
  · exact Or.inl (by rw [he])
  · exact Or.inr ⟨x, hp ▸ List.mem_cons_self, by rw [he]⟩
  · exact Or.inr ⟨x, hp ▸ List.mem_cons_self, by rw [he]⟩

theorem Wired.mux_advance {w : Wiring} {p : Player} (h : p.Wired w) (b : Backend)
    (m : Multiplexer) : (p.advance b m).1 = m ∨
      ∃ c : Call, c.Targets w.Uses ∧ (p.advance b m).1 = (m.perform b c).1 := by
  rcases Player.mux_advance b m p with he | ⟨x, hx, he⟩
  · exact Or.inl he
  · exact Or.inr ⟨x.call, (h.pending x hx).1, he⟩

/-- A player none of whose calls has failed: once the pending calls are made its mapper is settled
with the message begun last, and a level that is still to be written is one that it drives then. -/
structure Sound (p : Player) : Prop where
  settled : p.target.Settled
  last : p.target.last = p.message
  honest : ∀ o y, Step.writes o p.pending = some (some y) → ∃ x, p.target.level o x = some y

theorem Sound.begin {p : Player} (h : p.Sound) (hi : p.Idle) (job : Job) (jobs : List Job) :
    (p.begin job jobs).Sound := by
  have hs : p.mapper.Settled := target_of_idle hi ▸ h.settled
  refine ⟨?_, ?_, fun o y hy => ?_⟩
  · rw [target_begin]
    exact hs.after job
  · rw [target_begin, message_begin]
    rfl
  · rw [target_begin]
    rcases hs.plan_writes job o with ⟨hn, -⟩ | ⟨x, -, hx⟩
    · exact nomatch hn.symm.trans hy
    · exact ⟨x, Option.some.inj (hx.symm.trans hy)⟩

theorem Sound.pass {p : Player} (h : p.Sound) {x : Step} {xs : List Step}
    (hp : p.pending = x :: xs) : (p.pass x xs).Sound := by
  refine ⟨?_, ?_, fun o y hy => ?_⟩
  · rw [target_pass hp]
    exact h.settled
  · rw [target_pass hp]
    exact h.last
  · rw [target_pass hp]
    change Step.writes o xs = _ at hy
    exact h.honest o y (by rw [hp, Step.writes_cons, hy]; rfl)

end Player

structure Ensemble (ι : Type) where
  mux : Multiplexer
  players : ι → Player

/-- One player takes a step, or time passes, with the answers of the backend at that moment. -/
inductive Move (ι : Type) where
  | advance (i : ι) (b : Backend)
  | update (ms : Nat) (b : Backend)

def Move.backend {ι : Type} : Move ι → Backend
  | advance _ b | update _ b => b

namespace Ensemble

variable {ι : Type} [DecidableEq ι]

def next (e : Ensemble ι) : Move ι → Ensemble ι
  | .advance i b =>
    { mux := ((e.players i).advance b e.mux).1
      players := Function.update e.players i ((e.players i).advance b e.mux).2 }
  | .update ms b => { e with mux := (e.mux.update b ms).1 }

def answer (e : Ensemble ι) : Move ι → Except OutputError Unit
  | .advance i b => match (e.players i).pending with
    | [] => .ok ()
    | x :: _ => (e.mux.perform b x.call).2
  | .update ms b => (e.mux.update b ms).2

def run (e : Ensemble ι) (moves : List (Move ι)) : Ensemble ι := moves.foldl next e

def start (m : Multiplexer) (w : ι → Wiring) (jobs : ι → List Mapper.Job) : Ensemble ι :=
  ⟨m, fun i => { mapper := (w i).mapper, jobs := jobs i }⟩

theorem run_induct {P : Ensemble ι → Prop} {e : Ensemble ι} {moves : List (Move ι)} (h : P e)
    (hnext : ∀ e, P e → ∀ mv ∈ moves, P (e.next mv)) : P (e.run moves) :=
  List.foldlRecOn _ _ h hnext

/-- The state between calls: the multiplexer is in service with the devices it began with, and
every player stays within its wiring. -/
structure Wired (m : Multiplexer) (w : ι → Wiring) (e : Ensemble ι) : Prop where
  service : e.mux.InService
  devices : e.mux.SameDevices m
  players : ∀ i, (e.players i).Wired (w i)

omit [DecidableEq ι] in
theorem Wired.start {m : Multiplexer} (h : m.InService) (w : ι → Wiring)
    (jobs : ι → List Mapper.Job) : (start m w jobs).Wired m w where
  service := h
  devices := ⟨rfl, rfl⟩
  players i := ⟨Mapper.keeps_mapper (w i), fun _ hx => nomatch hx⟩

theorem Wired.mux_advance {m : Multiplexer} {w : ι → Wiring} {e : Ensemble ι} (h : e.Wired m w)
    (i : ι) (b : Backend) : (e.next (.advance i b)).mux = e.mux ∨
      ∃ c : Call, c.Targets (w i).Uses ∧ (e.next (.advance i b)).mux = (e.mux.perform b c).1 :=
  (h.players i).mux_advance b e.mux

theorem players_next_self (e : Ensemble ι) (i : ι) (b : Backend) :
    (e.next (.advance i b)).players i = ((e.players i).advance b e.mux).2 :=
  Function.update_self ..

theorem players_next_of_ne (e : Ensemble ι) {i j : ι} (h : j ≠ i) (b : Backend) :
    (e.next (.advance i b)).players j = e.players j :=
  Function.update_of_ne h ..

theorem forall_players_next {Q : ι → Player → Prop} {e : Ensemble ι} {i : ι} {b : Backend}
    (h : ∀ j, Q j (e.players j)) (hi : Q i ((e.players i).advance b e.mux).2) (j : ι) :
    Q j ((e.next (.advance i b)).players j) := by
  by_cases hj : j = i
  · subst hj
    rw [players_next_self]
    exact hi
  · rw [players_next_of_ne e hj]
    exact h j

theorem wired_players_next {w : ι → Wiring} {e : Ensemble ι}
    (h : ∀ i, (e.players i).Wired (w i)) (mv : Move ι) (j : ι) :
    ((e.next mv).players j).Wired (w j) := by
  cases mv with
  | update ms b => exact h j
  | advance i b => exact forall_players_next h ((h i).advance b e.mux) j

theorem Wired.next {m : Multiplexer} {w : ι → Wiring} {e : Ensemble ι} (h : e.Wired m w)
    (mv : Move ι) : (e.next mv).Wired m w := by
  have hplayers := wired_players_next h.players mv
  cases mv with
  | update ms b =>
    obtain ⟨hs, hd, -⟩ := h.service.update b ms
    exact ⟨hs, hd.trans h.devices, hplayers⟩
  | advance i b =>
    have hmux : (e.next (.advance i b)).mux.InService ∧
        (e.next (.advance i b)).mux.SameDevices e.mux := by
      rcases h.mux_advance i b with he | ⟨c, hc, he⟩
      · rw [he]
        exact ⟨h.service, rfl, rfl⟩
      · rw [he]
        exact h.service.perform b hc
    exact ⟨hmux.1, hmux.2.trans h.devices, hplayers⟩

end Ensemble

end PadRemap
