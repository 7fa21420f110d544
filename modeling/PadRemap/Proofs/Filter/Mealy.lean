/-! Machines that answer every input and remember something for the next one. The inputs before
show in an answer only through what is remembered of them. -/

namespace PadRemap.Mealy

variable {σ α β : Type} (step : σ → α → σ × β)

def after (s : σ) (xs : List α) : σ := xs.foldl (fun s x => (step s x).1) s

def outputs : σ → List α → List β
  | _, [] => []
  | s, x :: xs => (step s x).2 :: outputs (step s x).1 xs

def run? (step? : σ → α → Option (σ × β)) : σ → List α → Option (σ × List β)
  | s, [] => some (s, [])
  | s, x :: xs => do
    let (s, y) ← step? s x
    let (s, ys) ← run? step? s xs
    pure (s, y :: ys)

theorem after_append (s : σ) (xs ys : List α) :
    after step s (xs ++ ys) = after step (after step s xs) ys := List.foldl_append

theorem after_take_succ (s : σ) {xs : List α} {n : Nat} {x : α} (h : xs[n]? = some x) :
    after step s (xs.take (n + 1)) = (step (after step s (xs.take n)) x).1 := by
  rw [List.take_add_one, h, after_append]
  rfl

/-- Each answer is given from what the inputs before have left. -/
theorem getElem?_outputs (s : σ) (xs : List α) (n : Nat) :
    (outputs step s xs)[n]? = xs[n]?.map fun x => (step (after step s (xs.take n)) x).2 := by
  induction xs generalizing s n with
  | nil => rfl
  | cons x xs ih =>
    cases n with
    | zero => rfl
    | succ n => exact ih (step s x).1 n

theorem length_outputs (s : σ) (xs : List α) : (outputs step s xs).length = xs.length := by
  induction xs generalizing s with
  | nil => rfl
  | cons x xs ih => exact congrArg (· + 1) (ih (step s x).1)

/-- A machine that gives back each of some inputs whatever it remembers gives back all of them. -/
theorem outputs_eq_self {step : σ → α → σ × α} {xs : List α}
    (h : ∀ x ∈ xs, ∀ s, (step s x).2 = x) (s : σ) : outputs step s xs = xs := by
  induction xs generalizing s with
  | nil => rfl
  | cons x xs ih =>
    have hrest := ih (fun y hy => h y (List.mem_cons_of_mem x hy)) (step s x).1
    rw [outputs, h x List.mem_cons_self s, hrest]

theorem run?_eq {step? : σ → α → Option (σ × β)} {s : σ} {xs : List α}
    (h : ∀ n x, xs[n]? = some x →
      step? (after step s (xs.take n)) x = some (step (after step s (xs.take n)) x)) :
    run? step? s xs = some (after step s xs, outputs step s xs) := by
  induction xs generalizing s with
  | nil => rfl
  | cons x xs ih =>
    have hfirst : step? s x = some (step s x) := h 0 x rfl
    have hrest := ih (s := (step s x).1) fun n y hy => h (n + 1) y hy
    simp only [run?, hfirst, Option.bind_eq_bind, Option.bind_some, hrest]
    rfl

end PadRemap.Mealy
