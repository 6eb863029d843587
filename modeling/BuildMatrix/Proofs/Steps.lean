import Mathlib.Computability.StateTransition

/-! Runs of a step function. Where a run ends is settled by where it starts, so an end that is
computed step by step is the end of every other description of the run; and a trace that goes on to
the end holds all that is reached from a state in it. -/

set_option autoImplicit false

namespace BuildMatrix.Steps

open StateTransition (Reaches)

variable {σ : Type} {f : σ → Option σ} {x y z : σ} {trace : List σ}

/-- The next state, while there is one. -/
def advance (f : σ → Option σ) (x : σ) : σ := (f x).getD x

theorem reaches_advance (f : σ → Option σ) (n : Nat) (x : σ) :
    Reaches f x ((advance f)^[n] x) := by
  induction n generalizing x with
  | zero => exact .refl
  | succ n ih =>
    rw [Function.iterate_succ_apply, advance]
    cases step : f x with
    | none => exact ih x
    | some y => exact .head step (ih y)

theorem eq_of_reaches (one : Reaches f x y) (ends : f y = none) (other : Reaches f x z)
    (last : f z = none) : y = z :=
  Part.mem_unique (StateTransition.mem_eval.2 ⟨one, ends⟩)
    (StateTransition.mem_eval.2 ⟨other, last⟩)

/-- A run is over after as many steps as leave nothing to do. -/
theorem eq_advance (run : Reaches f x y) (ends : f y = none) (n : Nat)
    (done : f ((advance f)^[n] x) = none) : y = (advance f)^[n] x :=
  eq_of_reaches run ends (reaches_advance f n x) done

theorem mem_of_step (steps : trace.IsChain fun x y => y ∈ f x) (last : trace.getLast? = some z)
    (ends : f z = none) (member : x ∈ trace) (step : y ∈ f x) : y ∈ trace := by
  induction trace with
  | nil => cases member
  | cons first trace ih =>
    cases trace with
    | nil =>
      have same : first = z := Option.some.inj last
      rw [List.mem_singleton.1 member, same, ends] at step
      cases step
    | cons second trace =>
      obtain ⟨begins, steps⟩ := List.isChain_cons_cons.1 steps
      rcases List.mem_cons.1 member with rfl | later
      · rw [Option.mem_unique step begins]
        exact List.mem_cons_of_mem _ List.mem_cons_self
      · exact List.mem_cons_of_mem _ (ih steps last later)

theorem mem_of_reaches (steps : trace.IsChain fun x y => y ∈ f x) (last : trace.getLast? = some z)
    (ends : f z = none) (member : x ∈ trace) (reaches : Reaches f x y) : y ∈ trace := by
  induction reaches with
  | refl => exact member
  | tail _ step ih => exact mem_of_step steps last ends ih step

end BuildMatrix.Steps
