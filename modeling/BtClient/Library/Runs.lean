import Mathlib

/-!
# Runs of a deterministic step function

A run is a list of actions. `Along step P s actions` says that every action of the run
satisfies `P` in the state in which it is taken, so an invariant that is preserved by
such actions holds at the end of the run, and at the end of each of its prefixes.
-/

universe u v

namespace Runs

variable {σ : Type u} {α : Type v} (step : σ → α → σ)

/-- Every action satisfies `P` in the state in which it is taken. -/
def Along (P : σ → α → Prop) : σ → List α → Prop
  | _, [] => True
  | s, a :: rest => P s a ∧ Along P (step s a) rest

variable {step} {P Q : σ → α → Prop} {I : σ → Prop}

theorem Along.and {s : σ} {actions : List α} (hP : Along step P s actions)
    (hQ : Along step Q s actions) : Along step (fun s a => P s a ∧ Q s a) s actions := by
  induction actions generalizing s with
  | nil => trivial
  | cons a rest ih => exact ⟨⟨hP.1, hQ.1⟩, ih hP.2 hQ.2⟩

/-- What one action preserves, a run preserves. -/
theorem Along.invariant (hstep : ∀ s a, I s → P s a → I (step s a)) {s : σ}
    {actions : List α} (hs : I s) (hP : Along step P s actions) :
    I (actions.foldl step s) := by
  induction actions generalizing s with
  | nil => exact hs
  | cons a rest ih => exact ih (hstep s a hs hP.1) hP.2

end Runs
