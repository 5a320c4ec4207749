import Mathlib.Data.List.Basic

/-! Programs as trees of operations, which a run interprets over a state. Trees are well founded, so every run ends.
-/
namespace StableNet.Lib

/-- Programs that perform operations `e : ε` answered by `ρ e`, halt with `φ` and return `α`. -/
inductive Tree (ε : Type) (ρ : ε → Type) (φ α : Type) where
  | pure (a : α)
  | halt (f : φ)
  | op (e : ε) (k : ρ e → Tree ε ρ φ α)

namespace Tree
variable {ε φ σ α β : Type} {ρ : ε → Type}

/-- Go on at every leaf that returns. -/
def bind : Tree ε ρ φ α → (α → Tree ε ρ φ β) → Tree ε ρ φ β
  | .pure a, f => f a
  | .halt e, _ => .halt e
  | .op e k, f => .op e fun r => (k r).bind f

instance : Monad (Tree ε ρ φ) where
  pure := .pure
  bind := .bind

/-- The program that performs one operation and returns its answer. -/
def perform (e : ε) : Tree ε ρ φ (ρ e) := .op e .pure

/-- Interpret the operations: `step` answers an operation or ends the run. -/
def run (step : (e : ε) → σ → Except φ (ρ e) × σ) : Tree ε ρ φ α → σ → Except φ α × σ
  | .pure a, s => (.ok a,s)
  | .halt f, s => (.error f,s)
  | .op e k, s =>
    match step e s with
    | (.ok r,s') => (k r).run step s'
    | (.error f,s') => (.error f,s')

variable {step : (e : ε) → σ → Except φ (ρ e) × σ} {R : σ → σ → Prop}

/-- What holds across every operation holds across every run. -/
theorem run_rel (hrefl : ∀ s, R s s) (htrans : ∀ {s s' s''}, R s s' → R s' s'' → R s s'')
    (hstep : ∀ e s, R s (step e s).2) (t : Tree ε ρ φ α) (s : σ) : R s (t.run step s).2 := by
  induction t generalizing s with
  | pure | halt => exact hrefl s
  | op e k ih =>
    have h := hstep e s
    rw [run]
    generalize step e s = o at h
    obtain ⟨r | r,s'⟩ := o
    · exact h
    · exact htrans h (ih r s')

end Tree

end StableNet.Lib
