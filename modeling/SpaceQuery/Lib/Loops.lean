import Mathlib.Tactic

/-!
Loops that repeat a partial step until there is none (`iterate`).
-/

namespace Loops

variable {S : Type*} (step : S → Option S)

/-- The state after at most `fuel` steps. -/
def iterate : ℕ → S → S
  | 0, s => s
  | fuel + 1, s =>
    match step s with
    | some next => iterate fuel next
    | none => s

variable {step}

theorem iterate_invariant {I : S → Prop} (hinv : ∀ s next, I s → step s = some next → I next)
    (fuel : ℕ) {s : S} (hs : I s) : I (iterate step fuel s) := by
  induction fuel generalizing s with
  | zero => exact hs
  | succ fuel ih =>
    cases h : step s with
    | none => simpa [iterate, h] using hs
    | some next =>
      simp only [iterate, h]
      exact ih (hinv s next hs h)

theorem step_iterate {size : S → ℕ} (hstep : ∀ s next, step s = some next → size next < size s)
    {fuel : ℕ} {s : S} (hfuel : size s ≤ fuel) : step (iterate step fuel s) = none := by
  induction fuel generalizing s with
  | zero =>
    cases h : step s with
    | none => exact h
    | some next =>
      have := hstep s next h
      omega
  | succ fuel ih =>
    cases h : step s with
    | none => simp [iterate, h]
    | some next =>
      have := hstep s next h
      simp only [iterate, h]
      exact ih (by omega)

end Loops
