import Mathlib.Tactic

/-!
Runs of a deterministic transition system `step : S → E → S`.

The events of a run stand for everything the system does not decide itself. An event that is not
enabled leaves the state as it is, so every list of events is a run, and a property of every
interleaving is a property of every list.
-/

namespace Runs

open List

variable {S E : Type*} (step : S → E → S)

/-- The state a list of events leads to. -/
def run (s : S) (es : List E) : S := es.foldl step s

/-- The steps of a run: the state before the step and the event taken. -/
def visits : S → List E → List (S × E)
  | _, [] => []
  | s, e :: es => (s, e) :: visits (step s e) es

@[simp] lemma run_nil (s : S) : run step s [] = s := rfl

@[simp] lemma run_cons (s : S) (e : E) (es : List E) :
    run step s (e :: es) = run step (step s e) es := rfl

lemma run_append (s : S) (es fs : List E) :
    run step s (es ++ fs) = run step (run step s es) fs := by
  rw [run, foldl_append]
  rfl

@[simp] lemma visits_nil (s : S) : visits step s [] = [] := rfl

@[simp] lemma visits_cons (s : S) (e : E) (es : List E) :
    visits step s (e :: es) = (s, e) :: visits step (step s e) es := rfl

variable {step} {s : S} {P : S → Prop}

/-- What every step preserves holds at the end of every run. -/
theorem run_invariant (hstep : ∀ s e, P s → P (step s e)) (hs : P s)
    (es : List E) : P (run step s es) := by
  induction es generalizing s with
  | nil => exact hs
  | cons e es ih => exact ih (hstep s e hs)

variable {es : List E}

/-- A run keeps what its events preserve. -/
theorem run_invariant_of_mem {Q : E → Prop} (hstep : ∀ s e, Q e → P s → P (step s e)) (hs : P s)
    (hQ : ∀ e ∈ es, Q e) : P (run step s es) := by
  induction es generalizing s with
  | nil => exact hs
  | cons e es ih =>
    rw [forall_mem_cons] at hQ
    exact ih (hstep s e hQ.1 hs) hQ.2

variable {Q : S → E → Prop}

/-- A run whose steps all meet a condition keeps what such steps preserve, and
has it before each of its steps. -/
theorem visits_invariant_of (hstep : ∀ s e, Q s e → P s → P (step s e)) (hs : P s)
    (hQ : ∀ v ∈ visits step s es, Q v.1 v.2) :
    P (run step s es) ∧ ∀ v ∈ visits step s es, P v.1 := by
  induction es generalizing s with
  | nil => exact ⟨hs, by simp⟩
  | cons e es ih =>
    simp only [visits_cons, mem_cons, forall_eq_or_imp] at hQ ⊢
    obtain ⟨hrun, hvis⟩ := ih (hstep s e hQ.1 hs) hQ.2
    exact ⟨hrun, hs, hvis⟩

/-- Where a step keeps a property exactly when it meets a condition, a run keeps it exactly
when all its steps do. -/
theorem run_iff_visits (hstep : ∀ s e, P (step s e) ↔ P s ∧ Q s e) (s : S) (es : List E) :
    P (run step s es) ↔ P s ∧ ∀ v ∈ visits step s es, Q v.1 v.2 := by
  induction es generalizing s with
  | nil => simp
  | cons e es ih =>
    simp only [run_cons, visits_cons, mem_cons, forall_eq_or_imp]
    rw [ih, hstep, and_assoc]

/-- What every step preserves holds before each step of every run. -/
theorem visits_invariant (hstep : ∀ s e, P s → P (step s e)) (hs : P s)
    {v : S × E} (hv : v ∈ visits step s es) : P v.1 :=
  (visits_invariant_of (Q := fun _ _ => True) (fun s e _ => hstep s e) hs
    (fun _ _ => trivial)).2 v hv

end Runs
