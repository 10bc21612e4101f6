import Mathlib.Tactic

/-!
A latch: one bit that events clear and set. An event that does both leaves it set.
-/

namespace Latch

variable {E : Type*} (clears sets : E → Bool) (b : Bool)

/-- The bit behind an event. -/
def step (e : E) : Bool := (b && !clears e) || sets e

/-- The bit behind a list of events. -/
def latch (es : List E) : Bool := es.foldl (step clears sets) b

/-- Some event sets the bit and no later one clears it. -/
def SetForGood (es : List E) : Prop :=
  ∃ front e back, es = front ++ e :: back ∧ sets e ∧ ∀ e' ∈ back, ¬ clears e'

@[simp] lemma latch_nil : latch clears sets b [] = b := rfl

@[simp] lemma latch_cons (e : E) (es : List E) :
    latch clears sets b (e :: es) = latch clears sets (step clears sets b e) es := rfl

variable {clears sets}

lemma setForGood_cons {e : E} {es : List E} : SetForGood clears sets (e :: es) ↔
      (sets e ∧ ∀ e' ∈ es, ¬ clears e') ∨ SetForGood clears sets es := by
  constructor
  · rintro ⟨_ | ⟨x, front⟩, e', back, heq, hset, hback⟩
    · obtain ⟨rfl, rfl⟩ := List.cons_eq_cons.1 heq
      exact .inl ⟨hset, hback⟩
    · obtain ⟨-, rfl⟩ := List.cons_eq_cons.1 heq
      exact .inr ⟨front, e', back, rfl, hset, hback⟩
  · rintro (⟨hset, hes⟩ | ⟨front, e', back, rfl, hset, hback⟩)
    · exact ⟨[], e, es, rfl, hset, hes⟩
    · exact ⟨e :: front, e', back, rfl, hset, hback⟩

/-- When a latch is set at the end of a run. -/
theorem latch_iff {b : Bool} {es : List E} : latch clears sets b es ↔
      (b ∧ ∀ e ∈ es, ¬ clears e) ∨ SetForGood clears sets es := by
  induction es generalizing b with
  | nil =>
    have hnone : ¬ SetForGood clears sets ([] : List E) := by
      rintro ⟨front, e, back, heq, -⟩
      simp at heq
    simp [hnone]
  | cons e es ih =>
    rw [latch_cons, setForGood_cons, step]
    grind

/-- A latch and the one that starts unset, with the first value added at the end, agree
unless the bit was set, an event cleared it, and none set it again. -/
theorem or_latch_eq_iff (es : List E) : (b || latch clears sets false es) = latch clears sets b es ↔
      (b → (∀ e ∈ es, ¬ clears e) ∨ SetForGood clears sets es) := by
  cases b with
  | false => simp
  | true =>
    rw [Bool.true_or, eq_comm, latch_iff]
    simp

end Latch
