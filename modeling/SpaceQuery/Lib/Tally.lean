import Mathlib.Algebra.BigOperators.Group.List.Basic
import Mathlib.Algebra.Order.BigOperators.Group.List
import Mathlib.Tactic

/-!
Totals over a list of parties, for systems in which one party moves at a time.
-/

namespace Tally

open List

variable {P : Type*} (held : P → ℕ)

/-- What all parties hold together. -/
def total (parties : List P) : ℕ := (parties.map held).sum

@[simp] lemma total_nil : total held [] = 0 := rfl

@[simp] lemma total_cons (p : P) (parties : List P) :
    total held (p :: parties) = held p + total held parties := by
  rw [total, map_cons, sum_cons, total]

lemma total_append (ps qs : List P) : total held (ps ++ qs) = total held ps + total held qs := by
  rw [total, map_append, sum_append, total, total]

variable {parties : List P}

/-- One party moves: the total changes by what it changes for that party. -/
theorem total_set_add {i : ℕ} {p : P} (h : parties[i]? = some p) (q : P) :
    total held (parties.set i q) + held p = total held parties + held q := by
  induction parties generalizing i with
  | nil => cases h
  | cons p' parties ih =>
    cases i with
    | zero =>
      rw [getElem?_cons_zero] at h
      cases h
      rw [set_cons_zero, total_cons, total_cons]
      omega
    | succ i =>
      rw [set_cons_succ, total_cons, total_cons]
      have := ih h
      omega

lemma le_total {p : P} (h : p ∈ parties) : held p ≤ total held parties :=
  single_le_sum (fun _ _ => Nat.zero_le _) _ (mem_map_of_mem h)

/-- A positive total is held by somebody. -/
theorem total_pos_iff {held : P → ℕ} : 0 < total held parties ↔ ∃ p ∈ parties, 0 < held p := by
  induction parties with
  | nil => simp
  | cons p parties ih =>
    rw [total_cons, Nat.add_pos_iff_pos_or_pos, ih]
    simp

/-- Parties that hold one or nothing are counted. -/
lemma total_eq_countP {held : P → ℕ} {p : P → Bool}
    (h : ∀ x ∈ parties, held x = if p x then 1 else 0) : total held parties = parties.countP p := by
  induction parties with
  | nil => rfl
  | cons x parties ih =>
    rw [forall_mem_cons] at h
    rw [total_cons, ih h.2, h.1, countP_cons, add_comm]

end Tally
