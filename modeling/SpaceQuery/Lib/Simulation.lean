import Mathlib.Tactic

/-!
Computations that read and write a state and may fail, and the simulation of one state by another.
A `Comp S E α` is the shape of a method that borrows its object mutably and returns a result: on
failure the state is kept as the method left it.
-/

universe u

/-- A sequence of two fallible steps succeeds through its first step. -/
lemma Except.exists_of_bind_eq_ok {E : Type*} {α β : Type u} {m : Except E α}
    {f : α → Except E β} {b : β} (h : (m >>= f) = .ok b) : ∃ a, m = .ok a ∧ f a = .ok b := by
  cases m with
  | error e => cases h
  | ok a => exact ⟨a, rfl, h⟩

/-- A computation on a state that may fail. -/
def Comp (S E α : Type*) := S → Except E α × S

namespace Comp

variable {S E : Type*} {α β : Type u}

/-- Return a value. -/
protected def pure (a : α) : Comp S E α := fun s => (.ok a, s)

/-- Fail, leaving the state. -/
def fail (e : E) : Comp S E α := fun s => (.error e, s)

/-- Go on with the value of a computation, or fail with it. -/
protected def bind (m : Comp S E α) (f : α → Comp S E β) : Comp S E β := fun s =>
  match m s with
  | (.ok a, s') => f a s'
  | (.error e, s') => (.error e, s')

/-- Observe the state. -/
def get (f : S → α) : Comp S E α := fun s => (.ok (f s), s)

/-- Change the state. -/
def modify (f : S → S) : Comp S E Unit := fun s => (.ok (), f s)

/-- Report the failures in other words. -/
def mapError {E' : Type*} (f : E → E') (m : Comp S E α) : Comp S E' α := fun s =>
  ((m s).1.mapError f, (m s).2)

/-- A result that does not depend on the state. -/
def lift (r : Except E α) : Comp S E α := fun s => (r, s)

instance : Monad (Comp S E) where
  pure := Comp.pure
  bind := Comp.bind

lemma pure_apply (a : α) (s : S) : (Pure.pure a : Comp S E α) s = (.ok a, s) := rfl

lemma get_apply (f : S → α) (s : S) : (get f : Comp S E α) s = (.ok (f s), s) := rfl

lemma modify_apply (f : S → S) (s : S) : (modify f : Comp S E Unit) s = (.ok (), f s) := rfl

lemma lift_apply (r : Except E α) (s : S) : (lift r : Comp S E α) s = (r, s) := rfl

lemma bind_apply (m : Comp S E α) (f : α → Comp S E β) (s : S) : (m >>= f) s = match m s with
      | (.ok a, s') => f a s'
      | (.error e, s') => (.error e, s') := rfl

variable {m : Comp S E α}

lemma bind_ok {s s' : S} {a : α} (h : m s = (.ok a, s')) (f : α → Comp S E β) :
    (m >>= f) s = f a s' := by
  rw [bind_apply, h]

lemma bind_error {s s' : S} {e : E} (h : m s = (.error e, s')) (f : α → Comp S E β) :
    (m >>= f) s = (.error e, s') := by
  rw [bind_apply, h]

/-! ### A measure that no computation raises -/

/-- The computation does not raise the measure, whether it fails or not. -/
def Shrinks (size : S → ℕ) (m : Comp S E α) : Prop := ∀ s, size (m s).2 ≤ size s

variable {size : S → ℕ}

lemma Shrinks.pure (a : α) : Shrinks size (Pure.pure a : Comp S E α) := fun _ => le_rfl

lemma Shrinks.fail (e : E) : Shrinks size (Comp.fail e : Comp S E α) := fun _ => le_rfl

lemma Shrinks.get (f : S → α) : Shrinks size (Comp.get f : Comp S E α) := fun _ => le_rfl

lemma Shrinks.bind {f : α → Comp S E β} (hm : Shrinks size m) (hf : ∀ a, Shrinks size (f a)) :
    Shrinks size (m >>= f) := by
  intro s
  have hle := hm s
  rcases hms : m s with ⟨a | e, s'⟩
  · rw [bind_error hms]
    rwa [hms] at hle
  · rw [bind_ok hms]
    rw [hms] at hle
    exact (hf e s').trans hle

lemma Shrinks.ite {p : Prop} [Decidable p] {m' : Comp S E α} (hm : Shrinks size m)
    (hm' : Shrinks size m') : Shrinks size (if p then m else m') := by
  by_cases hp : p
  · rwa [if_pos hp]
  · rwa [if_neg hp]

variable (size) in
/-- A computation that lowers the measure when it succeeds, followed by others
that do not raise it. -/
lemma lt_of_bind_ok {f : α → Comp S E β} {s t : S} {b : β}
    (hm : ∀ a s', m s = (.ok a, s') → size s' < size s) (hf : ∀ a, Shrinks size (f a))
    (h : (m >>= f) s = (.ok b, t)) : size t < size s := by
  rcases hms : m s with ⟨e | a, s'⟩
  · rw [bind_error hms] at h
    cases h
  · rw [bind_ok hms] at h
    have hle := hf a s'
    rw [h] at hle
    exact hle.trans_lt (hm a s' hms)

end Comp

namespace Simulation

variable {S E : Type*} {α β : Type u}

/-- The errors that matter to a comparison: those of the first run and those of
the second run that end it, and the pairs that count as the same failure. -/
structure Errors (E : Type*) where
  lost : E → Prop
  stop : E → Prop
  same : E → E → Prop

variable (R : S → S → Prop) (err : Errors E)

/-- What the runs of one computation from two related states have in common. -/
inductive Agree : Except E α × S → Except E α × S → Prop
  /-- The same value, and related states. -/
  | ok (a : α) {s s' : S} : R s s' → Agree (.ok a, s) (.ok a, s')
  /-- The same failure, and related states. -/
  | error {e e' : E} {s s' : S} : err.same e e' → R s s' → Agree (.error e, s) (.error e', s')
  /-- A failure of the first run that ends the comparison. -/
  | lost {e : E} {s : S} (r : Except E α × S) : err.lost e → Agree (.error e, s) r
  /-- A failure of the second run that ends the comparison. -/
  | stop {e : E} {s : S} (r : Except E α × S) : err.stop e → Agree r (.error e, s)

/-- Related states are indistinguishable to the computation. -/
def Respects (m : Comp S E α) : Prop := ∀ s s', R s s' → Agree R err (m s) (m s')

variable {R err}

lemma Respects.pure (a : α) : Respects R err (Pure.pure a : Comp S E α) :=
  fun _ _ h => .ok a h

lemma Respects.fail {e : E} (he : err.same e e) : Respects R err (Comp.fail e : Comp S E α) :=
  fun _ _ h => .error he h

/-- A computation may look at whatever related states have in common. -/
lemma Respects.observe {f : S → α} (hf : ∀ s s', R s s' → f s = f s') :
    Respects R err (Comp.get f : Comp S E α) := by
  intro s s' h
  rw [Comp.get_apply, hf s s' h]
  exact .ok _ h

/-- Two computations go on alike where their first parts agree. -/
lemma Agree.bind {r r' : Except E α × S} {s s' : S} {m m' : Comp S E α}
    {f f' : α → Comp S E β} (h : Agree R err r r') (hm : m s = r) (hm' : m' s' = r')
    (hf : ∀ a t t', R t t' → Agree R err (f a t) (f' a t')) :
    Agree R err ((m >>= f) s) ((m' >>= f') s') := by
  cases h with
  | ok a ht =>
    rw [Comp.bind_ok hm, Comp.bind_ok hm']
    exact hf a _ _ ht
  | error he ht =>
    rw [Comp.bind_error hm, Comp.bind_error hm']
    exact .error he ht
  | lost _ he =>
    rw [Comp.bind_error hm]
    exact .lost _ he
  | stop _ he =>
    rw [Comp.bind_error hm']
    exact .stop _ he

lemma Respects.bind {m : Comp S E α} {f : α → Comp S E β} (hm : Respects R err m)
    (hf : ∀ a, Respects R err (f a)) : Respects R err (m >>= f) :=
  fun s s' h => (hm s s' h).bind rfl rfl hf

/-- A branch on something both runs know. -/
lemma Respects.ite {p : Prop} [Decidable p] {m m' : Comp S E α} (hm : p → Respects R err m)
    (hm' : ¬ p → Respects R err m') : Respects R err (if p then m else m') := by
  by_cases hp : p
  · rw [if_pos hp]
    exact hm hp
  · rw [if_neg hp]
    exact hm' hp

end Simulation

/-! ### Postconditions -/

section Ensures

variable {σ α β : Type u} {P Q : α → Prop} {m : StateM σ α}

/-- The value of the computation has a property, whatever the state is. -/
def Ensures (m : StateM σ α) (Q : α → Prop) : Prop := ∀ s, Q (m s).1

lemma Ensures.pure {a : α} (h : Q a) : Ensures (σ := σ) (Pure.pure a) Q := fun _ => h

lemma Ensures.mono (h : Ensures m P) (himp : ∀ a, P a → Q a) : Ensures m Q :=
  fun s => himp _ (h s)

lemma Ensures.bind {R : β → Prop} {f : α → StateM σ β} (h : Ensures m P)
    (hf : ∀ a, P a → Ensures (f a) R) : Ensures (m >>= f) R :=
  fun s => hf _ (h s) _

/-- What every round of a loop keeps holds behind the loop. -/
lemma Ensures.foldlM {step : α → β → StateM σ α} (hstep : ∀ a b, P a → Ensures (step a b) P)
    {a : α} (ha : P a) (bs : List β) : Ensures (bs.foldlM step a) P := by
  induction bs generalizing a with
  | nil => exact .pure ha
  | cons b bs ih =>
    exact (hstep a b ha).bind fun _ h => ih h

end Ensures
