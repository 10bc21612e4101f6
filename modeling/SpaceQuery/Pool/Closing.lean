import SpaceQuery.Pool.SlotCount

/-!
What the session pool still does once `close` has run. `drop` looks at `closed` again after it has
taken the lock; the inner loop of `acquire` does not.
-/

namespace SpaceQuery.Pool

open Runs List

variable {T : Type*}

/-! ### What a step can do to a closed pool -/

/-- A step starts a new connection: some task enters `connect_for_pool`, which
it does by taking the `open_count += 1` branch. -/
def StartsConnection (s s' : Sys T) : Prop :=
  ∃ i : ℕ, s'.tasks[i]? = some .connecting ∧ s.tasks[i]? ≠ some .connecting

/-- A step puts a session onto `idle`. -/
def PushesIdle (s s' : Sys T) : Prop := s.pool.idle.length < s'.pool.idle.length

/-- An `acquire` that threw an idle session away takes the lock of a closed
pool. -/
def RelocksClosed (s : Sys T) (e : Event T) : Prop :=
  s.pool.closed = true ∧ ∃ i expired, e = .advance i (.locked expired) ∧
    s.tasks[i]? = some .discarding

variable (maxSize : ℕ)

/-- Along a run, a step that finds the pool closed neither starts a connection
nor puts a session back. -/
def QuietAfterClose (es : List (Event T)) : Prop :=
  ∀ v ∈ visits (step maxSize) (Sys.init T) es, v.1.pool.closed = true →
    ¬ StartsConnection v.1 (step maxSize v.1 v.2) ∧ ¬ PushesIdle v.1 (step maxSize v.1 v.2)

variable (pool : PoolState T)

/-- A closed pool holds no idle sessions. -/
def ClosedEmpty : Prop := pool.closed = true → pool.idle = []

/-! ### A closed pool stays closed and empty -/

lemma acquireLoop_closed (expired : Bool) :
    (acquireLoop maxSize pool expired).1.closed = pool.closed := by
  rw [acquireLoop]
  split
  · rfl
  · split <;> rfl

lemma acquireLoop_idle (h : pool.idle = []) (expired : Bool) :
    (acquireLoop maxSize pool expired).1.idle = [] := by
  simp only [acquireLoop, h, getLast?_nil]
  split
  · rfl
  · exact h

variable {pool : PoolState T}

open Pool.Task

/-- No stretch of a task reopens the pool or puts a session into a closed
one. -/
lemma advance_closed (t : Task T) (answer : Answer T) (hclosed : pool.closed)
    (hidle : pool.idle = []) :
    (t.advance maxSize pool answer).1.closed ∧ (t.advance maxSize pool answer).1.idle = [] := by
  fun_cases advance maxSize pool t answer
  case case3 expired =>
    exact ⟨(acquireLoop_closed maxSize _ expired).trans hclosed,
      acquireLoop_idle maxSize (pool.giveBack 1) hidle expired⟩
  all_goals simp_all [acquireTop, PoolState.giveBack]

/-- While the pool is open a stretch of a task leaves it open. -/
lemma advance_open (t : Task T) (answer : Answer T) (hopen : pool.closed = false) :
    (t.advance maxSize pool answer).1.closed = false := by
  fun_cases advance maxSize pool t answer
  case case1 expired =>
    simp only [acquireTop, hopen, Bool.false_eq_true, if_false, acquireLoop_closed]
  case case3 expired => exact (acquireLoop_closed maxSize _ expired).trans hopen
  case case10 =>
    simp only [acquireTop, hopen, Bool.false_eq_true, if_false, acquireLoop_closed]
  all_goals exact hopen

/-- A step on a closed, empty pool leaves it closed and empty. -/
lemma step_closed {s : Sys T} (e : Event T) (hclosed : s.pool.closed) (hidle : s.pool.idle = []) :
    (step maxSize s e).pool.closed ∧ (step maxSize s e).pool.idle = [] := by
  cases e with
  | acquire => exact ⟨hclosed, hidle⟩
  | close => exact ⟨rfl, rfl⟩
  | advance i answer =>
    cases ht : s.tasks[i]? with
    | none => rw [step_advance_none ht]; exact ⟨hclosed, hidle⟩
    | some t =>
      rw [step_advance ht]
      exact advance_closed maxSize t answer hclosed hidle

lemma step_closedEmpty {s : Sys T} (e : Event T) (h : ClosedEmpty s.pool) :
    ClosedEmpty (step maxSize s e).pool := by
  cases hclosed : s.pool.closed with
  | true => exact fun _ => (step_closed maxSize e hclosed (h hclosed)).2
  | false =>
    cases e with
    | acquire => exact h
    | close => exact fun _ => rfl
    | advance i answer =>
      cases ht : s.tasks[i]? with
      | none => rw [step_advance_none ht]; exact h
      | some t =>
        rw [step_advance ht]
        intro habs
        rw [advance_open maxSize t answer hclosed] at habs
        cases habs

/-! ### Starting a connection in a closed pool -/

/-- In a closed pool a task enters `connect_for_pool` only from the return to
the lock after a thrown away session, and from there always, since that session
gave its slot up in the same critical section. -/
lemma advance_connecting_iff {maxSize : ℕ} {t : Task T} (answer : Answer T)
    (hclosed : pool.closed) (hidle : pool.idle = []) (hslot : t.slot ≤ pool.openCount)
    (hbound : pool.openCount ≤ maxSize) (ht : t ≠ .connecting) :
    (t.advance maxSize pool answer).2 = .connecting
      ↔ t = .discarding ∧ ∃ expired, answer = .locked expired := by
  fun_cases advance maxSize pool t answer
  case case1 expired => simp [acquireTop, hclosed]
  case case2 => split <;> simp
  case case3 expired =>
    have hlt : pool.openCount - 1 < maxSize := by
      simp [slot] at hslot
      omega
    simp [acquireLoop, PoolState.giveBack, hidle, hlt]
  case case10 => simp [acquireTop, hclosed]
  case case13 => split <;> simp
  all_goals simp_all

/-- A step on a closed pool whose slots are accounted for starts a connection
exactly when it is the return to the lock after a thrown away session. -/
lemma startsConnection_iff {maxSize : ℕ} {s : Sys T} (e : Event T)
    (hacc : Accounts maxSize s) (hclosed : s.pool.closed) (hidle : s.pool.idle = []) :
    StartsConnection s (step maxSize s e) ↔ RelocksClosed s e := by
  cases e with
  | acquire =>
    simp only [StartsConnection, RelocksClosed, step, reduceCtorEq, false_and, exists_false,
      and_false, iff_false, not_exists, not_and, ne_eq, not_not]
    intro i hi
    rw [getElem?_append] at hi
    split at hi
    · exact hi
    · rw [getElem?_singleton] at hi
      split at hi <;> simp at hi
  | close => simp [StartsConnection, RelocksClosed, step]
  | advance i answer =>
    cases ht : s.tasks[i]? with
    | none =>
      rw [step_advance_none ht]
      constructor
      · rintro ⟨j, h1, h2⟩
        exact absurd h1 h2
      · rintro ⟨-, j, expired, ⟨rfl, -⟩, hj⟩
        rw [ht] at hj
        cases hj
    | some t =>
      have hcnt := hacc.count
      have hslot := slot_le_total ht
      rw [step_advance ht]
      have hi : i < s.tasks.length := (List.getElem?_eq_some_iff.mp ht).1
      -- only the task that moves can enter `connect_for_pool`
      have hmoved : StartsConnection s ⟨(t.advance maxSize s.pool answer).1,
            s.tasks.set i (t.advance maxSize s.pool answer).2⟩
          ↔ t ≠ .connecting ∧ (t.advance maxSize s.pool answer).2 = .connecting := by
        constructor
        · rintro ⟨j, h1, h2⟩
          rw [getElem?_set] at h1
          split at h1
          · subst_vars
            rw [Option.some.injEq] at h1
            exact ⟨fun habs => h2 (by rw [ht, habs]), h1⟩
          · exact absurd h1 h2
        · rintro ⟨h1, h2⟩
          refine ⟨i, by rw [getElem?_set_self hi, h2], ?_⟩
          rw [ht]
          simpa using h1
      rw [hmoved]
      simp only [RelocksClosed, hclosed, true_and, Event.advance.injEq]
      constructor
      · rintro ⟨hne, hconn⟩
        obtain ⟨rfl, expired, rfl⟩ := (advance_connecting_iff answer hclosed hidle
          (by omega) hacc.bound hne).mp hconn
        exact ⟨i, expired, ⟨rfl, rfl⟩, ht⟩
      · rintro ⟨j, expired, ⟨rfl, rfl⟩, hj⟩
        rw [ht] at hj
        simp only [Option.some.injEq] at hj
        subst hj
        refine ⟨by simp, (advance_connecting_iff _ hclosed hidle (by omega)
          hacc.bound (by simp)).mpr ⟨rfl, expired, rfl⟩⟩

/-! ### Runs -/

/-- **After `close`.** No session is ever put back into a closed pool, and a run
starts no connection in a closed pool if and only if none of its steps is an
`acquire` that takes the lock of the closed pool after it threw away the idle
session it had popped. -/
theorem quietAfterClose_iff (requested : ℕ) (es : List (Event T)) :
    QuietAfterClose (poolMaxSize requested) es
      ↔ ∀ v ∈ visits (step (poolMaxSize requested)) (Sys.init T) es, ¬ RelocksClosed v.1 v.2 := by
  refine forall_congr' fun v => forall_congr' fun hv => ?_
  have hacc : Accounts (poolMaxSize requested) v.1 :=
    visits_invariant (fun _ e => step_accounts e) (init_accounts _) hv
  have hempty : ClosedEmpty v.1.pool :=
    visits_invariant (P := fun s => ClosedEmpty s.pool)
      (fun _ e => step_closedEmpty _ e) (fun _ => rfl) hv
  cases hclosed : v.1.pool.closed with
  | false => simp [RelocksClosed, hclosed]
  | true =>
    have hidle := hempty hclosed
    have hpush : ¬ PushesIdle v.1 (step (poolMaxSize requested) v.1 v.2) := by
      rw [PushesIdle, (step_closed _ v.2 hclosed hidle).2]
      simp
    rw [startsConnection_iff v.2 hacc hclosed hidle]
    exact ⟨fun h => (h rfl).1, fun h _ => ⟨h, hpush⟩⟩

/-- A session is opened, used and put back; a second `acquire` pops it, the pool
is closed, and the session turns out to be dead. -/
def closeDuringCheck : List (Event ℕ) :=
  [.acquire, .advance 0 (.locked false), .advance 0 (.connected (.ok 7)),
    .advance 0 (.begun (.ok ())), .advance 0 .drop, .advance 0 (.reset true true),
    .advance 0 (.locked false), .acquire, .advance 1 (.locked false), .close,
    .advance 1 (.checked false false), .advance 1 (.locked false)]

/-- The second `acquire` of `closeDuringCheck` starts a connection in the closed
pool. -/
theorem not_quietAfterClose : ¬ QuietAfterClose (poolMaxSize 4) closeDuringCheck := by
  intro h
  -- the state in which the second `acquire` comes back to the lock
  have hquiet := h (run (step (poolMaxSize 4)) (Sys.init ℕ) (closeDuringCheck.take 11),
    .advance 1 (.locked false))
    (by simp [closeDuringCheck, run]) (by decide)
  exact hquiet.1 ⟨1, by decide, by decide⟩

end SpaceQuery.Pool
