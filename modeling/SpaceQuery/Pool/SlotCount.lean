import SpaceQuery.Lib.Tally
import SpaceQuery.Pool.SessionPool

/-!
The slot count of the session pool: in every reachable state `open_count` is the number of idle
sessions, of sessions checked out, and of `acquire` and `drop` calls in progress that own a slot.
-/

namespace SpaceQuery.Pool

open List

variable {T : Type*}

/-! ### Slots of a task -/

open Pool.Task

/-- A session is checked out. -/
@[simp] def Task.checkedOut : Task T → ℕ
  | .held _ _ => 1
  | _ => 0

/-- The slot of an `acquire` in progress. -/
@[simp] def Task.acquiring : Task T → ℕ
  | .checking _ | .discarding | .connecting | .beginning _ | .failing _ => 1
  | _ => 0

/-- The slot of a `drop` in progress. -/
@[simp] def Task.dropping : Task T → ℕ
  | .resetting _ _ | .returning _ | .releasing => 1
  | _ => 0

/-- The slots a task owns. -/
def Task.slot (t : Task T) : ℕ := t.checkedOut + t.acquiring + t.dropping

/-- The sum of a weight over the tasks of the system. -/
def Sys.total (s : Sys T) (weight : Task T → ℕ) : ℕ := Tally.total weight s.tasks

/-- The argument of the `saturating_sub` on `open_count` that a step performs,
`0` for a step that performs none. -/
def Sys.subtracted (s : Sys T) : Event T → ℕ
  | .advance i (.locked _) =>
    match s.tasks[i]? with
    | some .discarding => 1
    | some (.failing _) => 1
    | some .releasing => 1
    | _ => 0
  | .close => s.pool.idle.length
  | _ => 0

/-! ### One stretch of a task -/

lemma length_dropLast_of_getLast? {l : List T} {a : T} (h : l.getLast? = some a) :
    l.dropLast.length + 1 = l.length := by
  cases l with
  | nil => simp at h
  | cons b l => simp

/-- The inner loop of `acquire` takes a slot from the idle sessions or from
`open_count`, or takes none. -/
lemma acquireLoop_slots (maxSize : ℕ) (pool : PoolState T) (expired : Bool) :
    (acquireLoop maxSize pool expired).1.openCount + pool.idle.length
      = pool.openCount + (acquireLoop maxSize pool expired).1.idle.length
        + (acquireLoop maxSize pool expired).2.slot := by
  rw [acquireLoop]
  split
  · have hlen := length_dropLast_of_getLast? ‹_›
    simp only [Task.slot, Task.checkedOut, Task.acquiring, Task.dropping]
    omega
  · split
    · simp only [Task.slot, Task.checkedOut, Task.acquiring, Task.dropping]
      omega
    · cases expired <;> simp [Task.slot]

lemma acquireTop_slots (maxSize : ℕ) (pool : PoolState T) (expired : Bool) :
    (acquireTop maxSize pool expired).1.openCount + pool.idle.length
      = pool.openCount + (acquireTop maxSize pool expired).1.idle.length
        + (acquireTop maxSize pool expired).2.slot := by
  rw [acquireTop]
  split
  · simp [Task.slot]
  · exact acquireLoop_slots maxSize pool expired

open PoolState

/-- One stretch of a task neither loses nor makes up a slot, as long as
`open_count` covers the slot the task owns. -/
theorem advance_slots (maxSize : ℕ) (pool : PoolState T) (t : Task T) (answer : Answer T)
    (h : t.slot ≤ pool.openCount) :
    (t.advance maxSize pool answer).1.openCount + pool.idle.length + t.slot
      = pool.openCount + (t.advance maxSize pool answer).1.idle.length
        + (t.advance maxSize pool answer).2.slot := by
  fun_cases Task.advance maxSize pool t answer
  case case1 expired => exact acquireTop_slots maxSize pool expired
  case case2 healthy begun =>
    split <;> simp [Task.slot]
  case case3 expired =>
    -- the slot of the dropped session goes back before the loop goes on
    have hloop := acquireLoop_slots maxSize (pool.giveBack 1) expired
    simp [giveBack, Task.slot] at h hloop ⊢
    omega
  case case10 => exact acquireTop_slots maxSize pool _
  case case13 => split <;> simp [Task.slot]
  all_goals
    simp only [giveBack, Task.slot, Task.checkedOut, Task.acquiring,
      Task.dropping, length_append, length_singleton] at h ⊢
  all_goals omega

variable {pool : PoolState T} {maxSize : ℕ}

/-- The inner loop of `acquire` takes a new slot only below the bound. -/
lemma acquireLoop_le_maxSize (expired : Bool) (h : pool.openCount ≤ maxSize) :
    (acquireLoop maxSize pool expired).1.openCount ≤ maxSize := by
  rw [acquireLoop]
  split
  · exact h
  · split
    · simp only
      omega
    · exact h

lemma acquireTop_le_maxSize (expired : Bool) (h : pool.openCount ≤ maxSize) :
    (acquireTop maxSize pool expired).1.openCount ≤ maxSize := by
  rw [acquireTop]
  split
  · exact h
  · exact acquireLoop_le_maxSize expired h

lemma advance_le_maxSize (t : Task T) (answer : Answer T) (h : pool.openCount ≤ maxSize) :
    (t.advance maxSize pool answer).1.openCount ≤ maxSize := by
  fun_cases advance maxSize pool t answer
  case case1 expired => exact acquireTop_le_maxSize expired h
  case case3 expired =>
    refine acquireLoop_le_maxSize expired ?_
    simp only [giveBack]
    omega
  case case10 => exact acquireTop_le_maxSize _ h
  all_goals
    simp only [giveBack]
    omega

/-! ### The invariant -/

/-- What holds in every reachable state: the slots are accounted for and the
bound is kept. -/
structure Accounts (maxSize : ℕ) (s : Sys T) : Prop where
  count : s.pool.openCount = s.pool.idle.length + s.total slot
  bound : s.pool.openCount ≤ maxSize

variable {s : Sys T}

lemma slot_le_total {i : ℕ} {t : Task T} (h : s.tasks[i]? = some t) : t.slot ≤ s.total slot :=
  Tally.le_total slot (mem_of_getElem? h)

lemma init_accounts (maxSize : ℕ) : Accounts maxSize (Sys.init T) :=
  ⟨rfl, Nat.zero_le _⟩

/-- Every step keeps the accounts. -/
theorem step_accounts (e : Event T) (h : Accounts maxSize s) :
    Accounts maxSize (step maxSize s e) := by
  cases e with
  | acquire =>
    refine ⟨?_, h.bound⟩
    have hcnt := h.count
    simpa [step, Sys.total, Tally.total_append, Task.slot] using hcnt
  | advance i answer =>
    cases ht : s.tasks[i]? with
    | none =>
      rw [step_advance_none ht]
      exact h
    | some t =>
      rw [step_advance ht]
      have hcnt := h.count
      have hslot := slot_le_total ht
      have hadv := advance_slots maxSize s.pool t answer (by omega)
      have hset := Tally.total_set_add slot ht (t.advance maxSize s.pool answer).2
      refine ⟨?_, advance_le_maxSize t answer h.bound⟩
      simp only [Sys.total] at hcnt hslot ⊢
      omega
  | close =>
    have hcnt := h.count
    have hbound := h.bound
    refine ⟨?_, ?_⟩
    · simp only [step, close, Sys.total, length_nil] at hcnt ⊢
      omega
    · simp only [step, close]
      omega

/-- In a state whose slots are accounted for no `saturating_sub` saturates. -/
lemma Accounts.subtracted_le (h : Accounts maxSize s) (e : Event T) :
    s.subtracted e ≤ s.pool.openCount := by
  have hcnt := h.count
  fun_cases Sys.subtracted s e
  case case1 ht | case2 ht | case3 ht =>
    have := slot_le_total ht
    simp [Task.slot] at this
    omega
  all_goals omega

lemma Sys.total_slot (s : Sys T) : s.total slot
      = s.total checkedOut + s.total acquiring + s.total dropping := by
  simp only [Sys.total]
  induction s.tasks with
  | nil => rfl
  | cons t ts ih =>
    simp only [Tally.total_cons, Task.slot] at ih ⊢
    omega

/-- **The slot count.** Whatever the threads do and in whatever order, in every
state reached `open_count` is the number of idle sessions plus the sessions
checked out plus the `acquire` and `drop` calls that own a slot, it is at most
the bound of the pool, and the `saturating_sub` of no possible next step
saturates. -/
theorem openCount_accounts (requested : ℕ) (es : List (Event T)) :
    let s := Runs.run (step (poolMaxSize requested)) (Sys.init T) es
    s.pool.openCount = s.pool.idle.length + s.total checkedOut
        + s.total acquiring + s.total dropping
      ∧ s.pool.openCount ≤ poolMaxSize requested
      ∧ ∀ e, s.subtracted e ≤ s.pool.openCount := by
  intro s
  have hacc : Accounts (poolMaxSize requested) s :=
    Runs.run_invariant (fun _ e => step_accounts e) (init_accounts _) es
  refine ⟨?_, hacc.bound, hacc.subtracted_le⟩
  have hcount := hacc.count
  rw [s.total_slot] at hcount
  omega

/-! ### Sessions -/

variable [DecidableEq T] (c : T)

/-- How often a task has a session. -/
def Task.copies : Task T → ℕ
  | .checking conn | .beginning conn | .held conn _ | .resetting conn _ | .returning conn =>
    [conn].count c
  | _ => 0

/-- How often a session is idle or with a task. -/
def Sys.copies (s : Sys T) : ℕ := s.pool.idle.count c + s.total (Task.copies c)

/-- `connect_for_pool` returns the session. -/
def Event.connects : Event T → Bool
  | .advance _ (.connected (.ok conn)) => conn = c
  | _ => false

lemma acquireLoop_copies (pool : PoolState T) (expired : Bool) :
    let r := acquireLoop maxSize pool expired
    r.1.idle.count c + r.2.copies c ≤ pool.idle.count c := by
  rw [acquireLoop]
  split
  · next conn hlast =>
    obtain ⟨idle, hidle⟩ := getLast?_eq_some_iff.mp hlast
    simp [hidle, Task.copies]
  · split_ifs <;> simp [Task.copies]

lemma acquireTop_copies (pool : PoolState T) (expired : Bool) :
    let r := acquireTop maxSize pool expired
    r.1.idle.count c + r.2.copies c ≤ pool.idle.count c := by
  rw [acquireTop]
  split
  · simp [Task.copies]
  · exact acquireLoop_copies c pool expired

/-- One stretch of a task hands a session on or lets it go. -/
lemma advance_copies (t : Task T) (i : ℕ) (answer : Answer T) :
    let r := t.advance maxSize pool answer
    r.1.idle.count c + r.2.copies c ≤ pool.idle.count c + t.copies c
      + if (Event.advance i answer).connects c then 1 else 0 := by
  fun_cases advance maxSize pool t answer
  case case1 => exact Nat.le_add_right_of_le (acquireTop_copies c pool _)
  case case3 => exact Nat.le_add_right_of_le (acquireLoop_copies c (pool.giveBack 1) _)
  case case10 => exact Nat.le_add_right_of_le (acquireTop_copies c pool _)
  all_goals
    simp only [Task.copies, Event.connects, giveBack, count_append]
    grind

/-- **No session is in two places.** Whatever the threads do, a session is idle or with a task
no more often than before, except for the times `connect_for_pool` returned it; so what is
connected once is lent to one task at a time, and what is let go does not come back. -/
theorem copies_run_le (s : Sys T) (es : List (Event T)) :
    (Runs.run (step maxSize) s es).copies c ≤ s.copies c + es.countP (Event.connects c) := by
  induction es generalizing s with
  | nil => exact le_rfl
  | cons e es ih =>
    have hstep : (step maxSize s e).copies c ≤ s.copies c + if e.connects c then 1 else 0 := by
      cases e with
      | acquire => simp [step, Sys.copies, Sys.total, Tally.total_append, Task.copies]
      | close =>
        simp only [step, Sys.copies, close, Sys.total, count_nil]
        omega
      | advance i answer =>
        cases ht : s.tasks[i]? with
        | none => simp [step_advance_none ht]
        | some t =>
          have hadv := @advance_copies _ s.pool maxSize _ c t i answer
          have hset := Tally.total_set_add (Task.copies c) ht (t.advance maxSize s.pool answer).2
          rw [step_advance ht]
          simp only [Sys.copies, Sys.total]
          omega
    have hrun := ih (step maxSize s e)
    rw [Runs.run_cons, countP_cons]
    omega

end SpaceQuery.Pool
