import SpaceQuery.Lib.Runs

/-!
The session pool of `tns-thin/src/pool.rs`: `OracleThinSessionPool::acquire`, `close`, and the
`Drop` of `PooledThinConnection`.

A use of the pool is a `Task`: an `acquire` call, then the connection it returned, then its drop.
The critical sections contain nothing that panics, so the mutex is never poisoned and the
`lock poisoned` returns of `acquire` are not modelled.
-/

namespace SpaceQuery.Pool

/-- `PoolState<T>`, the record the mutex guards. The front of `idle` is the
head of the list; `acquire` pops at the back. -/
structure PoolState (T : Type*) where
  idle : List T
  openCount : ℕ
  closed : Bool
  deriving DecidableEq

/-- The size bound `OracleThinSessionPool::new` keeps: at least one session. -/
def poolMaxSize (requested : ℕ) : ℕ := max requested 1

/-- The state `OracleThinSessionPool::new` starts from. -/
def PoolState.new (T : Type*) : PoolState T := ⟨[], 0, false⟩

/-- Where one use of the pool stands while it does not hold the lock. -/
inductive Task (T : Type*) where
  /-- `acquire` was called and waits for the lock. -/
  | entering
  /-- An idle session was popped; `is_healthy` and `begin_request_for_pool` run. -/
  | checking (conn : T)
  /-- That session was unusable and is dropped; the lock is taken again. -/
  | discarding
  /-- A slot was counted; `connect_for_pool` runs. -/
  | connecting
  /-- The connection stands; its `begin_request_for_pool` runs. -/
  | beginning (conn : T)
  /-- The new connection failed with `err`; the lock is taken again. -/
  | failing (err : String)
  /-- `acquire` waits on the condition variable. -/
  | waiting
  /-- `acquire` returned `Err`. -/
  | failed (err : String)
  /-- `acquire` returned `Ok`: the session is checked out. -/
  | held (conn : T) (discardOnDrop : Bool)
  /-- `drop` took the session; `is_healthy` and `reset_before_reuse` run. -/
  | resetting (conn : T) (discardOnDrop : Bool)
  /-- `drop` is to put the session back and waits for the lock. -/
  | returning (conn : T)
  /-- `drop` is to give the slot up and waits for the lock. -/
  | releasing
  /-- `drop` is over. -/
  | dropped
  deriving DecidableEq

/-- What a task meets on its way to its next release of the lock. -/
inductive Answer (T : Type*) where
  /-- The lock is granted; `expired` is the test `now >= deadline`. -/
  | locked (expired : Bool)
  /-- The results of `is_healthy` and of `begin_request_for_pool`. -/
  | checked (healthy begun : Bool)
  /-- The result of `connect_for_pool`. -/
  | connected (result : Except String T)
  /-- The result of `begin_request_for_pool` on a new connection. -/
  | begun (result : Except String Unit)
  /-- `wait_timeout` returned, on a notification, spuriously or by timeout. -/
  | woken (timedOut expired : Bool)
  /-- `discard` marks the connection before it is dropped. -/
  | discard
  /-- The connection goes out of scope. -/
  | drop
  /-- The results of `is_healthy` and of `reset_before_reuse`. -/
  | reset (healthy resetOk : Bool)

variable {T : Type*}

def poolClosed : String := "Oracle thin pool is closed"

def poolTimedOut : String := "timed out waiting for a pooled Oracle thin connection"

variable (maxSize : ℕ) (pool : PoolState T)

/-- `acquire` from the inner loop on: pop an idle session, else open a
connection while the bound allows it, else wait or give up. -/
def acquireLoop (expired : Bool) : PoolState T × Task T :=
  match pool.idle.getLast? with
  | some conn => ({ pool with idle := pool.idle.dropLast }, .checking conn)
  | none =>
    if pool.openCount < maxSize then
      ({ pool with openCount := pool.openCount + 1 }, .connecting)
    else (pool, if expired then .failed poolTimedOut else .waiting)

/-- `acquire` from the top of its outer loop, the only place it tests
`closed`. -/
def acquireTop (expired : Bool) : PoolState T × Task T :=
  if pool.closed then (pool, .failed poolClosed) else acquireLoop maxSize pool expired

/-- `open_count = open_count.saturating_sub(n)`. -/
def PoolState.giveBack (n : ℕ) : PoolState T :=
  { pool with openCount := pool.openCount - n }

/-- One stretch of a task, from one release of the lock to the next. An answer
the task does not wait for leaves everything as it is. -/
def Task.advance : Task T → Answer T → PoolState T × Task T
  | .entering, .locked expired => acquireTop maxSize pool expired
  | .checking conn, .checked healthy begun =>
    (pool, if healthy && begun then .held conn false else .discarding)
  -- the inner loop goes on after the decrement, past the test of `closed`
  | .discarding, .locked expired => acquireLoop maxSize (pool.giveBack 1) expired
  | .connecting, .connected (.ok conn) => (pool, .beginning conn)
  | .connecting, .connected (.error err) => (pool, .failing err)
  | .beginning conn, .begun (.ok ()) => (pool, .held conn false)
  | .beginning _, .begun (.error err) => (pool, .failing err)
  | .failing err, .locked _ => (pool.giveBack 1, .failed err)
  | .waiting, .woken timedOut expired =>
    if timedOut then (pool, .failed poolTimedOut) else acquireTop maxSize pool expired
  | .held conn _, .discard => (pool, .held conn true)
  | .held conn discardOnDrop, .drop => (pool, .resetting conn discardOnDrop)
  | .resetting conn discardOnDrop, .reset healthy resetOk =>
    (pool, if !discardOnDrop && healthy && resetOk then .returning conn else .releasing)
  | .returning conn, .locked _ =>
    if pool.closed then (pool, .releasing)
    else ({ pool with idle := pool.idle ++ [conn] }, .dropped)
  | .releasing, .locked _ => (pool.giveBack 1, .dropped)
  | t, _ => (pool, t)

/-- The critical section of `close`. -/
def PoolState.close : PoolState T :=
  { idle := [], openCount := pool.openCount - pool.idle.length, closed := true }

/-- The pool with the tasks of all threads. -/
structure Sys (T : Type*) where
  pool : PoolState T
  tasks : List (Task T)
  deriving DecidableEq

/-- One step of some thread. -/
inductive Event (T : Type*) where
  | acquire
  | advance (i : ℕ) (answer : Answer T)
  | close

/-- A new pool that nobody uses yet. -/
def Sys.init (T : Type*) : Sys T := ⟨PoolState.new T, []⟩

/-- One step of the system; a task that does not exist takes none. -/
def step (s : Sys T) : Event T → Sys T
  | .acquire => { s with tasks := s.tasks ++ [.entering] }
  | .advance i answer =>
    match s.tasks[i]? with
    | some t =>
      let (pool, t') := t.advance maxSize s.pool answer
      ⟨pool, s.tasks.set i t'⟩
    | none => s
  | .close => { s with pool := s.pool.close }

lemma step_advance {maxSize : ℕ} {s : Sys T} {i : ℕ} {t : Task T} (h : s.tasks[i]? = some t)
    (answer : Answer T) :
    step maxSize s (.advance i answer) = ⟨(t.advance maxSize s.pool answer).1,
          s.tasks.set i (t.advance maxSize s.pool answer).2⟩ := by
  simp only [step, h]

lemma step_advance_none {maxSize : ℕ} {s : Sys T} {i : ℕ} (h : s.tasks[i]? = none)
    (answer : Answer T) : step maxSize s (.advance i answer) = s := by
  simp only [step, h]

end SpaceQuery.Pool
