import SpaceQuery.Session.RetainedState

/-!
The session slot of a query tab, from `db/connection.rs`: `DbSessionLeaseSlot` and the calls that
put sessions in and take them out.

A slot holds at most one retained session. What a call does under the slot's lock is one definition
here (`file`, `takeMatching`, `takeReusable`, `takeEntry`), and the call itself is built from it.
Closing a session physically is recorded with the state that was known of it.
-/

namespace SpaceQuery.Lease

open Session (RetainedSessionState TransactionSessionState)

/-! ### Sessions and entries -/

inductive DatabaseType
  | oracle | mySQL | mariaDB
  deriving DecidableEq

/-- A physical session and the backend it belongs to. -/
structure DbSessionLease where
  session : ℕ
  dbType : DatabaseType
  deriving DecidableEq

def DbSessionLease.isDbType (lease : DbSessionLease) (expected : DatabaseType) : Bool :=
  lease.dbType == expected

/-- A retained session: the incarnation of the connection and the pool context it was taken
under, and what is known of it. -/
structure DbSessionLeaseEntry where
  connectionGeneration : ℕ
  poolContextEpoch : ℕ
  lease : DbSessionLease
  retainedState : RetainedSessionState
  currentScope : Option String
  deriving DecidableEq

namespace DbSessionLeaseEntry

variable (entry : DbSessionLeaseEntry)

def matchesConnection (connectionGeneration : ℕ) (dbType : DatabaseType) : Bool :=
  entry.connectionGeneration == connectionGeneration && entry.lease.isDbType dbType

def matchesContext (connectionGeneration poolContextEpoch : ℕ) (dbType : DatabaseType) : Bool :=
  entry.matchesConnection connectionGeneration dbType && entry.poolContextEpoch == poolContextEpoch

end DbSessionLeaseEntry

/-- The slot of a tab, and whether the tab is gone. -/
structure DbSessionLeaseSlot where
  entry : Option DbSessionLeaseEntry := none
  closed : Bool := false
  deriving DecidableEq

/-! ### Filing -/

/-- Which of two sessions stays. -/
inductive RetainedLeaseConflictResolution
  | keepExisting | replaceExisting | keepExistingRequiringDecision
  deriving DecidableEq

open RetainedLeaseConflictResolution in
def retainedLeaseConflictResolution (existing incoming : RetainedSessionState) :
    RetainedLeaseConflictResolution :=
  match existing.requiresPhysicalSessionPreservation,
    incoming.requiresPhysicalSessionPreservation with
  | false, true => replaceExisting
  | true, true => keepExistingRequiringDecision
  | _, _ => keepExisting

/-- Whether a slot takes a session. -/
inductive RetainedSessionFiling
  | allowed | refusedConnectionRetired | refusedOwnerGone
  deriving DecidableEq

def retainedSessionFiling (connectionIsRetired slotIsClosed : Bool) : RetainedSessionFiling :=
  if connectionIsRetired then .refusedConnectionRetired
  else if slotIsClosed then .refusedOwnerGone
  else .allowed

/-- The ledger of ended incarnations; generation zero is never connected and never ends. -/
def connectionGenerationIsRetired (retired : List ℕ) (connectionGeneration : ℕ) : Bool :=
  connectionGeneration ≠ 0 && retired.contains connectionGeneration

/-- What a filing leaves: the slot, the entry it had to make room, and whether the session is
in the slot. -/
structure Filed where
  slot : DbSessionLeaseSlot
  displaced : Option DbSessionLeaseEntry
  stored : Bool

namespace DbSessionLeaseSlot

variable (slot : DbSessionLeaseSlot)

def filingDecision (retired : List ℕ) (connectionGeneration : ℕ) : RetainedSessionFiling :=
  retainedSessionFiling (connectionGenerationIsRetired retired connectionGeneration) slot.closed

/-- The session becomes the tab's; what the slot held is displaced. -/
def store (incoming : DbSessionLeaseEntry) : Filed :=
  ⟨{ slot with entry := some incoming }, slot.entry, true⟩

/-- The session meets one of the same incarnation, pool context and backend. -/
def resolveConflict (existing incoming : DbSessionLeaseEntry) : Filed :=
  match retainedLeaseConflictResolution existing.retainedState incoming.retainedState with
  | .keepExisting => ⟨slot, none, false⟩
  | .replaceExisting => slot.store incoming
  | .keepExistingRequiringDecision =>
    let retainedState := (existing.retainedState.conservativeMerge incoming.retainedState)
      |>.withTransactionState .decisionRequired
    ⟨{ slot with entry := some { existing with retainedState } }, none, false⟩

/-- The lock section of `file_into_slot`. -/
def file (retired : List ℕ) (incoming : DbSessionLeaseEntry) : Filed :=
  if slot.filingDecision retired incoming.connectionGeneration ≠ .allowed then ⟨slot, none, false⟩
  else
    match slot.entry with
    | none => slot.store incoming
    | some existing =>
      if existing.connectionGeneration ≠ incoming.connectionGeneration ∨
          existing.poolContextEpoch ≠ incoming.poolContextEpoch ∨
          ¬ existing.lease.isDbType incoming.lease.dbType then
        slot.store incoming
      else slot.resolveConflict existing incoming

end DbSessionLeaseSlot

/-! ### Taking -/

/-- What a take leaves: the slot, the session that is taken, and an entry that has to be closed
since it is no use to the caller. -/
structure TakeSection where
  slot : DbSessionLeaseSlot
  taken : Option DbSessionLeaseEntry
  stale : Option DbSessionLeaseEntry

/-- Whether a session may change its pool. -/
inductive RetainedLeaseContextDecision
  | reusable | blockContextMismatch
  deriving DecidableEq

def retainedLeaseContextDecision (contextMatches : Bool) (retainedState : RetainedSessionState) :
    RetainedLeaseContextDecision :=
  if contextMatches || !retainedState.requiresPhysicalSessionPreservation then .reusable
  else .blockContextMismatch

namespace DbSessionLeaseSlot

variable (slot : DbSessionLeaseSlot)

/-- The lock section of `take_reusable_lease_matching_connection`. -/
def takeMatching (connectionGeneration : ℕ) (dbType : DatabaseType) : TakeSection :=
  match slot.entry with
  | none => ⟨slot, none, none⟩
  | some existing =>
    if existing.matchesConnection connectionGeneration dbType then
      ⟨{ slot with entry := none }, some existing, none⟩
    else ⟨{ slot with entry := none }, none, some existing⟩

/-- The lock section of `take_reusable_lease`: a session with work is not moved into another
pool context. -/
def takeReusable (connectionGeneration poolContextEpoch : ℕ) (dbType : DatabaseType) :
    TakeSection :=
  match slot.entry with
  | none => ⟨slot, none, none⟩
  | some existing =>
    if ¬ existing.matchesConnection connectionGeneration dbType then
      ⟨{ slot with entry := none }, none, some existing⟩
    else if retainedLeaseContextDecision
        (existing.matchesContext connectionGeneration poolContextEpoch dbType)
        existing.retainedState = .reusable then
      ⟨{ slot with entry := none }, some { existing with poolContextEpoch }, none⟩
    else ⟨slot, none, none⟩

/-- The lock section of `clear` and `clear_worker_session`. -/
def takeEntry : DbSessionLeaseSlot × Option DbSessionLeaseEntry :=
  ({ slot with entry := none }, slot.entry)

/-- The lock section of `close_for_owner_shutdown`. -/
def close : DbSessionLeaseSlot × Option DbSessionLeaseEntry := (⟨none, true⟩, slot.entry)

/-- The lock section of `take_entry_for_connection_generation`. -/
def takeGeneration (connectionGeneration : ℕ) : DbSessionLeaseSlot × Option DbSessionLeaseEntry :=
  if slot.entry.any (·.connectionGeneration == connectionGeneration) then slot.takeEntry
  else (slot, none)

end DbSessionLeaseSlot

/-! ### Calls -/

/-- A session that was closed physically, and the state known of it. -/
structure Closing where
  lease : DbSessionLease
  retainedState : RetainedSessionState
  deriving DecidableEq

def DbSessionLeaseEntry.discardPhysical (entry : DbSessionLeaseEntry) : Closing :=
  ⟨entry.lease, entry.retainedState⟩

/-- What a call does: the slot it leaves, its answer and the sessions it closed. -/
structure Outcome (α : Type*) where
  slot : DbSessionLeaseSlot
  answer : α
  closed : List Closing

/-- What to do with a session. -/
inductive RetainedSessionDisposition
  | retain (retainedState : RetainedSessionState)
  | discardPhysical (carried : RetainedSessionState)
  deriving DecidableEq

namespace RetainedSessionDisposition

def state : RetainedSessionDisposition → RetainedSessionState
  | retain retainedState | discardPhysical retainedState => retainedState

def carriedWork (disposition : RetainedSessionDisposition) : Bool :=
  disposition.state.mayHaveUncommittedWork

end RetainedSessionDisposition

/-- The execution that a call speaks for: the tab whose operation counter it reads, if it is
tracked, and its operation. -/
structure TabOperationOwnership where
  currentOperationId : Option ℕ
  operationId : ℕ
  deriving DecidableEq

namespace TabOperationOwnership

def isCurrent (ownership : TabOperationOwnership) (counters : ℕ → ℕ) : Bool :=
  match ownership.currentOperationId with
  | none => true
  | some tab => ownership.operationId == 0 || counters tab == ownership.operationId

end TabOperationOwnership

/-- The answer to a hand-back. -/
inductive SessionHandBack
  | applied (stored discardedWork : Bool)
  | abandoned (carriedWork : Bool)
  deriving DecidableEq

def SessionHandBack.lostWork : SessionHandBack → Bool
  | applied _ discardedWork => discardedWork
  | abandoned carriedWork => carriedWork

/-- The answer to a clear. -/
inductive WorkerSlotClear
  | cleared (carriedWork : Bool)
  | notOurs
  deriving DecidableEq

def WorkerSlotClear.carriedWork : WorkerSlotClear → Bool
  | cleared carriedWork => carriedWork
  | notOurs => false

/-- What filing a session did. -/
structure RetainedSessionStore where
  stored : Bool
  closedWork : Bool

section

variable (counters : ℕ → ℕ) (retired : List ℕ) (slot : DbSessionLeaseSlot)

def fileIntoSlot (incoming : DbSessionLeaseEntry) : Outcome RetainedSessionStore :=
  let filed := slot.file retired incoming
  { slot := filed.slot
    answer :=
      { stored := filed.stored
        closedWork := filed.displaced.any (·.retainedState.mayHaveUncommittedWork) }
    closed := filed.displaced.toList.map (·.discardPhysical)
      ++ if filed.stored then [] else [incoming.discardPhysical] }

def applyRetainedSessionDispositionWithScope (connectionGeneration poolContextEpoch : ℕ)
    (lease : DbSessionLease) (disposition : RetainedSessionDisposition)
    (currentScope : Option String) : Outcome RetainedSessionStore :=
  match disposition with
  | .retain retainedState => fileIntoSlot retired slot
      { connectionGeneration, poolContextEpoch, lease, retainedState, currentScope }
  | .discardPhysical carried =>
    ⟨slot, ⟨true, carried.mayHaveUncommittedWork⟩, [⟨lease, carried⟩]⟩

def handBackWorkerSession (owner : TabOperationOwnership) (connectionGeneration : ℕ)
    (poolContextEpoch : ℕ) (lease : DbSessionLease) (disposition : RetainedSessionDisposition)
    (currentScope : Option String) : Outcome SessionHandBack :=
  let carriedWork := disposition.carriedWork
  if !owner.isCurrent counters then
    ⟨slot, .abandoned carriedWork, [⟨lease, disposition.state⟩]⟩
  else
    let store := applyRetainedSessionDispositionWithScope retired slot connectionGeneration
      poolContextEpoch lease disposition currentScope
    { slot := store.slot
      answer := .applied store.answer.stored
        ((carriedWork && !store.answer.stored) || store.answer.closedWork)
      closed := store.closed }

def clearWorkerSession (owner : TabOperationOwnership) : Outcome WorkerSlotClear :=
  if !owner.isCurrent counters then ⟨slot, .notOurs, []⟩
  else
    let (slot, leaseToDrop) := slot.takeEntry
    { slot
      answer := .cleared (leaseToDrop.any (·.retainedState.mayHaveUncommittedWork))
      closed := leaseToDrop.toList.map (·.discardPhysical) }

/-- A session that was taken out of the slot; its lease is gone once something else has taken
it over. -/
structure TakenDbSessionLease where
  handBackOwner : TabOperationOwnership
  connectionGeneration : ℕ
  poolContextEpoch : ℕ
  lease : Option DbSessionLease
  retainedState : RetainedSessionState
  currentScope : Option String
  deriving DecidableEq

namespace TakenDbSessionLease

variable (taken : TakenDbSessionLease)

def handBack (poolContextEpoch : ℕ) (retainedState : RetainedSessionState)
    (currentScope : Option String) : Outcome SessionHandBack :=
  match taken.lease with
  | none => ⟨slot, .applied false false, []⟩
  | some lease => handBackWorkerSession counters retired slot taken.handBackOwner
      taken.connectionGeneration poolContextEpoch lease (.retain retainedState) currentScope

def restoreWithRetainedStateAndScope (retainedState : RetainedSessionState)
    (currentScope : Option String) : Outcome SessionHandBack :=
  taken.handBack counters retired slot taken.poolContextEpoch retainedState currentScope

def restoreWithRetainedState (retainedState : RetainedSessionState) : Outcome SessionHandBack :=
  taken.restoreWithRetainedStateAndScope counters retired slot retainedState taken.currentScope

def restore : Outcome SessionHandBack :=
  taken.restoreWithRetainedState counters retired slot taken.retainedState

def restoreIntoMovedPoolContext (poolContextEpoch : ℕ) (retainedState : RetainedSessionState) :
    Outcome SessionHandBack :=
  taken.handBack counters retired slot poolContextEpoch retainedState taken.currentScope

/-- Also what a lease that nobody took responsibility for does when it is dropped. -/
def discard : Outcome SessionHandBack :=
  match taken.lease with
  | none => ⟨slot, .applied false false, []⟩
  | some lease => handBackWorkerSession counters retired slot taken.handBackOwner
      taken.connectionGeneration taken.poolContextEpoch lease
      (.discardPhysical taken.retainedState) none

end TakenDbSessionLease

/-- The lease that a take hands out. -/
def DbSessionLeaseEntry.take (entry : DbSessionLeaseEntry) (owner : TabOperationOwnership) :
    TakenDbSessionLease where
  handBackOwner := owner
  connectionGeneration := entry.connectionGeneration
  poolContextEpoch := entry.poolContextEpoch
  lease := some entry.lease
  retainedState := entry.retainedState
  currentScope := entry.currentScope

/-- The answer to a take. -/
inductive RetainedLeaseTake
  | empty
  | taken (lease : TakenDbSessionLease)
  | unreachable (retainedState : RetainedSessionState)
  deriving DecidableEq

def RetainedLeaseTake.lostWork : RetainedLeaseTake → Bool
  | unreachable retainedState => retainedState.mayHaveUncommittedWork
  | empty | taken _ => false

/-- The answer to a take for reuse. -/
inductive RetainedSessionTakeOutcome
  | noSession
  | reusable (lease : TakenDbSessionLease)
  | discardedBecauseStale (retainedState : RetainedSessionState)
  | blockedContextMismatch (retainedState : RetainedSessionState)
  deriving DecidableEq

def RetainedSessionTakeOutcome.lostWork : RetainedSessionTakeOutcome → Bool
  | discardedBecauseStale retainedState => retainedState.mayHaveUncommittedWork
  | noSession | reusable _ | blockedContextMismatch _ => false

def takeReusableLeaseMatchingConnection (owner : TabOperationOwnership)
    (connectionGeneration : ℕ) (dbType : DatabaseType) : Outcome RetainedLeaseTake :=
  let took := slot.takeMatching connectionGeneration dbType
  { slot := took.slot
    answer :=
      match took.stale, took.taken with
      | some entry, _ => .unreachable entry.retainedState
      | none, some entry => .taken (entry.take owner)
      | none, none => .empty
    closed := took.stale.toList.map (·.discardPhysical) }

def takeReusableLeaseForContextUpdate := takeReusableLeaseMatchingConnection slot

def takeReusableLeaseForResolution := takeReusableLeaseMatchingConnection slot

def takeReusableLease (owner : TabOperationOwnership) (connectionGeneration : ℕ)
    (poolContextEpoch : ℕ) (dbType : DatabaseType) : Outcome RetainedSessionTakeOutcome :=
  let took := slot.takeReusable connectionGeneration poolContextEpoch dbType
  { slot := took.slot
    answer :=
      match took.stale, took.taken, took.slot.entry with
      | some entry, _, _ => .discardedBecauseStale entry.retainedState
      | none, some entry, _ => .reusable (entry.take owner)
      | none, none, some existing => .blockedContextMismatch existing.retainedState
      | none, none, none => .noSession
    closed := took.stale.toList.map (·.discardPhysical) }

end

/-! ### No work is lost in silence -/

/-- The calls that may close a session. -/
inductive Call
  | handBackWorkerSession (owner : TabOperationOwnership) (connectionGeneration : ℕ)
      (poolContextEpoch : ℕ) (lease : DbSessionLease) (disposition : RetainedSessionDisposition)
      (currentScope : Option String)
  | restore (taken : TakenDbSessionLease)
  | restoreWithRetainedState (taken : TakenDbSessionLease) (retainedState : RetainedSessionState)
  | restoreWithRetainedStateAndScope (taken : TakenDbSessionLease)
      (retainedState : RetainedSessionState) (currentScope : Option String)
  | restoreIntoMovedPoolContext (taken : TakenDbSessionLease) (poolContextEpoch : ℕ)
      (retainedState : RetainedSessionState)
  | discard (taken : TakenDbSessionLease)
  | clearWorkerSession (owner : TabOperationOwnership)
  | takeReusableLease (owner : TabOperationOwnership) (connectionGeneration : ℕ)
      (poolContextEpoch : ℕ) (dbType : DatabaseType)
  | takeReusableLeaseForContextUpdate (owner : TabOperationOwnership) (connectionGeneration : ℕ)
      (dbType : DatabaseType)
  | takeReusableLeaseForResolution (owner : TabOperationOwnership) (connectionGeneration : ℕ)
      (dbType : DatabaseType)

/-- The same outcome, with the answer reduced to what it reports. -/
def Outcome.report {α : Type*} (outcome : Outcome α) (lostWork : α → Bool) : Outcome Bool :=
  ⟨outcome.slot, lostWork outcome.answer, outcome.closed⟩

open SessionHandBack

variable (counters : ℕ → ℕ) (retired : List ℕ) (slot : DbSessionLeaseSlot)

/-- The call on a slot, with its report of lost work. -/
def Call.run : Call → Outcome Bool
  | handBackWorkerSession owner generation epoch lease disposition scope =>
    (Lease.handBackWorkerSession counters retired slot owner generation epoch lease disposition
      scope).report lostWork
  | restore taken => (taken.restore counters retired slot).report lostWork
  | restoreWithRetainedState taken state =>
    (taken.restoreWithRetainedState counters retired slot state).report lostWork
  | restoreWithRetainedStateAndScope taken state scope =>
    (taken.restoreWithRetainedStateAndScope counters retired slot state scope).report lostWork
  | restoreIntoMovedPoolContext taken epoch state =>
    (taken.restoreIntoMovedPoolContext counters retired slot epoch state).report lostWork
  | discard taken => (taken.discard counters retired slot).report lostWork
  | clearWorkerSession owner =>
    (Lease.clearWorkerSession counters slot owner).report WorkerSlotClear.carriedWork
  | takeReusableLease owner generation epoch dbType =>
    (Lease.takeReusableLease slot owner generation epoch dbType).report
      RetainedSessionTakeOutcome.lostWork
  | takeReusableLeaseForContextUpdate owner generation dbType =>
    (Lease.takeReusableLeaseForContextUpdate slot owner generation dbType).report
      RetainedLeaseTake.lostWork
  | takeReusableLeaseForResolution owner generation dbType =>
    (Lease.takeReusableLeaseForResolution slot owner generation dbType).report
      RetainedLeaseTake.lostWork

/-- A session that was closed may have had uncommitted work. -/
def ClosedWork (closed : List Closing) : Prop :=
  ∃ closing ∈ closed, closing.retainedState.mayHaveUncommittedWork = true

@[simp] lemma closedWork_nil : ¬ ClosedWork [] := by simp [ClosedWork]

@[simp] lemma closedWork_singleton (closing : Closing) :
    ClosedWork [closing] ↔ closing.retainedState.mayHaveUncommittedWork := by
  simp [ClosedWork]

lemma closedWork_append (closed closed' : List Closing) :
    ClosedWork (closed ++ closed') ↔ ClosedWork closed ∨ ClosedWork closed' := by
  simp only [ClosedWork, List.mem_append, or_and_right, exists_or]

/-- An entry that is closed is reported by the state that the slot recorded. -/
lemma closedWork_toList (entry : Option DbSessionLeaseEntry) :
    ClosedWork (entry.toList.map (·.discardPhysical)) ↔
      entry.any (·.retainedState.mayHaveUncommittedWork) := by
  cases entry with
  | none => simp
  | some entry => simp [DbSessionLeaseEntry.discardPhysical]

/-- The answer of a filing and the sessions it closed. -/
lemma closedWork_fileIntoSlot (incoming : DbSessionLeaseEntry) :
    let store := fileIntoSlot retired slot incoming
    ClosedWork store.closed ↔
      ((incoming.retainedState.mayHaveUncommittedWork && !store.answer.stored)
        || store.answer.closedWork) := by
  dsimp only [fileIntoSlot]
  rw [closedWork_append, closedWork_toList]
  cases (slot.file retired incoming).stored
  · simp [DbSessionLeaseEntry.discardPhysical, or_comm]
  · simp

lemma lostWork_handBackWorkerSession (owner : TabOperationOwnership) (generation epoch : ℕ)
    (lease : DbSessionLease) (disposition : RetainedSessionDisposition) (scope : Option String) :
    let outcome := handBackWorkerSession counters retired slot owner generation epoch lease
      disposition scope
    outcome.answer.lostWork ↔ ClosedWork outcome.closed := by
  dsimp only [handBackWorkerSession]
  split_ifs with howner
  · simp [lostWork, RetainedSessionDisposition.carriedWork]
  · cases disposition with
    | retain state =>
      exact (closedWork_fileIntoSlot retired slot ⟨generation, epoch, lease, state, scope⟩).symm
    | discardPhysical carried =>
      simp [applyRetainedSessionDispositionWithScope, lostWork]

lemma lostWork_handBack (taken : TakenDbSessionLease) (epoch : ℕ) (state : RetainedSessionState)
    (scope : Option String) :
    let outcome := taken.handBack counters retired slot epoch state scope
    outcome.answer.lostWork ↔ ClosedWork outcome.closed := by
  dsimp only [TakenDbSessionLease.handBack]
  cases taken.lease with
  | none => simp [lostWork]
  | some lease => exact lostWork_handBackWorkerSession ..

lemma lostWork_takeMatching (owner : TabOperationOwnership)
    (generation : ℕ) (dbType : DatabaseType) :
    let outcome := takeReusableLeaseMatchingConnection slot owner generation dbType
    outcome.answer.lostWork ↔ ClosedWork outcome.closed := by
  dsimp only [takeReusableLeaseMatchingConnection]
  rw [closedWork_toList]
  cases (slot.takeMatching generation dbType).stale with
  | some entry => simp [RetainedLeaseTake.lostWork]
  | none =>
    cases (slot.takeMatching generation dbType).taken <;> simp [RetainedLeaseTake.lostWork]

/-- The answer of every call reports lost work exactly when a session that the call closed may
have had uncommitted work. -/
theorem Call.lostWork_iff (counters : ℕ → ℕ) (retired : List ℕ) (slot : DbSessionLeaseSlot)
    (call : Call) :
    (call.run counters retired slot).answer = true ↔
      ∃ closing ∈ (call.run counters retired slot).closed,
        closing.retainedState.mayHaveUncommittedWork = true := by
  change _ ↔ ClosedWork _
  cases call with
  | handBackWorkerSession owner generation epoch lease disposition scope =>
    exact lostWork_handBackWorkerSession ..
  | restore taken | restoreWithRetainedState taken state => exact lostWork_handBack ..
  | restoreWithRetainedStateAndScope taken state scope => exact lostWork_handBack ..
  | restoreIntoMovedPoolContext taken epoch state => exact lostWork_handBack ..
  | discard taken =>
    dsimp only [run, Outcome.report, TakenDbSessionLease.discard]
    cases taken.lease with
    | none => simp [lostWork]
    | some lease => exact lostWork_handBackWorkerSession ..
  | clearWorkerSession owner =>
    dsimp only [run, Outcome.report, Lease.clearWorkerSession]
    split_ifs
    · simp [WorkerSlotClear.carriedWork]
    · exact (closedWork_toList _).symm
  | takeReusableLease owner generation epoch dbType =>
    dsimp only [run, Outcome.report, Lease.takeReusableLease]
    rw [closedWork_toList]
    cases (slot.takeReusable generation epoch dbType).stale with
    | some entry => simp [RetainedSessionTakeOutcome.lostWork]
    | none =>
      cases (slot.takeReusable generation epoch dbType).taken with
      | some entry => simp [RetainedSessionTakeOutcome.lostWork]
      | none =>
        cases (slot.takeReusable generation epoch dbType).slot.entry <;>
          simp [RetainedSessionTakeOutcome.lostWork]
  | takeReusableLeaseForContextUpdate owner generation dbType => exact lostWork_takeMatching ..
  | takeReusableLeaseForResolution owner generation dbType => exact lostWork_takeMatching ..

end SpaceQuery.Lease
