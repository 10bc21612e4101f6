import SpaceQuery.Lib.Latch
import SpaceQuery.Session.FailedStatements

/-!
What an interrupted batch keeps of the session, and what it reports about it.
-/

namespace SpaceQuery.Session

open Runs Latch BatchPriorTransactionEffect

open Bool hiding not_or

variable {events : List (StatementResult × Statement)}

/-! ### Statements that end or leave work -/

namespace Statement

variable (statement : Statement)

/-- A successful statement ends a transaction: `COMMIT`, `ROLLBACK`, an implicit commit, a
clear of the session's state, a release of table locks or of the session. -/
def endsTransaction : Bool :=
  statement.controlOutcome = .clean || statement.controlOutcome = .releasesSession
    || statement.effectsInContext.transaction.hasImplicitCommit
    || statement.effectsInContext.stateHint.clearsSessionState
    || statement.effectsInContext.tableLock = .releases
    || statement.effectsInContext.transaction.releasesPhysicalSession

/-- A statement that ran with auto-commit off leaves work, on the session that it keeps. -/
def leavesWork : Bool :=
  !statement.autoCommit && statement.effectsInContext.transaction.mayLeaveUncommittedWork
    && !statement.effectsInContext.stateHint.clearsSessionState
    && !statement.effectsInContext.transaction.releasesPhysicalSession

end Statement

/-- The event is a successful statement that ends a transaction. -/
def endsWork (event : StatementResult × Statement) : Bool :=
  event.1 = .successful && event.2.endsTransaction

/-- The event is a successful statement that leaves work. -/
def leavesWork (event : StatementResult × Statement) : Bool :=
  event.1 = .successful && event.2.leavesWork

/-- There is work in a transaction, of the state before the batch or of a statement of it,
and no later statement ended a transaction. -/
def WorkPending (p : RetainedSessionState) (events : List (StatementResult × Statement)) : Prop :=
  (p.mayHaveUncommittedWork ∧ ∀ event ∈ events, ¬ endsWork event) ∨
    SetForGood endsWork leavesWork events

namespace BatchTransaction

variable (t : BatchTransaction) (p : RetainedSessionState)

/-- The transaction counts some work, of the batch or before it. -/
@[simp] def carriesWork : Bool := t.leavesWork p || t.leavesPriorWork p

/-- The transaction behind a failed statement with an implicit commit. -/
def deferred : BatchTransaction :=
  ⟨false, false, t.priorTransactionEffect.tentativelyCleared⟩

/-- The work that the transaction counts is not counted by the batch alone: the batch has no
claim of its own, or the work before the batch is still there, or it is settled what a
release of a table lock left. -/
def claimsNoWorkAlone : Bool :=
  !t.mayHaveUncommittedWork || t.leavesPriorWork p
    || ((t.priorTransactionEffect matches .clearIfPriorTableLock _)
      && p.lockState.mayHoldTableLock)

variable {t p}

lemma carriesWork_dirty : t.dirty.carriesWork p := by
  simp [leavesWork_dirty]

lemma carriesWork_started : t.started.carriesWork p := by
  simp [leavesWork_started]

/-- Withdrawing the claim of the batch loses no work that is counted elsewhere. -/
lemma carriesWork_deferred (hwork : t.carriesWork p) (hclaims : t.claimsNoWorkAlone p) :
    t.deferred.carriesWork p ∧ t.dirty.deferred.carriesWork p := by
  obtain ⟨m, r, _ | _ | _ | after⟩ := t <;>
    cases hlock : p.lockState.mayHoldTableLock <;>
    cases hp : p.mayHaveUncommittedWork <;>
    cases m <;>
    simp_all [claimsNoWorkAlone, leavesWork, leavesPriorWork, deferred, dirty,
      mayHaveUncommittedWorkAfterBatch, clearsPriorConfirmed, clearsPrior, tentativelyCleared,
      withDirtyWorkAfterConditionalClear]

lemma carriesWork_afterHint (hint : TransactionStatementStateHint) (confirmed : Bool) :
    (t.afterHint hint confirmed).carriesWork p = t.carriesWork p := by
  unfold afterHint
  split_ifs <;> rfl

/-- A successful statement that ends no transaction keeps the work. -/
lemma carriesWork_afterStatement_of_not_ends {statement : Statement}
    (h : statement.endsTransaction = false) (known : Bool) (hwork : t.carriesWork p) :
    (t.afterStatement known statement true).carriesWork p := by
  simp only [Statement.endsTransaction, or_eq_false_iff, decide_eq_false_iff_not] at h
  obtain ⟨⟨⟨⟨⟨hclean, hrel⟩, -⟩, hclears⟩, hlock⟩, -⟩ := h
  have hhint := carriesWork_afterHint (t := t) (p := p) statement.effectsInContext.stateHint true
  rw [hwork] at hhint
  simp only [afterStatement, afterTableLock, hlock, decide_false, Bool.and_false,
    Bool.false_eq_true, if_false, afterEffects, hclears]
  generalize t.afterHint statement.effectsInContext.stateHint true = t₁ at hhint ⊢
  have houtcome : (t₁.afterControlOutcome statement.controlOutcome true).carriesWork p := by
    cases ho : statement.controlOutcome with
    | notTransactionControl | preservesTransaction => exact hhint
    | clean => exact absurd ho hclean
    | releasesSession => exact absurd ho hrel
    | startsTransaction => exact carriesWork_started
    | requiresDecision => exact carriesWork_dirty
  split_ifs
  · exact carriesWork_dirty
  · exact houtcome

/-- A statement that leaves work is the last to touch the transaction. -/
lemma carriesWork_afterStatement_of_leavesWork {statement : Statement}
    (h : statement.leavesWork) (known : Bool) :
    (t.afterStatement known statement true).carriesWork p := by
  simp only [Statement.leavesWork, and_eq_true, not_eq_true'] at h
  obtain ⟨⟨⟨hauto, hleaves⟩, hclears⟩, -⟩ := h
  simp only [afterStatement, afterEffects, hclears, hauto, hleaves]
  simpa using carriesWork_dirty

end BatchTransaction

namespace MySqlBatchSessionEffects

variable {b : MySqlBatchSessionEffects} {p : RetainedSessionState}

/-! ### Work is retained -/

/-- The batch counts work on the session that it keeps. -/
structure Carries (b : MySqlBatchSessionEffects) (p : RetainedSessionState) : Prop where
  kept : b.physicalSessionReleased = false
  work : b.transaction.carriesWork p

/-- A step of a batch that withdraws no work: a failed statement with an implicit commit
starts no transaction and comes where the batch does not count work alone. -/
def WithdrawsNothing (p : RetainedSessionState) (b : MySqlBatchSessionEffects)
    (event : StatementResult × Statement) : Prop :=
  event.1 = .failed → event.2.effectsInContext.transaction.hasImplicitCommit →
    event.2.controlOutcome ≠ .startsTransaction ∧ b.transaction.claimsNoWorkAlone p

/-- The transaction behind a statement that keeps the session. -/
lemma transaction_applyStatementEffects {statement : Statement} {confirmed : Bool}
    (h : (confirmed && statement.effectsInContext.transaction.releasesPhysicalSession) = false) :
    (b.applyStatementEffects statement confirmed).physicalSessionReleased = false ∧
      (b.applyStatementEffects statement confirmed).transaction =
        b.fresh.transaction.afterStatement (b.fresh.tableLockDelta = .mayHold) statement
          confirmed := by
  rw [b.applyStatementEffects_of_kept h, applyKeptSession_eq]
  exact ⟨b.fresh_physicalSessionReleased, rfl⟩

open BatchTransaction

lemma Carries.unconfirmed (h : b.Carries p) (statement : Statement) :
    (b.applyStatementEffects statement false).Carries p := by
  refine ⟨(transaction_applyStatementEffects rfl).1, ?_⟩
  rw [transaction_applyStatementEffects_false, b.fresh_of_not_released h.kept]
  split_ifs
  · exact carriesWork_started
  · exact carriesWork_dirty
  · exact h.work

lemma Carries.failed (h : b.Carries p) {statement : Statement}
    (hstep : WithdrawsNothing p b (.failed, statement)) :
    (b.applyFailedStatementEffects statement).Carries p := by
  rw [applyFailedStatementEffects_eq]
  split_ifs with hcommit
  · obtain ⟨hstarts, hclaims⟩ := hstep rfl hcommit
    obtain ⟨hsame, hdirty⟩ := carriesWork_deferred h.work hclaims
    refine ⟨(h.unconfirmed statement).kept, ?_⟩
    have hafter := b.transaction_applyStatementEffects_false statement
    rw [if_neg hstarts, b.fresh_of_not_released h.kept] at hafter
    change (b.applyStatementEffects statement false).transaction.deferred.carriesWork p
    rw [hafter]
    split_ifs
    · exact hdirty
    · exact hsame
  · exact h.unconfirmed statement

lemma Carries.interrupted (h : b.Carries p) (statement : Statement) :
    (b.applyInterruptedStatementEffects statement).Carries p := by
  unfold applyInterruptedStatementEffects
  obtain ⟨hkept, hwork⟩ := h.unconfirmed statement
  split_ifs
  · exact ⟨hkept, hwork⟩
  · exact ⟨hkept, hwork⟩

/-- One step keeps the work, or leaves it. -/
lemma carries_apply {event : StatementResult × Statement} (hstep : WithdrawsNothing p b event)
    (hwork : (b.Carries p ∧ ¬ endsWork event) ∨ leavesWork event) : (b.apply event).Carries p := by
  obtain ⟨result, statement⟩ := event
  cases result with
  | failed =>
    obtain ⟨hb, -⟩ := hwork.resolve_right (by simp [leavesWork])
    exact hb.failed hstep
  | interrupted =>
    obtain ⟨hb, -⟩ := hwork.resolve_right (by simp [leavesWork])
    exact hb.interrupted statement
  | successful =>
    have hkeeps : statement.effectsInContext.transaction.releasesPhysicalSession = false := by
      rcases hwork with ⟨-, hends⟩ | hleaves
      · simp only [endsWork, Statement.endsTransaction] at hends
        simp_all
      · simp only [leavesWork, Statement.leavesWork] at hleaves
        simp_all
    obtain ⟨hkept, hafter⟩ :=
      @transaction_applyStatementEffects b statement true (by simpa using hkeeps)
    refine ⟨hkept, ?_⟩
    change (b.applyStatementEffects statement true).transaction.carriesWork p
    rw [hafter]
    rcases hwork with ⟨hb, hends⟩ | hleaves
    · rw [b.fresh_of_not_released hb.kept]
      exact carriesWork_afterStatement_of_not_ends (by simpa [endsWork] using hends) _ hb.work
    · exact carriesWork_afterStatement_of_leavesWork
        (by simpa [leavesWork] using hleaves) _

/-- A run keeps the work that is pending. -/
lemma carries_run (hsteps : ∀ v ∈ visits apply b events, WithdrawsNothing p v.1 v.2)
    (hwork : (b.Carries p ∧ ∀ event ∈ events, ¬ endsWork event) ∨
      SetForGood endsWork leavesWork events) : (run apply b events).Carries p := by
  induction events generalizing b with
  | nil =>
    rcases hwork with ⟨hb, -⟩ | ⟨front, e, back, heq, -⟩
    · exact hb
    · simp at heq
  | cons event events ih =>
    simp only [visits_cons, List.forall_mem_cons] at hsteps
    refine ih hsteps.2 ?_
    rw [setForGood_cons, List.forall_mem_cons] at hwork
    rcases hwork with ⟨hb, hends, hevents⟩ | ⟨hleaves, hevents⟩ | hgood
    · exact .inl ⟨carries_apply hsteps.1 (.inl ⟨hb, hends⟩), hevents⟩
    · exact .inl ⟨carries_apply hsteps.1 (.inr hleaves), hevents⟩
    · exact .inr hgood

open RetainedSessionState

/-- The state that is computed reports the work that the batch counts, or a decision that it
owes. -/
lemma mayHaveUncommittedWork_stateAfterInterruptedBatch
    (hp : p.transactionState ≠ .invalidSession) :
    (b.stateAfterInterruptedBatch p).mayHaveUncommittedWork =
      (b.transaction.carriesWork p || b.requiresTransactionDecisionAfterSuccess) := by
  have hprior : ∀ t : BatchTransaction, ¬ t.leavesPriorWork p → ¬ t.leavesPriorDecision p ∧
        ¬ (t.priorTransactionEffect.clearIsTentative
          && p.transactionState.requiresTransactionDecision) := by
    intro t
    obtain ⟨m, r, e⟩ := t
    simp only [leavesPriorWork, leavesPriorDecision, RetainedSessionState.mayHaveUncommittedWork]
    cases e <;> cases p.transactionState <;>
      simp [clearsPriorConfirmed, clearsPrior, clearIsTentative,
        TransactionSessionState.mayHaveUncommittedWork,
        TransactionSessionState.requiresTransactionDecision]
  change (b.transactionStateAfterInterruptedBatch p).mayHaveUncommittedWork =
    (b.transaction.carriesWork p || b.transaction.requiresTransactionDecisionAfterSuccess)
  rw [transactionStateAfterInterruptedBatch_eq, if_neg hp]
  by_cases hwork : b.transaction.leavesPriorWork p
  · have hcarries : b.transaction.carriesWork p := by
      simp [hwork]
    have hdirty : p.transactionState.mayHaveUncommittedWork := by
      simp only [leavesPriorWork, and_eq_true] at hwork
      exact hwork.2
    rw [hcarries]
    split_ifs
    · rfl
    · exact hdirty
  · obtain ⟨hdecision, htentative⟩ := hprior _ hwork
    simp only [owesDecisionAfterInterrupt, carriesWork,
      eq_false_of_not_eq_true hwork, eq_false_of_not_eq_true hdecision,
      Bool.eq_false_of_not_eq_true htentative, Bool.and_false]
    cases b.transaction.leavesWork p <;>
      cases b.transaction.requiresTransactionDecisionAfterSuccess <;> rfl

lemma transactionState_stateAfterInterruptedBatch_ne (hp : p.transactionState ≠ .invalidSession) :
    (b.stateAfterInterruptedBatch p).transactionState ≠ .invalidSession := by
  change b.transactionStateAfterInterruptedBatch p ≠ _
  rw [transactionStateAfterInterruptedBatch_eq, if_neg hp]
  split_ifs <;> simp [hp]

/-- A session with work on it that the batch keeps is retained. -/
lemma retains_of_mayHaveUncommittedWork (hkept : b.physicalSessionReleased = false)
    (hp : p.transactionState ≠ .invalidSession)
    (hwork : (b.stateAfterInterruptedBatch p).mayHaveUncommittedWork) (scriptMode : Bool) :
    ∃ s, (b.decisionAfterInterruptedBatch p scriptMode).outcome = .retain s ∧
      s.mayHaveUncommittedWork := by
  have hne := transactionState_stateAfterInterruptedBatch_ne (b := b) hp
  generalize hs : b.stateAfterInterruptedBatch p = s at hwork hne
  have hpreserved : s.requiresPhysicalSessionPreservation := by
    cases h : s.requiresPhysicalSessionPreservation with
    | true => rfl
    | false =>
      rw [eq_empty_of_not_preserved h] at hwork
      exact absurd hwork (by decide)
  have hallowed : s.transactionResolutionActionAllowed := by
    revert hwork hne
    unfold transactionResolutionActionAllowed RetainedSessionState.mayHaveUncommittedWork
    cases s.transactionState <;> simp [TransactionSessionState.mayHaveUncommittedWork]
  have hretained : b.retainedStateAfterInterruptedBatch p = some s := by
    simp [retainedStateAfterInterruptedBatch, hs, hpreserved]
  simp only [decisionAfterInterruptedBatch, hkept, hretained, hallowed, Bool.not_true,
    Bool.and_false, Bool.false_eq_true, if_false]
  refine ⟨_, rfl, ?_⟩
  split_ifs
  · exact hwork
  · exact hwork

/-- Work that is pending when a batch is interrupted is retained, in every run that withdraws
nothing. -/
theorem decisionAfterInterruptedBatch_retains (hp : p.transactionState ≠ .invalidSession)
    (hsteps : ∀ v ∈ visits apply {} events, WithdrawsNothing p v.1 v.2)
    (hwork : WorkPending p events) (scriptMode : Bool) :
    ∃ s, ((ofEvents events).decisionAfterInterruptedBatch p scriptMode).outcome = .retain s ∧
      s.mayHaveUncommittedWork := by
  have hcarries : (ofEvents events).Carries p := by
    refine carries_run hsteps (hwork.imp_left fun ⟨hprior, hends⟩ => ⟨⟨rfl, ?_⟩, hends⟩)
    have : leavesPriorWork ⟨false, false, .preserve⟩ p := hprior
    exact or_eq_true_iff.2 (.inr this)
  refine retains_of_mayHaveUncommittedWork hcarries.kept hp ?_ scriptMode
  rw [mayHaveUncommittedWork_stateAfterInterruptedBatch hp, hcarries.work, Bool.true_or]

/-- `INSERT`, with auto-commit off. -/
def insertStatement : Statement where
  reading := { words := ["INSERT", "INTO", "T", "VALUES"], kind := .dml }
  autoCommit := false
  effects :=
    { stateHint := { mayLeaveSessionBoundState := true, requiresRetentionWhenAutocommitOff := true }
      transaction := { mayLeaveUncommittedWork := true } }

/-- `CREATE TABLE` without a name, which the server rejects when it parses it. -/
def rejectedCreate : Statement where
  reading :=
    { words := ["CREATE", "TABLE"], consumesNextTransactionModeOverride := true, kind := .ddl }
  autoCommit := false
  effects :=
    { stateHint := { clearsSessionState := true }, transaction := { hasImplicitCommit := true } }

/-- A query that is cancelled. -/
def interruptedSelect : Statement where
  reading := { words := ["SELECT", "*", "FROM", "T"], kind := .selectLike }
  autoCommit := false
  effects := {}

/-- The work of an `INSERT` is not retained when a statement with an implicit commit fails
behind it: a script is closed, and elsewhere the session is taken for one without work. -/
theorem rejectedCreate_drops_work :
    let events := [(.successful, insertStatement), (.failed, rejectedCreate),
      (.interrupted, interruptedSelect)]
    WorkPending {} events ∧
      ((ofEvents events).decisionAfterInterruptedBatch {} true).outcome = .discardPhysical {} ∧
      ((ofEvents events).decisionAfterInterruptedBatch {} false).outcome = .retain {} := by
  refine ⟨.inr ⟨[], (.successful, insertStatement), _, rfl, by decide, ?_⟩, by decide, by decide⟩
  decide

/-- Without the statement in between the work is retained. -/
theorem insert_retained : ∃ s, ((ofEvents [(.successful, insertStatement),
        (.interrupted, interruptedSelect)]).decisionAfterInterruptedBatch {} true).outcome =
          .retain s ∧ s.mayHaveUncommittedWork :=
  decisionAfterInterruptedBatch_retains (by decide) (by simp [WithdrawsNothing])
    (.inr ⟨[], (.successful, insertStatement), [(.interrupted, interruptedSelect)], rfl, by decide,
      by decide⟩) true

/-! ### What was ended is not reported -/

end MySqlBatchSessionEffects

/-- The locks of a session. -/
inductive SessionLock
  | table | flushTable | backup | named
  deriving DecidableEq

def SessionLockState.holds (s : SessionLockState) : SessionLock → Bool
  | .table => s.mayHoldTableLock
  | .flushTable => s.mayHoldFlushTableLock
  | .backup => s.mayHoldBackupLock
  | .named => s.mayHoldNamedLock

namespace Statement

variable (statement : Statement)

/-- A successful statement releases the lock and does not take it again. -/
def releasesLock (lock : SessionLock) : Bool :=
  let effects := statement.effectsInContext
  effects.transaction.releasesPhysicalSession
    || match lock with
      | .table => effects.tableLock = .releases
      | .flushTable => effects.flushTableLock = .releases
      | .backup => effects.backupLock = .releases
      | .named => effects.namedLock.releasesAll && !effects.namedLock.acquires

def acquiresLock (lock : SessionLock) : Bool :=
  let effects := statement.effectsInContext
  match lock with
  | .table => effects.tableLock = .acquires
  | .flushTable => effects.flushTableLock = .acquires
  | .backup => effects.backupLock = .acquires
  | .named => effects.namedLock.acquires

/-- The statement may open a transaction, or leave open whether there is one. -/
def mayOpenTransaction : Bool :=
  statement.controlOutcome = .startsTransaction || statement.marksDirty
    || statement.effectsInContext.stateHint.requiresTransactionDecisionAfterSuccess

/-- A successful statement ends the transaction before the batch: it releases the session or
clears its state, which is what the hint of an implicit commit says too; or it is a `COMMIT` or
`ROLLBACK`, or releases table locks that the batch took or that were held before it, and opens
no other transaction. -/
def EndsPriorTransaction (p : RetainedSessionState) (b : MySqlBatchSessionEffects) : Prop :=
  statement.effectsInContext.transaction.releasesPhysicalSession ∨
    statement.effectsInContext.stateHint.clearsSessionState ∨
    (¬ statement.mayOpenTransaction ∧
      (statement.controlOutcome = .clean ∨ statement.controlOutcome = .releasesSession ∨
        (statement.effectsInContext.tableLock = .releases ∧ (b.tableLockDelta = .mayHold ∨
            (p.lockState.mayHoldTableLock ∧ b.priorTransactionEffect ≠ .clear)))))

end Statement

/-- A successful statement of the batch ended the transaction before it, and no later one may
have opened a transaction. -/
def TransactionEnded (p : RetainedSessionState) (events : List (StatementResult × Statement)) :
    Prop :=
  ∃ front statement back, events = front ++ (.successful, statement) :: back ∧
    statement.EndsPriorTransaction p (.ofEvents front) ∧
    ∀ event ∈ back, ¬ event.2.mayOpenTransaction

/-- A successful statement of the batch released the lock, and no later one acquires it. -/
def LockReleased (lock : SessionLock) (events : List (StatementResult × Statement)) : Prop :=
  SetForGood (fun event => event.2.acquiresLock lock)
    (fun event => event.1 = .successful && event.2.releasesLock lock) events

namespace MySqlBatchSessionEffects

variable {b : MySqlBatchSessionEffects} {p : RetainedSessionState}

/-! ### Locks -/

/-- What the batch does to a lock. -/
def lockDelta (b : MySqlBatchSessionEffects) : SessionLock → BatchLockDelta
  | .table => b.tableLockDelta
  | .flushTable => b.flushTableLockDelta
  | .backup => b.backupLockDelta
  | .named => b.namedLockDelta

lemma holds_lockStateAfterBatch (lock : SessionLock) : (b.lockStateAfterBatch p).holds lock
      = (b.lockDelta lock).afterBatch (p.lockState.holds lock) := by
  cases lock <;> rfl

variable {lock : SessionLock}

lemma lockDelta_fresh (h : b.lockDelta lock = .released) : b.fresh.lockDelta lock = .released := by
  unfold fresh
  split_ifs
  · cases lock <;> rfl
  · exact h

/-- A statement that does not acquire a lock leaves it released. -/
lemma lockDelta_applyStatementEffects {statement : Statement} {confirmed : Bool}
    (h : (b.lockDelta lock = .released ∧ ¬ statement.acquiresLock lock) ∨
      (confirmed && statement.releasesLock lock)) :
    (b.applyStatementEffects statement confirmed).lockDelta lock = .released := by
  rw [applyStatementEffects_eq]
  split_ifs with hrel
  · cases lock <;> rfl
  · rw [applyKeptSession_eq]
    have hfresh : b.lockDelta lock = .released → b.fresh.lockDelta lock = .released :=
      lockDelta_fresh
    cases lock <;>
      simp only [lockDelta, withTransaction, probed, Statement.acquiresLock,
        Statement.releasesLock] at h hfresh ⊢ <;>
      simp only [BatchLockDelta.apply, BatchLockDelta.applyNamed] <;>
      grind

lemma lockDelta_apply {event : StatementResult × Statement}
    (h : (b.lockDelta lock = .released ∧ ¬ event.2.acquiresLock lock) ∨
      (event.1 = .successful ∧ event.2.releasesLock lock)) :
    (b.apply event).lockDelta lock = .released := by
  obtain ⟨result, statement⟩ := event
  cases result with
  | successful => exact lockDelta_applyStatementEffects (by simpa using h)
  | failed =>
    have hunconf : (b.applyStatementEffects statement false).lockDelta lock = .released :=
      lockDelta_applyStatementEffects (.inl (by simpa using h))
    rw [apply_failed, applyFailedStatementEffects_eq]
    split_ifs
    · exact hunconf
    · exact hunconf
  | interrupted =>
    have hunconf : (b.applyStatementEffects statement false).lockDelta lock = .released :=
      lockDelta_applyStatementEffects (.inl (by simpa using h))
    rw [apply_interrupted, applyInterruptedStatementEffects]
    split_ifs
    · exact hunconf
    · exact hunconf

/-- A lock that was released for good is released at the end of the batch. -/
lemma lockDelta_ofEvents (h : LockReleased lock events) :
    (ofEvents events).lockDelta lock = .released := by
  obtain ⟨front, event, back, rfl, hrel, hback⟩ := h
  rw [ofEvents, run_append, run_cons]
  refine run_invariant_of_mem (P := fun b => lockDelta b lock = .released)
    (Q := fun event => ¬ event.2.acquiresLock lock)
    (fun b event hacquires hb => lockDelta_apply (.inl ⟨hb, hacquires⟩)) ?_ hback
  exact lockDelta_apply (.inr (by simpa using hrel))

end MySqlBatchSessionEffects

/-! ### Transactions -/

namespace BatchTransaction

variable {t : BatchTransaction} {p : RetainedSessionState}

/-- The transaction before the batch is ended, and the batch left no work since. -/
structure Ended (t : BatchTransaction) (p : RetainedSessionState) : Prop where
  clears : t.priorTransactionEffect.clearsPriorConfirmed p
  noWork : t.leavesWork p = false

lemma ended_ended : ended.Ended p := ⟨rfl, rfl⟩

lemma Ended.carriesWork (h : t.Ended p) : t.carriesWork p = false := by
  simp [BatchTransaction.carriesWork, h.noWork, leavesPriorWork, h.clears]

lemma Ended.deferred (h : t.Ended p) : t.deferred.Ended p := by
  obtain ⟨hclears, hwork⟩ := h
  obtain ⟨m, r, _ | _ | _ | after⟩ := t
  · exact absurd hclears (by simp [clearsPriorConfirmed,
      clearsPrior])
  · exact ⟨rfl, rfl⟩
  · exact absurd hclears (by simp [clearsPriorConfirmed])
  · exact ⟨hclears, by
      simp_all [leavesWork, BatchTransaction.deferred, tentativelyCleared,
        mayHaveUncommittedWorkAfterBatch,
        clearsPriorConfirmed,
        clearsPrior]⟩

/-- A release of table locks that were taken in the batch or held before it. -/
lemma ended_afterTableLock {known : Bool}
    (h : known ∨ (p.lockState.mayHoldTableLock ∧ t.priorTransactionEffect ≠ .clear)) :
    (t.afterTableLock .releases true known).Ended p := by
  unfold afterTableLock
  cases known with
  | true => exact ⟨rfl, rfl⟩
  | false =>
    obtain ⟨hlock, hclear⟩ := h.resolve_left (by simp)
    simp only [decide_true, Bool.and_self, if_true, Bool.false_eq_true, if_false, if_pos hclear]
    constructor
    · exact hlock
    · simp [leavesWork, mayHaveUncommittedWorkAfterBatch, hlock]

lemma Ended.afterTableLock (h : t.Ended p) (effect : StatementLockEffect) (confirmed known : Bool) :
    (t.afterTableLock effect confirmed known).Ended p := by
  by_cases hrel : confirmed && effect = .releases
  · simp only [and_eq_true, decide_eq_true_eq] at hrel
    obtain ⟨rfl, rfl⟩ := hrel
    by_cases hclear : t.priorTransactionEffect = .clear
    · -- nothing is left to clear
      cases known with
      | true => exact ended_afterTableLock (.inl rfl)
      | false => simpa [BatchTransaction.afterTableLock, hclear] using h
    · refine ended_afterTableLock (.inr ⟨?_, hclear⟩)
      have hclears := h.clears
      revert hclears hclear
      cases t.priorTransactionEffect <;>
        simp [clearsPriorConfirmed, clearsPrior]
  · rw [BatchTransaction.afterTableLock, if_neg hrel]
    exact h

variable {statement : Statement}

/-- What comes behind the table locks ends the transaction too, or leaves it. -/
lemma Ended.afterOutcome (h : t.Ended p) (hopen : ¬ statement.mayOpenTransaction)
    (confirmed : Bool) :
    ((t.afterControlOutcome statement.controlOutcome confirmed).afterEffects
      statement.effectsInContext statement.autoCommit confirmed).Ended p := by
  simp only [Statement.mayOpenTransaction, Statement.marksDirty, or_eq_true,
    decide_eq_true_eq, not_or] at hopen
  obtain ⟨⟨hstarts, ⟨hdecision, hst⟩, hleaves⟩, -⟩ := hopen
  have houtcome : (t.afterControlOutcome statement.controlOutcome confirmed).Ended p := by
    cases ho : statement.controlOutcome with
    | notTransactionControl | preservesTransaction => exact h
    | clean | releasesSession =>
      simp only [afterControlOutcome]
      split_ifs
      · exact ended_ended
      · exact h
    | startsTransaction => exact absurd ho hstarts
    | requiresDecision => exact absurd ho hdecision
  unfold afterEffects
  rw [if_neg (c := (_ || _)) (by simp [hst, hleaves])]
  split_ifs
  · exact ended_ended
  · exact houtcome

lemma Ended.afterStatement (h : t.Ended p) (hopen : ¬ statement.mayOpenTransaction)
    (known confirmed : Bool) : (t.afterStatement known statement confirmed).Ended p := by
  have hhint : (t.afterHint statement.effectsInContext.stateHint confirmed).Ended p := by
    unfold afterHint
    split_ifs
    · exact ⟨h.clears, h.noWork⟩
    · exact h
  exact (hhint.afterTableLock _ _ _).afterOutcome hopen confirmed

/-- A successful statement that ends the transaction before the batch, on the session that it
keeps. -/
lemma ended_afterStatement {known : Bool}
    (h : statement.effectsInContext.stateHint.clearsSessionState ∨ (¬ statement.mayOpenTransaction ∧
        (statement.controlOutcome = .clean ∨ statement.controlOutcome = .releasesSession ∨
          (statement.effectsInContext.tableLock = .releases ∧ (known ∨
              (p.lockState.mayHoldTableLock ∧ t.priorTransactionEffect ≠ .clear)))))) :
    (t.afterStatement known statement true).Ended p := by
  rcases h with hclears | ⟨hopen, hclean | hrel | ⟨hlock, hknown⟩⟩
  · simp only [afterStatement, afterEffects, hclears]
    exact ended_ended
  · -- the control outcome ends it, whatever was before
    have := (ended_ended (p := p)).afterOutcome hopen true
    simpa [afterStatement, afterControlOutcome, hclean] using this
  · have := (ended_ended (p := p)).afterOutcome hopen true
    simpa [afterStatement, afterControlOutcome, hrel] using this
  · refine Ended.afterOutcome ?_ hopen true
    rw [hlock]
    refine ended_afterTableLock (hknown.imp_right (And.imp_right fun hclear => ?_))
    unfold afterHint
    split_ifs <;> exact hclear

end BatchTransaction

namespace MySqlBatchSessionEffects

variable {b : MySqlBatchSessionEffects} {p : RetainedSessionState}

/-- A release of the session ends its transaction. -/
lemma ended_of_released (hb : b.Settled) (h : b.physicalSessionReleased) :
    b.transaction = BatchTransaction.ended := by
  rw [hb h]
  rfl

/-- One step leaves the transaction ended, or ends it. -/
lemma ended_apply (hb : b.Settled) {event : StatementResult × Statement}
    (h : (b.transaction.Ended p ∧ ¬ event.2.mayOpenTransaction) ∨
      (event.1 = .successful ∧ event.2.EndsPriorTransaction p b)) :
    (b.apply event).transaction.Ended p := by
  obtain ⟨result, statement⟩ := event
  have hfresh : b.fresh.transaction = b.transaction := (hb.fresh p true).2.2
  have hunconf : b.transaction.Ended p ∧ ¬ statement.mayOpenTransaction →
      (b.applyStatementEffects statement false).transaction.Ended p := by
    rintro ⟨hended, hopen⟩
    rw [(transaction_applyStatementEffects rfl).2, hfresh]
    exact hended.afterStatement hopen _ _
  cases result with
  | failed =>
    have hended := hunconf (h.resolve_right (by simp))
    rw [apply_failed, applyFailedStatementEffects_eq]
    split_ifs
    · exact hended.deferred
    · exact hended
  | interrupted =>
    have hended := hunconf (h.resolve_right (by simp))
    rw [apply_interrupted, applyInterruptedStatementEffects]
    split_ifs
    · exact hended
    · exact hended
  | successful =>
    rw [apply_successful, applySuccessfulStatementEffects]
    by_cases hrel : statement.effectsInContext.transaction.releasesPhysicalSession
    · rw [applyStatementEffects_eq, if_pos (by simpa using hrel)]
      exact ⟨rfl, rfl⟩
    · rw [(transaction_applyStatementEffects (by simpa using hrel)).2, hfresh]
      rcases h with ⟨hended, hopen⟩ | ⟨-, hends⟩
      · exact hended.afterStatement hopen _ _
      · refine BatchTransaction.ended_afterStatement ?_
        have hdelta : b.fresh.tableLockDelta = b.tableLockDelta := by
          by_cases hr : b.physicalSessionReleased
          · rw [fresh, if_pos hr, hb hr]
          · rw [b.fresh_of_not_released (by simpa using hr)]
        rw [hdelta, decide_eq_true_eq]
        exact hends.resolve_left hrel

/-- A transaction that was ended for good is ended at the end of the batch. -/
lemma ended_ofEvents (h : TransactionEnded p events) : (ofEvents events).transaction.Ended p := by
  obtain ⟨front, statement, back, rfl, hends, hback⟩ := h
  rw [ofEvents, run_append]
  refine (run_invariant_of_mem (P := fun b => Settled b ∧ b.transaction.Ended p)
    (Q := fun event => ¬ event.2.mayOpenTransaction)
    (fun b event hopen hb => ⟨b.settled_apply event, ended_apply hb.1 (.inl ⟨hb.2, hopen⟩)⟩)
    ⟨settled_apply _ _, ?_⟩ hback).2
  exact ended_apply (settled_ofEvents front) (.inr ⟨rfl, hends⟩)

/-! ### The decision -/

/-- The batch leaves nothing on the session: no work and no decision, no residue, no lock. -/
structure LeavesNothing (b : MySqlBatchSessionEffects) (p : RetainedSessionState) : Prop where
  work : b.transaction.carriesWork p = false
  decision : b.requiresTransactionDecisionAfterSuccess = false
  residue : b.sessionResidueStateAfterBatch p = {}
  locks : b.lockStateAfterBatch p = {}

/-- The decision falls back to the state before the batch. -/
structure FallsBack (b : MySqlBatchSessionEffects) (p : RetainedSessionState)
    (scriptMode : Bool) : Prop where
  kept : b.physicalSessionReleased = false
  noScript : scriptMode = false
  noDiscard : b.interruptedStatementRequiresPhysicalDiscard = false
  nothing : b.LeavesNothing p

section

variable (hp : p.transactionState ≠ .invalidSession)

include hp

lemma leavesNothing_iff : b.LeavesNothing p ↔
      (b.stateAfterInterruptedBatch p).requiresPhysicalSessionPreservation = false := by
  have hwork := mayHaveUncommittedWork_stateAfterInterruptedBatch (b := b) hp
  constructor
  · rintro ⟨hcarries, hdecision, hresidue, hlocks⟩
    rw [hcarries, hdecision] at hwork
    have hclean : b.transactionStateAfterInterruptedBatch p = .clean := by
      change (b.transactionStateAfterInterruptedBatch p).mayHaveUncommittedWork = false at hwork
      revert hwork
      cases b.transactionStateAfterInterruptedBatch p <;>
        simp [TransactionSessionState.mayHaveUncommittedWork]
    rw [stateAfterInterruptedBatch, hclean, hresidue, hlocks]
    rfl
  · intro h
    have hempty := RetainedSessionState.eq_empty_of_not_preserved h
    rw [hempty] at hwork
    have hnone := or_eq_false_iff.1 hwork.symm
    exact ⟨hnone.1, hnone.2, congrArg RetainedSessionState.sessionResidueState hempty,
      congrArg RetainedSessionState.lockState hempty⟩

/-- The decision by its exits: a state that is retained is the one that was computed, up to
what is untracked, or the decision fell back. -/
lemma decisionAfterInterruptedBatch_cases {scriptMode : Bool} {s : RetainedSessionState}
    (h : (b.decisionAfterInterruptedBatch p scriptMode).outcome = .retain s) :
    (s.transactionState = (b.stateAfterInterruptedBatch p).transactionState ∧
        s.lockState = b.lockStateAfterBatch p) ∨
      (b.FallsBack p scriptMode ∧ s = p) := by
  unfold decisionAfterInterruptedBatch at h
  by_cases hreleased : b.physicalSessionReleased
  · simp [hreleased] at h
  by_cases hpreserved : (b.stateAfterInterruptedBatch p).requiresPhysicalSessionPreservation
  · have hretained : b.retainedStateAfterInterruptedBatch p =
        some (b.stateAfterInterruptedBatch p) := by
      simp [retainedStateAfterInterruptedBatch, hpreserved]
    rw [hretained] at h
    dsimp only at h
    left
    split_ifs at h <;> obtain rfl := RetainedSessionOutcome.retain.inj h <;> exact ⟨rfl, rfl⟩
  · have hretained : b.retainedStateAfterInterruptedBatch p = none := by
      simp [retainedStateAfterInterruptedBatch, hpreserved]
    rw [hretained] at h
    dsimp only at h
    split_ifs at h with hscript hdiscard
    exact .inr ⟨⟨by simpa using hreleased, by simpa using hscript, by simpa using hdiscard,
      (leavesNothing_iff hp).2 (by simpa using hpreserved)⟩,
      (RetainedSessionOutcome.retain.inj h).symm⟩

lemma FallsBack.outcome {scriptMode : Bool} (h : b.FallsBack p scriptMode) :
    (b.decisionAfterInterruptedBatch p scriptMode).outcome = .retain p := by
  have hretained : b.retainedStateAfterInterruptedBatch p = none := by
    simp [retainedStateAfterInterruptedBatch, (leavesNothing_iff hp).1 h.nothing]
  simp [decisionAfterInterruptedBatch, h.kept, hretained, h.noScript, h.noDiscard]

/-- The state reports no transaction that the batch ended and no lock that it released. -/
structure ReportsNothingEnded (p : RetainedSessionState)
    (events : List (StatementResult × Statement)) (s : RetainedSessionState) : Prop where
  transaction : TransactionEnded p events → ¬ s.mayHaveUncommittedWork
  locks : ∀ lock, LockReleased lock events → ¬ s.lockState.holds lock

/-- The states that an interrupted batch retains report nothing that it ended, just in case the
batch owes no decision of its own behind the end of a transaction, and the state before the
batch reports nothing that was ended where the decision falls back to it. -/
theorem decisionAfterInterruptedBatch_ended_iff
    (events : List (StatementResult × Statement)) (scriptMode : Bool) :
    (∀ s, ((ofEvents events).decisionAfterInterruptedBatch p scriptMode).outcome = .retain s →
        ReportsNothingEnded p events s) ↔
      (TransactionEnded p events → ¬ (ofEvents events).requiresTransactionDecisionAfterSuccess) ∧
        ((ofEvents events).FallsBack p scriptMode → ReportsNothingEnded p events p) := by
  have hwork := mayHaveUncommittedWork_stateAfterInterruptedBatch (b := ofEvents events) hp
  constructor
  · intro h
    refine ⟨fun hended howes => ?_, fun hfalls => h p (hfalls.outcome hp)⟩
    have hkept : (ofEvents events).physicalSessionReleased = false := by
      by_contra hreleased
      have := ended_of_released (settled_ofEvents events) (by simpa using hreleased)
      have hnone :
          (ofEvents events).transaction.requiresTransactionDecisionAfterSuccess = false := by
        rw [this]
        rfl
      exact absurd howes (by simpa [transaction] using hnone)
    obtain ⟨s, houtcome, hs⟩ := retains_of_mayHaveUncommittedWork hkept hp
      (by rw [hwork, howes, Bool.or_true]) scriptMode
    exact (h s houtcome).transaction hended hs
  · rintro ⟨howes, hfalls⟩ s houtcome
    rcases decisionAfterInterruptedBatch_cases hp houtcome with ⟨htrans, hlocks⟩ | ⟨hback, rfl⟩
    · constructor
      · intro hended hs
        have hcomputed :
            ((ofEvents events).stateAfterInterruptedBatch p).mayHaveUncommittedWork := by
          rw [RetainedSessionState.mayHaveUncommittedWork, ← htrans]
          exact hs
        rw [hwork, (ended_ofEvents hended).carriesWork] at hcomputed
        exact howes hended hcomputed
      · intro lock hreleased
        rw [hlocks, holds_lockStateAfterBatch, lockDelta_ofEvents hreleased]
        simp [BatchLockDelta.afterBatch]
    · exact hfalls hback

end

/-- The session is dirty before the batch. -/
def dirtyBefore : RetainedSessionState := { transactionState := .maybeDirty }

/-- Work that a `COMMIT` of the batch ended is reported, because nothing else is left. -/
theorem commit_resurrected :
    let events := [(.successful, commitStatement), (.interrupted, interruptedSelect)]
    TransactionEnded dirtyBefore events ∧
      ((ofEvents events).decisionAfterInterruptedBatch dirtyBefore false).outcome =
        .retain dirtyBefore ∧ dirtyBefore.mayHaveUncommittedWork := by
  refine ⟨⟨[], commitStatement, _, rfl, .inr (.inl (by decide)), by decide⟩, by decide, by decide⟩

/-- The session is dirty before the batch and has a temporary table. -/
def dirtyWithTable : RetainedSessionState :=
  { dirtyBefore with sessionResidueState := { mayHaveTemporaryTable := true } }

/-- With a temporary table left, the session is retained as one without work. -/
theorem commit_with_table_not_resurrected : ReportsNothingEnded dirtyWithTable
      [(.successful, commitStatement), (.interrupted, interruptedSelect)]
      { dirtyWithTable with transactionState := .clean } :=
  (decisionAfterInterruptedBatch_ended_iff (by decide) _ false).2
    ⟨fun _ => by decide, fun h => absurd h.nothing.residue (by decide)⟩ _ (by decide)

end MySqlBatchSessionEffects

end SpaceQuery.Session
