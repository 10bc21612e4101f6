import SpaceQuery.Session.BatchTransaction

/-!
What a statement that failed or was interrupted adds to the effects of a batch.
-/

namespace SpaceQuery.Session

/-! ### More conservative accounts -/

/-- Every residue of `s` is in `t`, the diagnostics of statements apart. -/
structure SessionResidueState.KeptIn (s t : SessionResidueState) : Prop where
  temporaryTable : s.mayHaveTemporaryTable → t.mayHaveTemporaryTable
  preparedStatement : s.mayHavePreparedStatement → t.mayHavePreparedStatement
  userVariable : s.mayHaveUserVariable → t.mayHaveUserVariable
  sessionSetting : s.mayHaveSessionSetting → t.mayHaveSessionSetting
  nextTransactionModeOverride :
    s.mayHaveNextTransactionModeOverride → t.mayHaveNextTransactionModeOverride
  transactionModeOverride : s.mayHaveTransactionModeOverride → t.mayHaveTransactionModeOverride
  unknownSessionState : s.mayHaveUnknownSessionState → t.mayHaveUnknownSessionState

/-- Every lock of `s` is in `t`. -/
structure SessionLockState.KeptIn (s t : SessionLockState) : Prop where
  tableLock : s.mayHoldTableLock → t.mayHoldTableLock
  flushTableLock : s.mayHoldFlushTableLock → t.mayHoldFlushTableLock
  backupLock : s.mayHoldBackupLock → t.mayHoldBackupLock
  namedLock : s.mayHoldNamedLock → t.mayHoldNamedLock

/-- The account `t` is at least as conservative as `s`. -/
structure RetainedSessionState.AtLeast (s t : RetainedSessionState) : Prop where
  transaction : s.transactionState.conservativeRank ≤ t.transactionState.conservativeRank
  residue : s.sessionResidueState.KeptIn t.sessionResidueState
  locks : s.lockState.KeptIn t.lockState

open TransactionSessionState

lemma TransactionSessionState.fromFlags_mono {work work' decision decision' : Bool}
    (hwork : work → work') (hdecision : decision → decision') :
    (fromFlags work decision).conservativeRank ≤ (fromFlags work' decision').conservativeRank := by
  revert work work' decision decision'
  decide

open RetainedSessionState

/-- A state that needs no preservation is that of a session nobody used. -/
lemma RetainedSessionState.eq_empty_of_not_preserved {s : RetainedSessionState}
    (h : s.requiresPhysicalSessionPreservation = false) : s = {} := by
  obtain ⟨t, r, l⟩ := s
  simp only [requiresPhysicalSessionPreservation, RetainedSessionState.requiresResolution,
    TransactionSessionState.requiresResolution, SessionResidueState.requiresResolution,
    SessionResidueState.mayHaveUntrackedSessionState, SessionLockState.requiresResolution,
    SessionLockState.mayHoldSessionLock, SessionResidueState.requiresPhysicalSessionPreservation,
    Bool.or_eq_false_iff] at h
  obtain ⟨r₁, r₂, r₃, r₄, r₅, r₆, r₇, r₈⟩ := r
  obtain ⟨l₁, l₂, l₃, l₄⟩ := l
  simp_all

/-! ### Residue and locks -/

namespace SessionResidueState

lemma keptIn_afterStatement (s : SessionResidueState) (effects : StatementSessionResidueEffects) :
    s.KeptIn (s.afterStatement effects false) := by
  constructor <;>
    simp +contextual [afterStatement, withStatementDiagnosticsCleared, mergedWith]

lemma KeptIn.mergedWith {s t : SessionResidueState} (h : s.KeptIn t) (p : SessionResidueState) :
    (p.mergedWith s).KeptIn (p.mergedWith t) := by
  obtain ⟨h₁, h₂, h₃, h₄, h₅, h₆, h₇⟩ := h
  constructor <;> simp only [SessionResidueState.mergedWith, Bool.or_eq_true] <;> grind

end SessionResidueState

open BatchLockDelta

lemma BatchLockDelta.afterBatch_apply_unconfirmed {delta : BatchLockDelta}
    {effect : StatementLockEffect} {held : Bool} (h : delta.afterBatch held) :
    (delta.apply effect false).afterBatch held := by
  cases effect <;> first | exact h | rfl

lemma BatchLockDelta.afterBatch_applyNamed_unconfirmed {delta : BatchLockDelta}
    {effect : StatementNamedLockEffect} {held : Bool} (h : delta.afterBatch held) :
    (delta.applyNamed effect false).afterBatch held := by
  obtain ⟨acquires, releasesOne, releasesAll⟩ := effect
  cases acquires
  · exact h
  · rfl

/-! ### Transactions -/

namespace BatchTransaction

variable (t : BatchTransaction) (p : RetainedSessionState)

/-- The batch leaves work in a transaction, for the state before it. -/
def leavesWork : Bool :=
  t.priorTransactionEffect.mayHaveUncommittedWorkAfterBatch p t.mayHaveUncommittedWork

/-- The batch leaves the decision that the state before it required. -/
@[simp] def leavesPriorDecision : Bool :=
  !t.priorTransactionEffect.clearsPrior p && p.transactionState.requiresTransactionDecision

variable (requiresPreservation serverReportsUncommittedWork : Bool)

/-- The probe at the end of the batch is taken for the user's work. -/
def probeReports : Bool :=
  serverReportsUncommittedWork && (requiresPreservation || t.leavesWork p || t.leavesPriorDecision p
      || t.requiresTransactionDecisionAfterSuccess
      || (t.priorTransactionEffect.clearIsTentative && p.mayHaveUncommittedWork))

/-- A decision is owed at the end of a successful batch. -/
@[simp] def owesDecision : Bool :=
  (t.probeReports p requiresPreservation serverReportsUncommittedWork
      && t.priorTransactionEffect.clearIsTentative
      && p.transactionState.requiresTransactionDecision)
    || t.leavesPriorDecision p || t.requiresTransactionDecisionAfterSuccess

/-- The batch may leave the work of the state before it. -/
def leavesPriorWork : Bool :=
  !t.priorTransactionEffect.clearsPriorConfirmed p && p.mayHaveUncommittedWork

/-- A decision is owed at the end of an interrupted batch. -/
def owesDecisionAfterInterrupt (uncertain : Bool) : Bool :=
  t.leavesPriorDecision p || t.requiresTransactionDecisionAfterSuccess
    || (t.priorTransactionEffect.clearIsTentative
      && p.transactionState.requiresTransactionDecision)
    || t.leavesWork p || (uncertain && t.leavesPriorWork p)

open Bool BatchPriorTransactionEffect

lemma leavesWork_dirty : t.dirty.leavesWork p := by
  obtain ⟨m, r, _ | _ | _ | after⟩ := t <;>
    simp [dirty, leavesWork, withDirtyWorkAfterConditionalClear, mayHaveUncommittedWorkAfterBatch]

lemma leavesWork_started : t.started.leavesWork p := rfl

/-- Behind the start of a transaction only the decisions of the batch itself are owed. -/
lemma owesDecision_started (x probe : Bool) :
    t.started.owesDecision p x probe = t.requiresTransactionDecisionAfterSuccess := by
  simp [started, clearIsTentative, clearsPrior]

/-- As long as the batch has not ended the transaction before it, a decision that it required
is owed, if the server confirms it. -/
lemma owesDecision_of_ne_clear {t : BatchTransaction} (h : t.priorTransactionEffect ≠ .clear)
    (x : Bool) : t.owesDecision { transactionState := .decisionRequired } x true := by
  obtain ⟨m, r, _ | _ | _ | after⟩ := t
  · simp [clearsPrior, requiresTransactionDecision]
  · exact absurd rfl h
  · simp [probeReports, clearIsTentative, requiresTransactionDecision,
      RetainedSessionState.mayHaveUncommittedWork, TransactionSessionState.mayHaveUncommittedWork]
  · simp [clearsPrior, requiresTransactionDecision]

/-- Work that is left does not change what the batch does to the state before it. -/
lemma prior_dirty : t.dirty.leavesPriorDecision p = t.leavesPriorDecision p ∧
      t.dirty.priorTransactionEffect.clearIsTentative =
        t.priorTransactionEffect.clearIsTentative := by
  obtain ⟨m, r, _ | _ | _ | after⟩ := t <;> exact ⟨rfl, rfl⟩

/-- What a statement that is not confirmed may do to the transaction and still leave every
decision that is owed. -/
inductive Keeps : BatchTransaction → Prop
  | same : Keeps t
  | dirty : Keeps t.dirty
  | started (h : t.priorTransactionEffect = .clear ∨ t.requiresTransactionDecisionAfterSuccess) :
    Keeps t.started

variable {t p}

lemma Keeps.owesDecision {t' : BatchTransaction} (h : t.Keeps t') {x x' : Bool} (hx : x → x')
    {probe : Bool} (howes : t.owesDecision p x probe) : t'.owesDecision p x' probe := by
  cases h with
  | same =>
    revert howes
    simp only [BatchTransaction.owesDecision, probeReports, or_eq_true, and_eq_true]
    grind
  | dirty =>
    obtain ⟨hdec, htent⟩ := t.prior_dirty p
    revert howes
    simp only [BatchTransaction.owesDecision, probeReports, leavesWork_dirty, hdec, htent,
      or_eq_true, and_eq_true]
    have : t.dirty.requiresTransactionDecisionAfterSuccess =
      t.requiresTransactionDecisionAfterSuccess := rfl
    grind
  | started hst =>
    have hr : t.requiresTransactionDecisionAfterSuccess := by
      rcases hst with hclear | hr
      · simpa [BatchTransaction.owesDecision, leavesPriorDecision, hclear, clearIsTentative,
          clearsPrior] using howes
      · exact hr
    simp [BatchTransaction.owesDecision, BatchTransaction.started, hr]

lemma Keeps.leavesWork {t' : BatchTransaction} (h : t.Keeps t') {x x' : Bool} (hx : x → x')
    {probe : Bool} (hwork : t.leavesWork p || t.probeReports p x probe) :
    t'.leavesWork p || t'.probeReports p x' probe := by
  cases h with
  | same =>
    revert hwork
    simp only [probeReports, or_eq_true, and_eq_true]
    grind
  | dirty => simp [leavesWork_dirty]
  | started => simp [leavesWork_started]

end BatchTransaction

namespace MySqlBatchSessionEffects

variable (b : MySqlBatchSessionEffects) (p : RetainedSessionState)

lemma priorTransactionStateAfterBatch_eq_invalid_iff :
    b.priorTransactionStateAfterBatch p = .invalidSession ↔
      p.transactionState = .invalidSession := by
  unfold priorTransactionStateAfterBatch
  split_ifs with h
  · simp [h]
  · simp [h]
  · simp [h]

open BatchTransaction (leavesPriorDecision owesDecisionAfterInterrupt)

lemma requiresTransactionDecision_priorTransactionStateAfterBatch :
    (b.priorTransactionStateAfterBatch p).requiresTransactionDecision =
      b.transaction.leavesPriorDecision p := by
  unfold priorTransactionStateAfterBatch
  split_ifs with hinv hclears
  · simp [hinv, requiresTransactionDecision]
  · simp [transaction, hclears, requiresTransactionDecision]
  · simp [transaction, hclears]

lemma transactionState_retainedStateAfterSuccessfulBatch (probe : Bool) :
    (b.retainedStateAfterSuccessfulBatch p probe).transactionState =
      if p.transactionState = .invalidSession then .invalidSession
      else
        let x := b.serverTransactionProbeRequiresPreservation
        .fromFlags (b.transaction.leavesWork p || b.transaction.probeReports p x probe)
          (b.transaction.owesDecision p x probe) := by
  simp only [retainedStateAfterSuccessfulBatch, priorTransactionStateAfterBatch_eq_invalid_iff,
    serverTransactionProbeReportsUncommittedWorkAfterBatch,
    requiresTransactionDecision_priorTransactionStateAfterBatch]
  rfl

lemma transactionStateAfterInterruptedBatch_eq : b.transactionStateAfterInterruptedBatch p =
      if p.transactionState = .invalidSession then .invalidSession
      else if b.transaction.owesDecisionAfterInterrupt p b.sawUncertainNamedLockRelease then
        .decisionRequired
      else if b.transaction.leavesPriorWork p then p.transactionState
      else .clean := by
  simp only [transactionStateAfterInterruptedBatch, priorTransactionStateAfterBatch_eq_invalid_iff,
    requiresTransactionDecision_priorTransactionStateAfterBatch]
  rfl

/-! ### Runs -/

/-- Behind a release of the session nothing of it is left. -/
def Settled : Prop :=
  b.physicalSessionReleased → b = { resetAfterPhysicalSessionRelease with
      physicalSessionReleased := true
      interruptedStatementRequiresPhysicalDiscard :=
        b.interruptedStatementRequiresPhysicalDiscard }

lemma settled_of_not_released {b : MySqlBatchSessionEffects}
    (h : b.physicalSessionReleased = false) : b.Settled := by
  simp [Settled, h]

variable (statement : Statement)

lemma physicalSessionReleased_applyStatementEffects_false :
    (b.applyStatementEffects statement false).physicalSessionReleased = false := by
  rw [b.applyStatementEffects_of_kept rfl, applyKeptSession_eq]
  exact b.fresh_physicalSessionReleased

/-- A statement leaves nothing of a session that it releases. -/
lemma settled_apply (event : StatementResult × Statement) : (b.apply event).Settled := by
  obtain ⟨result, statement⟩ := event
  have hunconf := b.physicalSessionReleased_applyStatementEffects_false statement
  cases result with
  | successful =>
    rw [apply_successful, applySuccessfulStatementEffects, applyStatementEffects_eq]
    split_ifs
    · exact fun _ => rfl
    · refine settled_of_not_released ?_
      rw [applyKeptSession_eq]
      exact b.fresh_physicalSessionReleased
  | failed =>
    refine settled_of_not_released ?_
    rw [apply_failed, applyFailedStatementEffects_eq]
    split_ifs <;> exact hunconf
  | interrupted =>
    refine settled_of_not_released ?_
    rw [apply_interrupted, applyInterruptedStatementEffects]
    split_ifs <;> exact hunconf

theorem settled_ofEvents (events : List (StatementResult × Statement)) :
    (ofEvents events).Settled :=
  Runs.run_invariant (fun b event _ => b.settled_apply event) (settled_of_not_released rfl) events

variable {b}

/-- The states at the end of a batch read nothing that starting again would change. -/
lemma Settled.fresh (h : b.Settled) (probe : Bool) :
    b.fresh.retainedStateAfterSuccessfulBatch p probe =
        b.retainedStateAfterSuccessfulBatch p probe ∧
      b.fresh.stateAfterInterruptedBatch p = b.stateAfterInterruptedBatch p ∧
      b.fresh.transaction = b.transaction := by
  by_cases hb : b.physicalSessionReleased
  · rw [h hb]
    exact ⟨rfl, rfl, rfl⟩
  · rw [b.fresh_of_not_released (by simpa using hb)]
    exact ⟨rfl, rfl, rfl⟩

/-! ### Statements that failed or were interrupted -/

/-- A failed or interrupted statement without an implicit commit is one that is not
confirmed, up to what becomes of the session. -/
lemma apply_eq_applyStatementEffects_false {result : StatementResult} {statement : Statement}
    (hres : result ≠ .successful)
    (hcommit : ¬ statement.effectsInContext.transaction.hasImplicitCommit) :
    ∃ discard, b.apply (result, statement) =
      { b.applyStatementEffects statement false with
        interruptedStatementRequiresPhysicalDiscard := discard } := by
  cases result with
  | successful => exact absurd rfl hres
  | failed => exact ⟨_, by rw [apply_failed, applyFailedStatementEffects_eq, if_neg hcommit]⟩
  | interrupted =>
    rw [apply_interrupted, applyInterruptedStatementEffects]
    split_ifs
    · exact ⟨true, rfl⟩
    · exact ⟨_, rfl⟩

/-- The residue and the locks at the end of the batch, with a statement that is not
confirmed. -/
lemma residue_locks_applyStatementEffects_false (statement : Statement) :
    let b' := b.applyStatementEffects statement false
    (b.fresh.sessionResidueStateAfterBatch p).KeptIn (b'.sessionResidueStateAfterBatch p) ∧
      (b.fresh.lockStateAfterBatch p).KeptIn (b'.lockStateAfterBatch p) := by
  rw [b.applyStatementEffects_of_kept rfl, applyKeptSession_eq]
  constructor
  · simp only [sessionResidueStateAfterBatch, withTransaction, probed, Bool.false_and,
      Bool.or_false]
    split_ifs
    · exact SessionResidueState.keptIn_afterStatement _ _
    · exact (SessionResidueState.keptIn_afterStatement _ _).mergedWith _
  · exact
      { tableLock := afterBatch_apply_unconfirmed
        flushTableLock := afterBatch_apply_unconfirmed
        backupLock := afterBatch_apply_unconfirmed
        namedLock := afterBatch_applyNamed_unconfirmed }

/-- The fields about the transaction, behind a statement that is not confirmed. -/
lemma transaction_applyStatementEffects_false :
    (b.applyStatementEffects statement false).transaction =
      if statement.controlOutcome = .startsTransaction then b.fresh.transaction.started
      else if statement.marksDirty then b.fresh.transaction.dirty
      else b.fresh.transaction := by
  rw [b.applyStatementEffects_of_kept rfl, applyKeptSession_eq,
    BatchTransaction.afterStatement_unconfirmed]
  rfl

/-- What is uncertain stays uncertain. -/
lemma uncertain_applyStatementEffects_false (h : b.fresh.sawUncertainNamedLockRelease) :
    (b.applyStatementEffects statement false).sawUncertainNamedLockRelease := by
  rw [b.applyStatementEffects_of_kept rfl, applyKeptSession_eq]
  have hb : (b.probed statement).sawUncertainNamedLockRelease := h
  simp [withTransaction, hb, StatementNamedLockEffect.uncertainAfter]

/-- What the batch asks of the probe it keeps asking. -/
lemma probe_applyStatementEffects_false (h : b.fresh.serverTransactionProbeRequiresPreservation) :
    (b.applyStatementEffects statement false).serverTransactionProbeRequiresPreservation := by
  rw [b.applyStatementEffects_of_kept rfl, applyKeptSession_eq]
  simp [withTransaction, probed, h]

/-- Two batches whose transactions keep every decision that is owed. -/
lemma rank_successful_mono {b b' : MySqlBatchSessionEffects}
    (ht : b.transaction.Keeps b'.transaction) (hx : b.serverTransactionProbeRequiresPreservation →
      b'.serverTransactionProbeRequiresPreservation) (probe : Bool) :
    (b.retainedStateAfterSuccessfulBatch p probe).transactionState.conservativeRank ≤
      (b'.retainedStateAfterSuccessfulBatch p probe).transactionState.conservativeRank := by
  simp only [transactionState_retainedStateAfterSuccessfulBatch]
  split_ifs with hinv
  · rfl
  · exact fromFlags_mono (ht.leavesWork hx) (ht.owesDecision hx)

lemma rank_interrupted_mono {b b' : MySqlBatchSessionEffects}
    (ht : b'.transaction = b.transaction ∨ b'.transaction.leavesWork p)
    (hu : b.sawUncertainNamedLockRelease → b'.sawUncertainNamedLockRelease) :
    (b.stateAfterInterruptedBatch p).transactionState.conservativeRank ≤
      (b'.stateAfterInterruptedBatch p).transactionState.conservativeRank := by
  simp only [stateAfterInterruptedBatch, transactionStateAfterInterruptedBatch_eq]
  by_cases hinv : p.transactionState = .invalidSession
  · simp [hinv]
  · have hp : p.transactionState.conservativeRank ≤ 3 := by
      revert hinv
      cases p.transactionState <;> simp [conservativeRank]
    by_cases howes : b'.transaction.owesDecisionAfterInterrupt p b'.sawUncertainNamedLockRelease
    · -- the most that is left of a session that is valid
      split_ifs
      · rfl
      · exact hp
      · exact Nat.zero_le _
    · have hwork : ¬ b'.transaction.leavesWork p := by
        intro hwork
        simp [owesDecisionAfterInterrupt, hwork] at howes
      rw [ht.resolve_right hwork] at howes ⊢
      have hsame : ¬ b.transaction.owesDecisionAfterInterrupt p b.sawUncertainNamedLockRelease := by
        revert howes hu
        simp only [owesDecisionAfterInterrupt, Bool.or_eq_true, Bool.and_eq_true]
        grind
      rw [if_neg howes, if_neg hsame]

/-- An interrupted batch that needs nothing preserved leaves nothing. -/
lemma retainedStateAfterInterruptedBatch_getD (b : MySqlBatchSessionEffects) :
    (b.retainedStateAfterInterruptedBatch p).getD {} = b.stateAfterInterruptedBatch p := by
  dsimp only [retainedStateAfterInterruptedBatch]
  split_ifs with h
  · rfl
  · exact (eq_empty_of_not_preserved (by simpa using h)).symm

/-- The accounts at the end of the batch, successful or interrupted, are at least as
conservative with `b'` as with `b`, for every state before the batch and every answer of the
probe. -/
def StatesNothingMore (b b' : MySqlBatchSessionEffects) : Prop :=
  ∀ p probe, (b.retainedStateAfterSuccessfulBatch p probe).AtLeast
        (b'.retainedStateAfterSuccessfulBatch p probe) ∧
      ((b.retainedStateAfterInterruptedBatch p).getD {}).AtLeast
        ((b'.retainedStateAfterInterruptedBatch p).getD {})

/-- A batch whose transactions keep every decision, with a statement that is not
confirmed. -/
lemma statesNothingMore_of_keeps (hb : b.Settled) {statement : Statement}
    (ht : b.transaction.Keeps (b.applyStatementEffects statement false).transaction)
    (hwork : (b.applyStatementEffects statement false).transaction = b.transaction ∨
      ∀ p, (b.applyStatementEffects statement false).transaction.leavesWork p) :
    b.StatesNothingMore (b.applyStatementEffects statement false) := by
  intro p probe
  obtain ⟨hsucc, hint, htrans⟩ := hb.fresh p probe
  obtain ⟨hres, hlock⟩ := residue_locks_applyStatementEffects_false (b := b) p statement
  rw [retainedStateAfterInterruptedBatch_getD, retainedStateAfterInterruptedBatch_getD, ← hsucc,
    ← hint]
  rw [← htrans] at ht hwork
  exact ⟨⟨rank_successful_mono p ht (probe_applyStatementEffects_false statement) probe, hres,
      hlock⟩,
    ⟨rank_interrupted_mono p (hwork.imp_right (· p))
      (uncertain_applyStatementEffects_false statement), hres, hlock⟩⟩

/-- A statement that failed or was interrupted, and has no implicit commit, states nothing
more than what the batch stated without it, unless it is one that starts a transaction: that
one is counted as the end of the transaction before it, so the batch must have ended that
already, or owe a decision of its own. -/
theorem statesNothingMore_apply_iff {events : List (StatementResult × Statement)}
    {result : StatementResult} {statement : Statement} (hresult : result ≠ .successful)
    (hcommit : ¬ statement.effectsInContext.transaction.hasImplicitCommit) :
    (ofEvents events).StatesNothingMore ((ofEvents events).apply (result, statement)) ↔
      (statement.controlOutcome = .startsTransaction →
        (ofEvents events).priorTransactionEffect = .clear ∨
          (ofEvents events).requiresTransactionDecisionAfterSuccess) := by
  have hb := settled_ofEvents events
  generalize ofEvents events = b at hb ⊢
  obtain ⟨discard, happly⟩ := b.apply_eq_applyStatementEffects_false hresult hcommit
  have htrans : b.fresh.transaction = b.transaction := (hb.fresh {} false).2.2
  have hafter := b.transaction_applyStatementEffects_false statement
  rw [happly]
  change b.StatesNothingMore (b.applyStatementEffects statement false) ↔ _
  constructor
  · intro h hstarts
    by_contra hnone
    rw [not_or] at hnone
    -- a state before the batch that requires a decision, which the server confirms
    have hrank := (h { transactionState := .decisionRequired } true).1.transaction
    have hclear : b.transaction.priorTransactionEffect ≠ .clear := hnone.1
    have howes : b.transaction.requiresTransactionDecisionAfterSuccess = false :=
      Bool.eq_false_of_not_eq_true hnone.2
    simp only [transactionState_retainedStateAfterSuccessfulBatch, hafter, hstarts, if_true,
      htrans, BatchTransaction.owesDecision_started,
      BatchTransaction.owesDecision_of_ne_clear hclear, howes, reduceCtorEq, if_false,
      fromFlags] at hrank
    -- the decision is lost: what is left is dirty at most
    split_ifs at hrank <;> simp_all [conservativeRank]
  · intro h
    rw [htrans] at hafter
    refine statesNothingMore_of_keeps hb ?_ ?_
    · rw [hafter]
      split_ifs with hstarts hdirty
      · exact .started (h hstarts)
      · exact .dirty
      · exact .same
    · rw [hafter]
      split_ifs with hstarts hdirty
      · exact .inr fun p => BatchTransaction.leavesWork_started _ p
      · exact .inr fun p => BatchTransaction.leavesWork_dirty _ p
      · exact .inl rfl

/-- `START TRANSACTION WITH`, which the server rejects. -/
def rejectedStart : Statement where
  reading := { words := ["START", "TRANSACTION", "WITH"], kind := .transactionControl }
  autoCommit := false
  effects :=
    { stateHint := { mayLeaveSessionBoundState := true, requiresRetentionWhenAutocommitOff := true }
      transaction := { clearsState := true, startsState := true } }

/-- The decision that the state before the batch required is lost to a statement that
failed. -/
theorem rejectedStart_loses_decision :
    ¬ rejectedStart.effectsInContext.transaction.hasImplicitCommit ∧
      ¬ (ofEvents []).StatesNothingMore ((ofEvents []).apply (.failed, rejectedStart)) := by
  refine ⟨by decide, fun h => ?_⟩
  have hrank := (h { transactionState := .decisionRequired } true).1.transaction
  revert hrank
  decide

/-- Behind a `COMMIT` of the batch the same statement states nothing more. -/
def commitStatement : Statement where
  reading := { words := ["COMMIT"], kind := .transactionControl }
  autoCommit := false
  effects :=
    { stateHint := { clearsSessionState := true }, transaction := { clearsState := true } }

theorem rejectedStart_after_commit : (ofEvents [(.successful, commitStatement)]).StatesNothingMore
      ((ofEvents [(.successful, commitStatement)]).apply (.failed, rejectedStart)) :=
  (statesNothingMore_apply_iff (by decide) (by decide)).2 fun _ => .inl (by decide)

end MySqlBatchSessionEffects

end SpaceQuery.Session
