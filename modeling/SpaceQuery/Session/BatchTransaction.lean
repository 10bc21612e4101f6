import SpaceQuery.Session.BatchEffects

/-!
What one statement does to the effects of a batch, field by field. The three fields about
the transaction are a state machine of their own, `BatchTransaction`, that sees of the
other fields only whether the batch holds a table lock; every other field follows from
itself and the effects of the statement.
-/

namespace SpaceQuery.Session

/-! ### The transaction of a batch -/

/-- The fields of a batch about transactions. -/
structure BatchTransaction where
  mayHaveUncommittedWork : Bool
  requiresTransactionDecisionAfterSuccess : Bool
  priorTransactionEffect : BatchPriorTransactionEffect
  deriving DecidableEq

namespace BatchTransaction

variable (t : BatchTransaction)

def dirty : BatchTransaction :=
  { t with
    mayHaveUncommittedWork := true
    priorTransactionEffect := t.priorTransactionEffect.withDirtyWorkAfterConditionalClear }

def clean : BatchTransaction :=
  { t with mayHaveUncommittedWork := false, priorTransactionEffect := .clear }

/-- A clean transaction that leaves no decision. -/
def ended : BatchTransaction := ⟨false, false, .clear⟩

/-- The transaction behind `START TRANSACTION` and its like. -/
def started : BatchTransaction :=
  { t with mayHaveUncommittedWork := true, priorTransactionEffect := .clear }

/-- The transaction behind the first check of `apply_statement_effects`. -/
def afterHint (hint : TransactionStatementStateHint) (confirmed : Bool) : BatchTransaction :=
  if confirmed && hint.requiresTransactionDecisionAfterSuccess then
    { t with requiresTransactionDecisionAfterSuccess := true }
  else t

def afterTableLock (effect : StatementLockEffect) (confirmed hadKnownTableLock : Bool) :
    BatchTransaction :=
  if confirmed && effect = .releases then
    if hadKnownTableLock then t.clean
    else if t.priorTransactionEffect ≠ .clear then
      { t with priorTransactionEffect := .clearIfPriorTableLock false }
    else t
  else t

def afterControlOutcome (outcome : TransactionControlOutcome) (confirmed : Bool) :
    BatchTransaction :=
  match outcome with
  | .clean | .releasesSession => if confirmed then ended else t
  | .startsTransaction => t.started
  | .requiresDecision => t.dirty
  | .preservesTransaction | .notTransactionControl => t

def afterEffects (effects : StatementSessionEffects) (autoCommit confirmed : Bool) :
    BatchTransaction :=
  if confirmed && effects.stateHint.clearsSessionState then ended
  else if effects.transaction.startsState
      || (!autoCommit && effects.transaction.mayLeaveUncommittedWork) then t.dirty
  else t

/-- The transaction behind a statement that keeps the session. -/
def afterStatement (hadKnownTableLock : Bool) (statement : Statement) (confirmed : Bool) :
    BatchTransaction :=
  let effects := statement.effectsInContext
  let t := t.afterHint effects.stateHint confirmed
  let t := t.afterTableLock effects.tableLock confirmed hadKnownTableLock
  let t := t.afterControlOutcome statement.controlOutcome confirmed
  t.afterEffects effects statement.autoCommit confirmed

end BatchTransaction

/-- The statement may leave work in a transaction that it does not start itself. -/
def Statement.marksDirty (statement : Statement) : Bool :=
  statement.controlOutcome = .requiresDecision
    || statement.effectsInContext.transaction.startsState
    || (!statement.autoCommit && statement.effectsInContext.transaction.mayLeaveUncommittedWork)

namespace BatchTransaction

variable (t : BatchTransaction)

@[simp] lemma dirty_dirty : t.dirty.dirty = t.dirty := by
  obtain ⟨m, r, _ | _ | _ | _⟩ := t <;> rfl

@[simp] lemma dirty_started : t.started.dirty = t.started := rfl

/-- A statement that is not confirmed can only leave work. -/
lemma afterStatement_unconfirmed (hadKnownTableLock : Bool) (statement : Statement) :
    t.afterStatement hadKnownTableLock statement false =
      if statement.controlOutcome = .startsTransaction then t.started
      else if statement.marksDirty then t.dirty
      else t := by
  unfold Statement.marksDirty
  cases houtcome : statement.controlOutcome <;>
    simp [afterStatement, afterHint, afterTableLock, afterControlOutcome, houtcome, afterEffects]

end BatchTransaction

/-- The residue of a batch behind a statement. -/
def SessionResidueState.afterStatement (s : SessionResidueState)
    (effects : StatementSessionResidueEffects) (confirmed : Bool) : SessionResidueState :=
  if confirmed then s.afterSuccessfulEffects effects
  else s.withStatementDiagnosticsCleared.mergedWith
    (.fromEffects effects.withoutStatementDiagnostics)

/-- Whether a release of a named lock stays uncertain behind a statement. -/
def StatementNamedLockEffect.uncertainAfter (effect : StatementNamedLockEffect)
    (uncertain confirmed : Bool) : Bool :=
  if effect.acquires then !(confirmed && effect.releasesAll) && uncertain
  else if effect.releasesAll then !confirmed && uncertain
  else effect.releasesOne || uncertain

/-- The named locks behind a statement. -/
def BatchLockDelta.applyNamed (delta : BatchLockDelta) (effect : StatementNamedLockEffect)
    (confirmed : Bool) : BatchLockDelta :=
  if effect.acquires then .mayHold
  else if confirmed && effect.releasesAll then .released
  else delta

namespace MySqlBatchSessionEffects

variable (b : MySqlBatchSessionEffects)

/-- The transaction of a batch. -/
def transaction : BatchTransaction :=
  ⟨b.mayHaveUncommittedWork, b.requiresTransactionDecisionAfterSuccess, b.priorTransactionEffect⟩

/-- The batch with another transaction. -/
def withTransaction (t : BatchTransaction) : MySqlBatchSessionEffects :=
  { b with
    mayHaveUncommittedWork := t.mayHaveUncommittedWork
    requiresTransactionDecisionAfterSuccess := t.requiresTransactionDecisionAfterSuccess
    priorTransactionEffect := t.priorTransactionEffect }

/-! ### The parts of a statement -/

lemma applyTableLock_eq (effect : StatementLockEffect) (confirmed hadKnownTableLock : Bool) :
    b.applyTableLock effect confirmed hadKnownTableLock =
      { b with tableLockDelta := b.tableLockDelta.apply effect confirmed }.withTransaction
        (b.transaction.afterTableLock effect confirmed hadKnownTableLock) := by
  unfold applyTableLock BatchTransaction.afterTableLock BatchLockDelta.apply
  by_cases hrel : confirmed && effect = .releases
  · simp only [if_pos hrel, markConditionalTableLockTransactionClear]
    cases hadKnownTableLock with
    | true => rfl
    | false =>
      by_cases hclear : b.priorTransactionEffect ≠ .clear
      · simp [hclear, transaction, withTransaction]
      · simp [hclear, transaction, withTransaction]
  · split_ifs <;> rfl

lemma applyControlOutcome_eq (outcome : TransactionControlOutcome) (confirmed : Bool) :
    b.applyControlOutcome outcome confirmed =
      b.withTransaction (b.transaction.afterControlOutcome outcome confirmed) := by
  cases outcome <;> cases confirmed <;> rfl

lemma applyTransaction_eq (effects : StatementSessionEffects) (autoCommit confirmed : Bool) :
    b.applyTransaction effects autoCommit confirmed =
      b.withTransaction (b.transaction.afterEffects effects autoCommit confirmed) := by
  unfold applyTransaction BatchTransaction.afterEffects
  split_ifs <;> rfl

lemma applyResidue_eq (effects : StatementSessionResidueEffects) (confirmed : Bool) :
    b.applyResidue effects confirmed =
      { b with
        sessionResidueState := b.sessionResidueState.afterStatement effects confirmed
        sessionResidueCleared :=
          b.sessionResidueCleared || (confirmed && effects.clearsAllSessionResidue) } := by
  cases confirmed <;> simp [applyResidue, SessionResidueState.afterStatement]

lemma applyNamedLock_eq (effect : StatementNamedLockEffect) (confirmed : Bool) :
    b.applyNamedLock effect confirmed =
      { b with
        namedLockDelta := b.namedLockDelta.applyNamed effect confirmed
        sawUncertainNamedLockRelease :=
          effect.uncertainAfter b.sawUncertainNamedLockRelease confirmed } := by
  obtain ⟨acquires, releasesOne, releasesAll⟩ := effect
  cases acquires <;> cases releasesOne <;> cases releasesAll <;> cases confirmed <;> rfl

variable (statement : Statement)

/-- The fields behind a statement that keeps the session. -/
theorem applyKeptSession_eq (confirmed : Bool) : b.applyKeptSession statement confirmed =
      let effects := statement.effectsInContext
      { b with
        sessionResidueState := b.sessionResidueState.afterStatement effects.sessionResidue confirmed
        sessionResidueCleared := b.sessionResidueCleared
          || (confirmed && effects.sessionResidue.clearsAllSessionResidue)
        tableLockDelta := b.tableLockDelta.apply effects.tableLock confirmed
        flushTableLockDelta := b.flushTableLockDelta.apply effects.flushTableLock confirmed
        backupLockDelta := b.backupLockDelta.apply effects.backupLock confirmed
        namedLockDelta := b.namedLockDelta.applyNamed effects.namedLock confirmed
        sawUncertainNamedLockRelease := effects.namedLock.uncertainAfter
          b.sawUncertainNamedLockRelease confirmed }.withTransaction
        (b.transaction.afterStatement (b.tableLockDelta = BatchLockDelta.mayHold) statement
          confirmed) := by
  have hhint : ∀ hint : TransactionStatementStateHint,
      (if confirmed && hint.requiresTransactionDecisionAfterSuccess then
        { b with requiresTransactionDecisionAfterSuccess := true } else b) =
        b.withTransaction (b.transaction.afterHint hint confirmed) := by
    intro hint
    unfold BatchTransaction.afterHint
    split_ifs <;> rfl
  simp only [applyKeptSession, hhint, applyResidue_eq, applyTableLock_eq, applyNamedLock_eq,
    applyControlOutcome_eq, applyTransaction_eq]
  rfl

/-! ### Whole statements -/

@[simp] lemma apply_successful :
    b.apply (.successful, statement) = b.applySuccessfulStatementEffects statement := rfl

@[simp] lemma apply_failed :
    b.apply (.failed, statement) = b.applyFailedStatementEffects statement := rfl

@[simp] lemma apply_interrupted :
    b.apply (.interrupted, statement) = b.applyInterruptedStatementEffects statement := rfl

/-- The batch that a statement meets: behind a release of the session it starts again. -/
def fresh : MySqlBatchSessionEffects :=
  if b.physicalSessionReleased then resetAfterPhysicalSessionRelease else b

@[simp] lemma fresh_physicalSessionReleased : b.fresh.physicalSessionReleased = false := by
  unfold fresh
  split_ifs with h
  · rfl
  · simpa using h

lemma fresh_of_not_released (h : b.physicalSessionReleased = false) : b.fresh = b := by
  simp [fresh, h]

/-- The batch that a statement meets, with what the statement asks of the server's probe. -/
def probed : MySqlBatchSessionEffects :=
  { b.fresh with
    serverTransactionProbeRequiresPreservation :=
      b.fresh.serverTransactionProbeRequiresPreservation
        || serverProbeRequiresTransactionPreservation statement.reading {}
          statement.effectsInContext }

lemma applyStatementEffects_eq (confirmed : Bool) : b.applyStatementEffects statement confirmed =
      if confirmed && statement.effectsInContext.transaction.releasesPhysicalSession then
        (b.probed statement).markPhysicalSessionReleased
      else (b.probed statement).applyKeptSession statement confirmed := by
  have hprobe : ∀ (x : MySqlBatchSessionEffects) (c : Bool),
      (if c then { x with serverTransactionProbeRequiresPreservation := true } else x) =
        { x with serverTransactionProbeRequiresPreservation :=
            x.serverTransactionProbeRequiresPreservation || c } := by
    intro x c
    cases c <;> simp
  simp only [applyStatementEffects, hprobe]
  rfl

/-- A statement that does not end with a release keeps the session. -/
lemma applyStatementEffects_of_kept {statement : Statement} {confirmed : Bool}
    (h : (confirmed && statement.effectsInContext.transaction.releasesPhysicalSession) = false) :
    b.applyStatementEffects statement confirmed =
      (b.probed statement).applyKeptSession statement confirmed := by
  simp [applyStatementEffects_eq, h]

/-- Putting effects into their context a second time changes nothing. -/
lemma applyFailedStatementEffects_eq : b.applyFailedStatementEffects statement =
      if statement.effectsInContext.transaction.hasImplicitCommit then
        (b.applyStatementEffects statement false).deferBatchDirtinessToServerProbe
      else b.applyStatementEffects statement false := by
  have hctx :
      ({ statement with effects := statement.effectsInContext } : Statement).effectsInContext
      = statement.effectsInContext := by
    unfold Statement.effectsInContext
    cases statement.reading.autocommitAssignment with
    | none => rfl
    | some transition => cases transition <;> rfl
  have hstmt : b.applyStatementEffects
      { statement with effects := statement.effectsInContext } false =
        b.applyStatementEffects statement false := by
    simp only [applyStatementEffects, applyKeptSession, hctx]
    rfl
  simp only [applyFailedStatementEffects, hstmt]

end MySqlBatchSessionEffects

end SpaceQuery.Session
