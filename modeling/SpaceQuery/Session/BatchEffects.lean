import SpaceQuery.Lib.Runs
import SpaceQuery.Session.RetainedState

/-!
The two accounts of what statements leave on a MySQL or MariaDB session, from
`transaction.rs`: the ledger that is carried from statement to statement
(`retainedSessionStateAfterStatement`), and the effects of a batch
(`MySqlBatchSessionEffects`), which are combined with the state before the batch at its
end.

What the analysis of the SQL text answers about a statement is data of the statement
(`StatementReading`), except for its words, from which the outcome of transaction control
is read here.
-/

namespace SpaceQuery.Session

/-! ### Effects of statements -/

/-- What a statement does to a transaction. -/
structure StatementTransactionEffects where
  clearsState : Bool := false
  opensOrPreservesState : Bool := false
  hasImplicitCommit : Bool := false
  startsState : Bool := false
  mayLeaveUncommittedWork : Bool := false
  releasesPhysicalSession : Bool := false
  deriving DecidableEq

/-- `StatementTableLockEffect`, `StatementFlushTableLockEffect` and
`StatementBackupLockEffect`. -/
inductive StatementLockEffect
  | none | acquires | releases
  deriving DecidableEq

/-- What a statement does to named locks. -/
structure StatementNamedLockEffect where
  acquires : Bool := false
  releasesOne : Bool := false
  releasesAll : Bool := false
  deriving DecidableEq

/-- What a statement does to its session. -/
structure StatementSessionEffects where
  stateHint : TransactionStatementStateHint := {}
  transaction : StatementTransactionEffects := {}
  sessionResidue : StatementSessionResidueEffects := {}
  tableLock : StatementLockEffect := .none
  flushTableLock : StatementLockEffect := .none
  backupLock : StatementLockEffect := .none
  namedLock : StatementNamedLockEffect := {}
  deriving DecidableEq

/-! ### Transaction control -/

/-- What transaction control does. -/
inductive TransactionControlOutcome
  | notTransactionControl | clean | startsTransaction | preservesTransaction | requiresDecision
  | releasesSession
  deriving DecidableEq

/-- The loop of `mysql_commit_or_rollback_control_outcome`, on the words that are left. -/
def commitOrRollbackLoop :
    List String → (startsChain releasesSession : Bool) → TransactionControlOutcome
  | [], startsChain, releasesSession =>
    if releasesSession then .releasesSession
    else if startsChain then .startsTransaction
    else .clean
  | "AND" :: "CHAIN" :: rest, _, releasesSession => commitOrRollbackLoop rest true releasesSession
  | "AND" :: "NO" :: "CHAIN" :: rest, _, releasesSession =>
    commitOrRollbackLoop rest false releasesSession
  | "NO" :: "RELEASE" :: rest, startsChain, releasesSession =>
    commitOrRollbackLoop rest startsChain releasesSession
  | "RELEASE" :: rest, startsChain, _ => commitOrRollbackLoop rest startsChain true
  | _ :: _, _, _ => .requiresDecision

variable (words : List String)

def mysqlCommitOrRollbackControlOutcome : TransactionControlOutcome :=
  -- `skip_optional_work`
  let rest := if words[1]? = some "WORK" then words.drop 2 else words.drop 1
  if words.head? = some "ROLLBACK" ∧ rest.head? = some "TO" then .preservesTransaction
  else commitOrRollbackLoop rest false false

def mysqlXaControlOutcome : TransactionControlOutcome :=
  match words[1]? with
  | some "START" | some "BEGIN" => .startsTransaction
  | some "END" | some "PREPARE" => .preservesTransaction
  | some "COMMIT" | some "ROLLBACK" => .clean
  | some "RECOVER" | none => .notTransactionControl
  | some _ => .requiresDecision

def mysqlTransactionControlOutcome : TransactionControlOutcome :=
  match words with
  | "BEGIN" :: "NOT" :: "ATOMIC" :: _ => .notTransactionControl
  | "START" :: "TRANSACTION" :: _ => .startsTransaction
  | "BEGIN" :: _ => .startsTransaction
  | "SAVEPOINT" :: _ => .preservesTransaction
  | "RELEASE" :: "SAVEPOINT" :: _ => .preservesTransaction
  | "COMMIT" :: _ | "ROLLBACK" :: _ => mysqlCommitOrRollbackControlOutcome words
  | "XA" :: _ => mysqlXaControlOutcome words
  | _ => .notTransactionControl

/-! ### Statements -/

/-- What the analysis of the SQL text answers about a statement. -/
structure StatementReading where
  /-- The words of the statement outside literals and comments. -/
  words : List String
  /-- For an assignment to `autocommit`, whether it switches it on, if that is known. -/
  autocommitAssignment : Option (Option Bool) := none
  consumesNextTransactionModeOverride : Bool := false
  startsReadTransaction : Bool := false
  kind : SqlKind
  deriving DecidableEq

/-- A statement, by what the batch reads of it. -/
structure Statement where
  reading : StatementReading
  autoCommit : Bool
  effects : StatementSessionEffects
  deriving DecidableEq

namespace Statement

variable (statement : Statement)

/-- `mysql_statement_session_effects_for_execution_context_for_db_type`. -/
def effectsInContext : StatementSessionEffects :=
  let effects := statement.effects
  let effects :=
    match statement.reading.autocommitAssignment with
    | none => effects
    | some (some transitionsToOn) =>
      { effects with stateHint := { effects.stateHint with clearsSessionState := transitionsToOn } }
    | some none =>
      { effects with
        stateHint := { effects.stateHint with requiresTransactionDecisionAfterSuccess := true } }
  { effects with
    sessionResidue := { effects.sessionResidue with
      consumesNextTransactionModeOverride :=
        statement.reading.consumesNextTransactionModeOverride } }

def controlOutcome : TransactionControlOutcome :=
  mysqlTransactionControlOutcome statement.reading.words

end Statement

/-- `mysql_statement_is_read_only_transaction_probe_noise_for_db_type`. -/
def isReadOnlyTransactionProbeNoise (reading : StatementReading)
    (effects : StatementSessionEffects) : Bool :=
  reading.startsReadTransaction && !effects.transaction.hasImplicitCommit
    && !effects.transaction.startsState && !effects.transaction.opensOrPreservesState
    && !effects.transaction.mayLeaveUncommittedWork
    && !effects.transaction.releasesPhysicalSession
    && !effects.sessionResidue.mayLeaveSessionResidue
    && effects.tableLock ≠ .acquires && effects.flushTableLock ≠ .acquires
    && effects.backupLock ≠ .acquires && !effects.namedLock.acquires
    && statementCancelCanReuseSession effects.stateHint

/-- `mysql_statement_server_probe_requires_transaction_preservation_for_db_type`. -/
def serverProbeRequiresTransactionPreservation (reading : StatementReading)
    (priorState : RetainedSessionState) (effects : StatementSessionEffects) : Bool :=
  if priorState.mayHaveUncommittedWork || effects.transaction.startsState
      || effects.transaction.opensOrPreservesState || effects.transaction.mayLeaveUncommittedWork
      || effects.stateHint.requiresTransactionDecisionAfterSuccess then true
  else if effects.sessionResidue.clearsAllSessionResidue || effects.transaction.hasImplicitCommit
      || effects.stateHint.clearsSessionState || effects.transaction.clearsState
      || effects.transaction.releasesPhysicalSession
      || isReadOnlyTransactionProbeNoise reading effects then false
  else
    match reading.kind with
    | .dml | .plsqlOrProcedure | .script | .unknown => true
    | .selectLike | .ddl | .sessionControl | .transactionControl => false

section Ledger

variable (priorState : TransactionSessionState) (effects : StatementSessionEffects)

def mayNeedPreservationAfterStatement (serverReportsUncommittedWork statementFailed
    serverProbeUsedFallback : Bool) : Bool :=
  let clearsTransactionState := effects.transaction.hasImplicitCommit
    || (!statementFailed
      && (effects.stateHint.clearsSessionState || effects.transaction.clearsState))
  serverReportsUncommittedWork || effects.transaction.startsState
    || effects.transaction.opensOrPreservesState
    || (priorState.mayHaveUncommittedWork && !clearsTransactionState)
    || (serverProbeUsedFallback && effects.stateHint.requiresRetentionWhenAutocommitOff)

def requiresTransactionDecisionAfterStatement (statementFailed
    interruptionRequiresTransactionDecision : Bool) : Bool :=
  if interruptionRequiresTransactionDecision then true
  else if effects.transaction.hasImplicitCommit then false
  else if statementFailed then priorState.requiresTransactionDecision
  else if effects.stateHint.clearsSessionState || effects.transaction.clearsState then false
  else priorState.requiresTransactionDecision
    || effects.stateHint.requiresTransactionDecisionAfterSuccess

def transactionSessionStateAfterStatement (serverReportsUncommittedWork statementFailed
    serverProbeUsedFallback interruptionRequiresTransactionDecision : Bool) :
    TransactionSessionState :=
  if priorState = .invalidSession then .invalidSession
  else
    let requiresDecision := requiresTransactionDecisionAfterStatement priorState effects
      statementFailed interruptionRequiresTransactionDecision
    let requiresDecision := requiresDecision || (serverReportsUncommittedWork
      && priorState.requiresTransactionDecision && effects.transaction.hasImplicitCommit)
    let mayNeedPreservation := mayNeedPreservationAfterStatement priorState effects
      serverReportsUncommittedWork statementFailed serverProbeUsedFallback
    .fromFlags (mayNeedPreservation || requiresDecision) requiresDecision

end Ledger

/-- Whether a lock is held behind a successful statement: the table, flush and backup
locks. -/
def StatementLockEffect.heldAfter (effect : StatementLockEffect) (held : Bool) : Bool :=
  match effect with
  | .releases => false
  | .acquires => true
  | .none => held

/-- Whether a named lock is held behind a successful statement. -/
def StatementNamedLockEffect.heldAfter (effect : StatementNamedLockEffect) (held : Bool) : Bool :=
  if effect.acquires then true
  else if effect.releasesAll then false
  else held

def residueStateAfterStatement (priorState : SessionResidueState)
    (effects : StatementSessionEffects) (statementFailed : Bool) : SessionResidueState :=
  if statementFailed then
    priorState.withStatementDiagnosticsCleared.mergedWith
      (.fromEffects effects.sessionResidue.withoutStatementDiagnostics)
  else if effects.transaction.releasesPhysicalSession then {}
  else priorState.afterSuccessfulEffects effects.sessionResidue

def lockStateAfterStatement (priorState : SessionLockState) (effects : StatementSessionEffects)
    (statementFailed : Bool) : SessionLockState :=
  if statementFailed then
    { mayHoldTableLock := priorState.mayHoldTableLock || effects.tableLock = .acquires
      mayHoldFlushTableLock :=
        priorState.mayHoldFlushTableLock || effects.flushTableLock = .acquires
      mayHoldBackupLock := priorState.mayHoldBackupLock || effects.backupLock = .acquires
      mayHoldNamedLock := priorState.mayHoldNamedLock || effects.namedLock.acquires }
  else if effects.transaction.releasesPhysicalSession then {}
  else
    { mayHoldTableLock := effects.tableLock.heldAfter priorState.mayHoldTableLock
      mayHoldFlushTableLock := effects.flushTableLock.heldAfter priorState.mayHoldFlushTableLock
      mayHoldBackupLock := effects.backupLock.heldAfter priorState.mayHoldBackupLock
      mayHoldNamedLock := effects.namedLock.heldAfter priorState.mayHoldNamedLock }

def retainedSessionStateAfterStatement (priorState : RetainedSessionState)
    (effects : StatementSessionEffects) (serverReportsUncommittedWork statementFailed
    serverProbeUsedFallback interruptionRequiresTransactionDecision : Bool) :
    RetainedSessionState :=
  let releasedKnownTableLock := !statementFailed && !serverProbeUsedFallback
    && effects.tableLock = .releases && priorState.lockState.mayHoldTableLock
    && !effects.transaction.startsState
  let transactionState :=
    if priorState.transactionState = .invalidSession then .invalidSession
    else if releasedKnownTableLock then
      if effects.stateHint.clearsSessionState then .fromFlags serverReportsUncommittedWork false
      else
        .fromFlags (serverReportsUncommittedWork || priorState.mayHaveUncommittedWork)
          (priorState.transactionState.requiresTransactionDecision
            || interruptionRequiresTransactionDecision)
    else
      transactionSessionStateAfterStatement priorState.transactionState effects
        serverReportsUncommittedWork statementFailed serverProbeUsedFallback
        interruptionRequiresTransactionDecision
  { transactionState := transactionState
    sessionResidueState :=
      residueStateAfterStatement priorState.sessionResidueState effects statementFailed
    lockState := lockStateAfterStatement priorState.lockState effects statementFailed }

/-! ### The effects of a batch -/

/-- What became of the transaction before the batch. -/
inductive BatchPriorTransactionEffect
  | preserve
  | clear
  | clearUnlessServerDisagrees
  | clearIfPriorTableLock (mayHaveUncommittedWorkAfterClear : Bool)
  deriving DecidableEq

namespace BatchPriorTransactionEffect

variable (effect : BatchPriorTransactionEffect) (priorState : RetainedSessionState)

def clearsPrior : Bool :=
  match effect with
  | preserve => false
  | clear | clearUnlessServerDisagrees => true
  | clearIfPriorTableLock _ => priorState.lockState.mayHoldTableLock

def clearsPriorConfirmed : Bool :=
  match effect with
  | clearUnlessServerDisagrees => false
  | other => other.clearsPrior priorState

def clearIsTentative : Bool :=
  effect = clearUnlessServerDisagrees

def tentativelyCleared : BatchPriorTransactionEffect → BatchPriorTransactionEffect
  | clear => clear
  | clearIfPriorTableLock after => clearIfPriorTableLock after
  | preserve | clearUnlessServerDisagrees => clearUnlessServerDisagrees

def mayHaveUncommittedWorkAfterBatch (batchMayHaveUncommittedWork : Bool) : Bool :=
  match effect with
  | clear | clearUnlessServerDisagrees => batchMayHaveUncommittedWork
  | clearIfPriorTableLock after =>
    if priorState.lockState.mayHoldTableLock then after
    else priorState.mayHaveUncommittedWork || batchMayHaveUncommittedWork
  | preserve => priorState.mayHaveUncommittedWork || batchMayHaveUncommittedWork

def withDirtyWorkAfterConditionalClear : BatchPriorTransactionEffect → BatchPriorTransactionEffect
  | clearIfPriorTableLock _ => clearIfPriorTableLock true
  | other => other

end BatchPriorTransactionEffect

/-- `BatchTableLockDelta`, `BatchFlushTableLockDelta`, `BatchBackupLockDelta` and
`BatchNamedLockDelta`. -/
inductive BatchLockDelta
  | preserve | mayHold | released
  deriving DecidableEq

def BatchLockDelta.afterBatch (delta : BatchLockDelta) (held : Bool) : Bool :=
  match delta with
  | preserve => held
  | mayHold => true
  | released => false

/-- The flush and backup locks behind a statement. -/
def BatchLockDelta.apply (delta : BatchLockDelta) (effect : StatementLockEffect)
    (confirmed : Bool) : BatchLockDelta :=
  if confirmed && effect = .releases then .released
  else if effect = .acquires then .mayHold
  else delta

/-- What a batch has done to its session so far. -/
structure MySqlBatchSessionEffects where
  mayHaveUncommittedWork : Bool := false
  requiresTransactionDecisionAfterSuccess : Bool := false
  serverTransactionProbeRequiresPreservation : Bool := false
  physicalSessionReleased : Bool := false
  interruptedStatementRequiresPhysicalDiscard : Bool := false
  priorTransactionEffect : BatchPriorTransactionEffect := .preserve
  sessionResidueState : SessionResidueState := {}
  sessionResidueCleared : Bool := false
  tableLockDelta : BatchLockDelta := .preserve
  flushTableLockDelta : BatchLockDelta := .preserve
  backupLockDelta : BatchLockDelta := .preserve
  namedLockDelta : BatchLockDelta := .preserve
  sawUncertainNamedLockRelease : Bool := false
  deriving DecidableEq

namespace MySqlBatchSessionEffects

variable (b : MySqlBatchSessionEffects)

def markTransactionDirty : MySqlBatchSessionEffects :=
  { b with
    mayHaveUncommittedWork := true
    priorTransactionEffect := b.priorTransactionEffect.withDirtyWorkAfterConditionalClear }

def markTransactionClean : MySqlBatchSessionEffects :=
  { b with mayHaveUncommittedWork := false, priorTransactionEffect := .clear }

def markPriorTransactionClean : MySqlBatchSessionEffects :=
  { b with priorTransactionEffect := .clear }

def markPhysicalSessionReleased : MySqlBatchSessionEffects :=
  { b.markTransactionClean with
    physicalSessionReleased := true
    requiresTransactionDecisionAfterSuccess := false
    serverTransactionProbeRequiresPreservation := false
    sessionResidueState := {}
    sessionResidueCleared := true
    tableLockDelta := .released
    flushTableLockDelta := .released
    backupLockDelta := .released
    namedLockDelta := .released
    sawUncertainNamedLockRelease := false }

/-- The effects behind a release of the physical session. -/
def resetAfterPhysicalSessionRelease : MySqlBatchSessionEffects :=
  { priorTransactionEffect := .clear
    sessionResidueCleared := true
    tableLockDelta := .released
    flushTableLockDelta := .released
    backupLockDelta := .released
    namedLockDelta := .released }

def markConditionalTableLockTransactionClear : MySqlBatchSessionEffects :=
  if b.priorTransactionEffect ≠ .clear then
    { b with priorTransactionEffect := .clearIfPriorTableLock false }
  else b

/-- The part of `apply_statement_effects` that updates the residue. -/
def applyResidue (effects : StatementSessionResidueEffects) (confirmed : Bool) :
    MySqlBatchSessionEffects :=
  if confirmed then
    { b with
      sessionResidueState := b.sessionResidueState.afterSuccessfulEffects effects
      sessionResidueCleared := b.sessionResidueCleared || effects.clearsAllSessionResidue }
  else
    { b with
      sessionResidueState := b.sessionResidueState.withStatementDiagnosticsCleared.mergedWith
        (.fromEffects effects.withoutStatementDiagnostics) }

/-- The part that updates the ordinary table lock. -/
def applyTableLock (effect : StatementLockEffect) (confirmed hadKnownTableLock : Bool) :
    MySqlBatchSessionEffects :=
  if confirmed && effect = .releases then
    let b := { b with tableLockDelta := .released }
    if hadKnownTableLock then b.markTransactionClean
    else b.markConditionalTableLockTransactionClear
  else if effect = .acquires then { b with tableLockDelta := .mayHold }
  else b

/-- The part that updates the named locks. -/
def applyNamedLock (effect : StatementNamedLockEffect) (confirmed : Bool) :
    MySqlBatchSessionEffects :=
  let b :=
    if confirmed && effect.releasesAll then
      { b with namedLockDelta := .released, sawUncertainNamedLockRelease := false }
    else b
  if effect.acquires then { b with namedLockDelta := .mayHold }
  else if effect.releasesOne && !effect.releasesAll then
    { b with sawUncertainNamedLockRelease := true }
  else b

/-- The part that follows the outcome of transaction control. -/
def applyControlOutcome (outcome : TransactionControlOutcome) (confirmed : Bool) :
    MySqlBatchSessionEffects :=
  match outcome with
  | .clean | .releasesSession =>
    if confirmed then
      { b.markTransactionClean with requiresTransactionDecisionAfterSuccess := false }
    else b
  | .startsTransaction => b.markPriorTransactionClean.markTransactionDirty
  | .requiresDecision => b.markTransactionDirty
  | .preservesTransaction | .notTransactionControl => b

/-- The last part: the session state is cleared, or the statement leaves work. -/
def applyTransaction (effects : StatementSessionEffects) (autoCommit confirmed : Bool) :
    MySqlBatchSessionEffects :=
  if confirmed && effects.stateHint.clearsSessionState then
    { b.markTransactionClean with requiresTransactionDecisionAfterSuccess := false }
  else if effects.transaction.startsState
      || (!autoCommit && effects.transaction.mayLeaveUncommittedWork) then
    b.markTransactionDirty
  else b

variable (statement : Statement)

/-- `apply_statement_effects` behind the check for a release of the session. -/
def applyKeptSession (confirmed : Bool) : MySqlBatchSessionEffects :=
  let effects := statement.effectsInContext
  let hadKnownTableLock := b.tableLockDelta = .mayHold
  let b :=
    if confirmed && effects.stateHint.requiresTransactionDecisionAfterSuccess then
      { b with requiresTransactionDecisionAfterSuccess := true }
    else b
  let b := b.applyResidue effects.sessionResidue confirmed
  let b := b.applyTableLock effects.tableLock confirmed hadKnownTableLock
  let b := { b with
    flushTableLockDelta := b.flushTableLockDelta.apply effects.flushTableLock confirmed }
  let b := { b with backupLockDelta := b.backupLockDelta.apply effects.backupLock confirmed }
  let b := b.applyNamedLock effects.namedLock confirmed
  let b := b.applyControlOutcome statement.controlOutcome confirmed
  b.applyTransaction effects statement.autoCommit confirmed

def applyStatementEffects (confirmed : Bool) : MySqlBatchSessionEffects :=
  let b := if b.physicalSessionReleased then resetAfterPhysicalSessionRelease else b
  let effects := statement.effectsInContext
  let b :=
    if serverProbeRequiresTransactionPreservation statement.reading {} effects then
      { b with serverTransactionProbeRequiresPreservation := true }
    else b
  if confirmed && effects.transaction.releasesPhysicalSession then b.markPhysicalSessionReleased
  else b.applyKeptSession statement confirmed

def applySuccessfulStatementEffects : MySqlBatchSessionEffects :=
  b.applyStatementEffects statement true

def applyInterruptedStatementEffects : MySqlBatchSessionEffects :=
  let b := b.applyStatementEffects statement false
  if !statementCancelCanReuseSession statement.effectsInContext.stateHint then
    { b with interruptedStatementRequiresPhysicalDiscard := true }
  else b

def deferBatchDirtinessToServerProbe : MySqlBatchSessionEffects :=
  { b with
    mayHaveUncommittedWork := false
    priorTransactionEffect := b.priorTransactionEffect.tentativelyCleared
    requiresTransactionDecisionAfterSuccess := false }

/-- The effects in context are put into the context once more, which changes nothing. -/
def applyFailedStatementEffects : MySqlBatchSessionEffects :=
  let effects := statement.effectsInContext
  let b := b.applyStatementEffects { statement with effects := effects } false
  if effects.transaction.hasImplicitCommit then b.deferBatchDirtinessToServerProbe else b

/-! ### The end of a batch -/

variable (priorState : RetainedSessionState)

def priorTransactionStateAfterBatch : TransactionSessionState :=
  if priorState.transactionState = .invalidSession then .invalidSession
  else if b.priorTransactionEffect.clearsPrior priorState then .clean
  else priorState.transactionState

def mayHaveUncommittedWorkAfterBatch : Bool :=
  b.priorTransactionEffect.mayHaveUncommittedWorkAfterBatch priorState b.mayHaveUncommittedWork

def sessionResidueStateAfterBatch : SessionResidueState :=
  if b.sessionResidueCleared then b.sessionResidueState
  else priorState.sessionResidueState.mergedWith b.sessionResidueState

/-- The four `may_hold_*_lock_after_batch`. -/
def lockStateAfterBatch : SessionLockState where
  mayHoldTableLock := b.tableLockDelta.afterBatch priorState.lockState.mayHoldTableLock
  mayHoldFlushTableLock :=
    b.flushTableLockDelta.afterBatch priorState.lockState.mayHoldFlushTableLock
  mayHoldBackupLock := b.backupLockDelta.afterBatch priorState.lockState.mayHoldBackupLock
  mayHoldNamedLock := b.namedLockDelta.afterBatch priorState.lockState.mayHoldNamedLock

def serverTransactionProbeReportsUncommittedWorkAfterBatch
    (serverReportsUncommittedWork : Bool) : Bool :=
  serverReportsUncommittedWork && (b.serverTransactionProbeRequiresPreservation
      || b.mayHaveUncommittedWorkAfterBatch priorState
      || (b.priorTransactionStateAfterBatch priorState).requiresTransactionDecision
      || b.requiresTransactionDecisionAfterSuccess
      || (b.priorTransactionEffect.clearIsTentative && priorState.mayHaveUncommittedWork))

def retainedStateAfterSuccessfulBatch (serverReportsUncommittedWork : Bool) :
    RetainedSessionState :=
  let priorTransactionState := b.priorTransactionStateAfterBatch priorState
  let serverReportsUncommittedWork :=
    b.serverTransactionProbeReportsUncommittedWorkAfterBatch priorState serverReportsUncommittedWork
  let decisionPreservedAfterFailedImplicitCommit := serverReportsUncommittedWork
    && b.priorTransactionEffect.clearIsTentative
    && priorState.transactionState.requiresTransactionDecision
  { transactionState :=
      if priorTransactionState = .invalidSession then .invalidSession
      else
        .fromFlags (b.mayHaveUncommittedWorkAfterBatch priorState || serverReportsUncommittedWork)
          (decisionPreservedAfterFailedImplicitCommit
            || priorTransactionState.requiresTransactionDecision
            || b.requiresTransactionDecisionAfterSuccess)
    sessionResidueState := b.sessionResidueStateAfterBatch priorState
    lockState := b.lockStateAfterBatch priorState }

/-- The transaction state in `retained_state_after_interrupted_batch`. -/
def transactionStateAfterInterruptedBatch : TransactionSessionState :=
  let priorTransactionState := b.priorTransactionStateAfterBatch priorState
  let priorMayHaveUncommittedWork := !b.priorTransactionEffect.clearsPriorConfirmed priorState
    && priorState.mayHaveUncommittedWork
  let transactionRequiresDecision := priorTransactionState.requiresTransactionDecision
    || b.requiresTransactionDecisionAfterSuccess
    || (b.priorTransactionEffect.clearIsTentative
      && priorState.transactionState.requiresTransactionDecision)
    || b.mayHaveUncommittedWorkAfterBatch priorState
    || (b.sawUncertainNamedLockRelease && priorMayHaveUncommittedWork)
  if priorTransactionState = .invalidSession then .invalidSession
  else if transactionRequiresDecision then .decisionRequired
  else if priorMayHaveUncommittedWork then priorState.transactionState
  else .clean

/-- The state that `retained_state_after_interrupted_batch` computes. -/
def stateAfterInterruptedBatch : RetainedSessionState where
  transactionState := b.transactionStateAfterInterruptedBatch priorState
  sessionResidueState := b.sessionResidueStateAfterBatch priorState
  lockState := b.lockStateAfterBatch priorState

def retainedStateAfterInterruptedBatch : Option RetainedSessionState :=
  let retainedState := b.stateAfterInterruptedBatch priorState
  if retainedState.requiresPhysicalSessionPreservation then some retainedState else none

end MySqlBatchSessionEffects

/-- What becomes of a session. -/
inductive RetainedSessionOutcome
  | retain (state : RetainedSessionState)
  | discardPhysical (state : RetainedSessionState)
  deriving DecidableEq

/-- What becomes of the session of an interrupted batch. -/
structure MySqlInterruptedBatchSessionDecision where
  outcome : RetainedSessionOutcome
  requiresSessionInfoSync : Bool
  deriving DecidableEq

def MySqlBatchSessionEffects.decisionAfterInterruptedBatch (b : MySqlBatchSessionEffects)
    (priorState : RetainedSessionState) (scriptMode : Bool) :
    MySqlInterruptedBatchSessionDecision :=
  if b.physicalSessionReleased then
    ⟨.discardPhysical ((b.retainedStateAfterInterruptedBatch priorState).getD {}), false⟩
  else
    match b.retainedStateAfterInterruptedBatch priorState with
    | some retainedState =>
      if b.interruptedStatementRequiresPhysicalDiscard
          && !retainedState.transactionResolutionActionAllowed then
        ⟨.discardPhysical retainedState, false⟩
      else
        ⟨.retain (if b.interruptedStatementRequiresPhysicalDiscard then
          retainedState.withUntrackedSessionState else retainedState), true⟩
    | none =>
      if scriptMode then ⟨.discardPhysical {}, false⟩
      else if b.interruptedStatementRequiresPhysicalDiscard then ⟨.discardPhysical {}, false⟩
      else ⟨.retain priorState, false⟩

/-! ### Runs of a batch -/

/-- How a statement of a batch ended. -/
inductive StatementResult
  | successful | failed | interrupted
  deriving DecidableEq

namespace MySqlBatchSessionEffects

/-- A statement of a batch is applied. -/
def apply (b : MySqlBatchSessionEffects) (event : StatementResult × Statement) :
    MySqlBatchSessionEffects :=
  match event.1 with
  | .successful => b.applySuccessfulStatementEffects event.2
  | .failed => b.applyFailedStatementEffects event.2
  | .interrupted => b.applyInterruptedStatementEffects event.2

/-- The effects of a batch. -/
def ofEvents (events : List (StatementResult × Statement)) : MySqlBatchSessionEffects :=
  Runs.run apply {} events

end MySqlBatchSessionEffects

end SpaceQuery.Session
