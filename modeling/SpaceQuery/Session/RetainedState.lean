import Mathlib.Tactic

/-!
What the application knows about a database session that a tab retains, from
`transaction.rs`: the state of its transaction, the residue that statements left on it,
and the locks it may hold.
-/

namespace SpaceQuery.Session

/-! ### Transactions -/

/-- Where a transaction stands. -/
inductive TransactionSessionState
  | clean | maybeDirty | blockedDirty | decisionRequired | invalidSession
  deriving DecidableEq

namespace TransactionSessionState

def conservativeRank : TransactionSessionState → ℕ
  | clean => 0
  | maybeDirty => 1
  | blockedDirty => 2
  | decisionRequired => 3
  | invalidSession => 4

def fromFlags (mayHaveUncommittedWork requiresDecision : Bool) : TransactionSessionState :=
  if requiresDecision then decisionRequired
  else if mayHaveUncommittedWork then maybeDirty
  else clean

def mayHaveUncommittedWork : TransactionSessionState → Bool
  | clean => false
  | maybeDirty | blockedDirty | decisionRequired | invalidSession => true

def requiresTransactionDecision : TransactionSessionState → Bool
  | blockedDirty | decisionRequired => true
  | clean | maybeDirty | invalidSession => false

def requiresResolution (state : TransactionSessionState) : Bool := state ≠ clean

def conservativeMerge (state other : TransactionSessionState) : TransactionSessionState :=
  if state.conservativeRank < other.conservativeRank then other else state

end TransactionSessionState

/-! ### Residue -/

/-- What a session may have left behind. -/
structure SessionResidueState where
  mayHaveTemporaryTable : Bool := false
  mayHavePreparedStatement : Bool := false
  mayHaveUserVariable : Bool := false
  mayHaveSessionSetting : Bool := false
  mayHaveStatementDiagnostics : Bool := false
  mayHaveNextTransactionModeOverride : Bool := false
  mayHaveTransactionModeOverride : Bool := false
  mayHaveUnknownSessionState : Bool := false
  deriving DecidableEq

/-- What a statement does to the residue. -/
structure StatementSessionResidueEffects where
  createsTemporaryTable : Bool := false
  createsPreparedStatement : Bool := false
  setsUserVariable : Bool := false
  setsSessionSetting : Bool := false
  setsFoundRows : Bool := false
  setsStatementDiagnostics : Bool := false
  clearsStatementDiagnostics : Bool := false
  setsNextTransactionModeOverride : Bool := false
  setsTransactionModeOverride : Bool := false
  consumesNextTransactionModeOverride : Bool := false
  mayLeaveUnknownState : Bool := false
  clearsAllSessionResidue : Bool := false
  deriving DecidableEq

namespace StatementSessionResidueEffects

variable (effects : StatementSessionResidueEffects)

def mayLeaveSessionResidue : Bool :=
  effects.createsTemporaryTable || effects.createsPreparedStatement || effects.setsUserVariable
    || effects.setsSessionSetting || effects.setsStatementDiagnostics
    || effects.setsNextTransactionModeOverride || effects.setsTransactionModeOverride
    || effects.mayLeaveUnknownState

def withoutStatementDiagnostics : StatementSessionResidueEffects :=
  { effects with
    setsFoundRows := false
    setsStatementDiagnostics := false
    clearsStatementDiagnostics := false }

end StatementSessionResidueEffects

namespace SessionResidueState

variable (s other : SessionResidueState)

def fromEffects (effects : StatementSessionResidueEffects) : SessionResidueState where
  mayHaveTemporaryTable := effects.createsTemporaryTable
  mayHavePreparedStatement := effects.createsPreparedStatement
  mayHaveUserVariable := effects.setsUserVariable
  mayHaveSessionSetting := effects.setsSessionSetting
  mayHaveStatementDiagnostics := effects.setsStatementDiagnostics
  mayHaveNextTransactionModeOverride := effects.setsNextTransactionModeOverride
  mayHaveTransactionModeOverride := effects.setsTransactionModeOverride
  mayHaveUnknownSessionState := effects.mayLeaveUnknownState

def mergedWith : SessionResidueState where
  mayHaveTemporaryTable := s.mayHaveTemporaryTable || other.mayHaveTemporaryTable
  mayHavePreparedStatement := s.mayHavePreparedStatement || other.mayHavePreparedStatement
  mayHaveUserVariable := s.mayHaveUserVariable || other.mayHaveUserVariable
  mayHaveSessionSetting := s.mayHaveSessionSetting || other.mayHaveSessionSetting
  mayHaveStatementDiagnostics :=
    s.mayHaveStatementDiagnostics || other.mayHaveStatementDiagnostics
  mayHaveNextTransactionModeOverride :=
    s.mayHaveNextTransactionModeOverride || other.mayHaveNextTransactionModeOverride
  mayHaveTransactionModeOverride :=
    s.mayHaveTransactionModeOverride || other.mayHaveTransactionModeOverride
  mayHaveUnknownSessionState := s.mayHaveUnknownSessionState || other.mayHaveUnknownSessionState

def withStatementDiagnosticsCleared : SessionResidueState :=
  { s with mayHaveStatementDiagnostics := false }

def afterSuccessfulEffects (effects : StatementSessionResidueEffects) : SessionResidueState :=
  if effects.clearsAllSessionResidue then {}
  else
    let s :=
      if effects.clearsStatementDiagnostics then { s with mayHaveStatementDiagnostics := false }
      else s
    let s :=
      if effects.consumesNextTransactionModeOverride then
        { s with mayHaveNextTransactionModeOverride := false }
      else s
    s.mergedWith (fromEffects effects)

def mayHaveUntrackedSessionState : Bool :=
  s.mayHaveTemporaryTable || s.mayHavePreparedStatement || s.mayHaveUserVariable
    || s.mayHaveSessionSetting || s.mayHaveStatementDiagnostics || s.mayHaveUnknownSessionState

def requiresResolution : Bool := s.mayHaveUntrackedSessionState

def withUntrackedSessionState : SessionResidueState := { s with mayHaveUnknownSessionState := true }

def requiresPhysicalSessionPreservation : Bool :=
  s.requiresResolution || s.mayHaveNextTransactionModeOverride || s.mayHaveTransactionModeOverride

end SessionResidueState

/-! ### Locks -/

/-- The locks that a session may hold. -/
structure SessionLockState where
  mayHoldTableLock : Bool := false
  mayHoldFlushTableLock : Bool := false
  mayHoldBackupLock : Bool := false
  mayHoldNamedLock : Bool := false
  deriving DecidableEq

namespace SessionLockState

variable (s other : SessionLockState)

def mergedWith : SessionLockState where
  mayHoldTableLock := s.mayHoldTableLock || other.mayHoldTableLock
  mayHoldFlushTableLock := s.mayHoldFlushTableLock || other.mayHoldFlushTableLock
  mayHoldBackupLock := s.mayHoldBackupLock || other.mayHoldBackupLock
  mayHoldNamedLock := s.mayHoldNamedLock || other.mayHoldNamedLock

def mayHoldSessionLock : Bool :=
  s.mayHoldTableLock || s.mayHoldFlushTableLock || s.mayHoldBackupLock || s.mayHoldNamedLock

def requiresResolution : Bool := s.mayHoldSessionLock

end SessionLockState

/-! ### Retained sessions -/

/-- What is known of a session that is kept. -/
structure RetainedSessionState where
  transactionState : TransactionSessionState := .clean
  sessionResidueState : SessionResidueState := {}
  lockState : SessionLockState := {}
  deriving DecidableEq

namespace RetainedSessionState

variable (s other : RetainedSessionState)

def withTransactionState (transactionState : TransactionSessionState) : RetainedSessionState :=
  { s with transactionState }

def conservativeMerge : RetainedSessionState where
  transactionState := s.transactionState.conservativeMerge other.transactionState
  sessionResidueState := s.sessionResidueState.mergedWith other.sessionResidueState
  lockState := s.lockState.mergedWith other.lockState

def mayHaveUncommittedWork : Bool := s.transactionState.mayHaveUncommittedWork

def requiresResolution : Bool :=
  s.transactionState.requiresResolution || s.sessionResidueState.requiresResolution
    || s.lockState.requiresResolution

/-- `capabilities().can_commit_or_rollback`. -/
def transactionResolutionActionAllowed : Bool :=
  match s.transactionState with
  | .maybeDirty | .blockedDirty | .decisionRequired => true
  | .clean | .invalidSession => false

def withUntrackedSessionState : RetainedSessionState :=
  { s with sessionResidueState := s.sessionResidueState.withUntrackedSessionState }

def requiresPhysicalSessionPreservation : Bool :=
  s.requiresResolution || s.sessionResidueState.requiresPhysicalSessionPreservation

end RetainedSessionState

/-! ### Statements -/

/-- What the text of a statement says of its session. -/
structure TransactionStatementStateHint where
  clearsSessionState : Bool := false
  mayLeaveSessionBoundState : Bool := false
  mayLeaveUntrackedSessionState : Bool := false
  mayHoldSessionLock : Bool := false
  requiresRetentionWhenAutocommitOff : Bool := false
  requiresTransactionDecisionAfterSuccess : Bool := false
  changesAutoCommit : Bool := false
  deriving DecidableEq

def statementCancelCanReuseSession (hint : TransactionStatementStateHint) : Bool :=
  !hint.clearsSessionState && !hint.mayLeaveSessionBoundState
    && !hint.mayLeaveUntrackedSessionState && !hint.mayHoldSessionLock
    && !hint.requiresRetentionWhenAutocommitOff && !hint.requiresTransactionDecisionAfterSuccess
    && !hint.changesAutoCommit

/-- The kinds of statements. -/
inductive SqlKind
  | selectLike | dml | ddl | sessionControl | plsqlOrProcedure | script | transactionControl
  | unknown
  deriving DecidableEq

namespace SqlKind

def isSelectLike : SqlKind → Bool
  | selectLike => true
  | _ => false

def isDmlOrDdlOrPlsqlOrScript : SqlKind → Bool
  | dml | ddl | plsqlOrProcedure | script => true
  | _ => false

end SqlKind

end SpaceQuery.Session
