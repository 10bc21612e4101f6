import SpaceQuery.Session.RetainedState

/-!
The decision about a session behind a cancel, a timeout or an error, from
`session_policy.rs`.
-/

namespace SpaceQuery.Session

/-- What the tab executes. -/
inductive ExecutionState
  | idle | runningStatement | runningScript | lazyFetchOnly | cancelRequested | closingCursor
  | finished | unknown
  deriving DecidableEq

/-- Where a lazy fetch stands. -/
inductive LazyFetchState
  | none | waiting | fetching | closeRequested | cancelRequested | closed | unknown
  deriving DecidableEq

/-- What an interrupt asks for. -/
inductive SessionDecision
  | ignoreStaleEvent | reuseSamePhysicalSession | replacePhysicalSessionKeepUiConnected
  | requireCommitOrRollback | requirePhysicalSessionResolution | markDirtyAndBlockNextExecution
  deriving DecidableEq

/-- What is known when an interrupt is handled. -/
structure InterruptDecisionContext where
  operationMatches : Bool
  connectionGenerationMatches : Bool
  executionState : ExecutionState
  workerDone : Bool
  hasConnectionError : Bool
  sqlKind : SqlKind
  priorRetainedState : RetainedSessionState
  lazyState : LazyFetchState
  lazyCloseRequested : Bool
  lazyCancelRequested : Bool
  cursorClosed : Bool
  fetchWorkerDone : Bool
  timedOut : Bool
  recoverableTimeout : Bool
  cancelled : Bool
  timeoutSettingsRestored : Bool
  healthCheckOk : Bool
  autocommit : Bool
  stateHint : TransactionStatementStateHint

def retainedStateInterruptResolution (state : RetainedSessionState) : Option SessionDecision :=
  if !state.requiresPhysicalSessionPreservation then none
  else some (if state.transactionResolutionActionAllowed then .requireCommitOrRollback
    else .requirePhysicalSessionResolution)

variable (ctx : InterruptDecisionContext)

/-- The `match` on the lazy fetch: the cursor and its worker are known to be cleaned up. -/
def lazyFetchCleanedUp : Bool :=
  match ctx.lazyState with
  | .none => true
  | .closed => ctx.cursorClosed && ctx.fetchWorkerDone
  | .waiting => ctx.lazyCloseRequested && ctx.cursorClosed
  | .fetching => ctx.lazyCancelRequested && ctx.fetchWorkerDone && ctx.cursorClosed
  | .closeRequested | .cancelRequested | .unknown => false

/-- The decision for a select that is safe to cancel, from the lazy fetch on. -/
def decideReuseOfSelect : SessionDecision :=
  if !lazyFetchCleanedUp ctx then .replacePhysicalSessionKeepUiConnected
  else if ctx.timedOut && !ctx.recoverableTimeout then .replacePhysicalSessionKeepUiConnected
  else if !(ctx.cancelled || ctx.timedOut && ctx.recoverableTimeout) then
    .replacePhysicalSessionKeepUiConnected
  else if !ctx.timeoutSettingsRestored then .replacePhysicalSessionKeepUiConnected
  else if ctx.healthCheckOk then .reuseSamePhysicalSession
  else .replacePhysicalSessionKeepUiConnected

/-- The branch of a script that is not safe to cancel. -/
def decideUnsafeScript : SessionDecision :=
  if !ctx.autocommit || ctx.priorRetainedState.mayHaveUncommittedWork
      || ctx.stateHint.requiresRetentionWhenAutocommitOff then
    .requireCommitOrRollback
  else if ctx.priorRetainedState.requiresPhysicalSessionPreservation then
    .requirePhysicalSessionResolution
  else .replacePhysicalSessionKeepUiConnected

/-- The branches that look at the retained state first. -/
def decideByRetainedState (otherwise : SessionDecision) :
    SessionDecision :=
  (retainedStateInterruptResolution ctx.priorRetainedState).getD otherwise

def decideSessionAfterInterrupt : SessionDecision :=
  if !ctx.operationMatches || !ctx.connectionGenerationMatches then .ignoreStaleEvent
  else if ctx.executionState = .unknown ∨ !ctx.workerDone then
    .replacePhysicalSessionKeepUiConnected
  else if ctx.hasConnectionError then .replacePhysicalSessionKeepUiConnected
  else if ctx.priorRetainedState.transactionState = .invalidSession then
    .requirePhysicalSessionResolution
  else if ctx.sqlKind = .ddl ∨ ctx.sqlKind = .sessionControl then
    decideByRetainedState ctx .replacePhysicalSessionKeepUiConnected
  else if ctx.sqlKind = .script ∧ !statementCancelCanReuseSession ctx.stateHint then
    decideUnsafeScript ctx
  else if ctx.sqlKind.isDmlOrDdlOrPlsqlOrScript then
    decideByRetainedState ctx <|
      if ctx.sqlKind = .plsqlOrProcedure ∧ ctx.stateHint.mayHoldSessionLock
          ∧ !ctx.stateHint.mayLeaveUntrackedSessionState
          ∧ !ctx.stateHint.requiresTransactionDecisionAfterSuccess
          ∧ !ctx.stateHint.changesAutoCommit then
        .replacePhysicalSessionKeepUiConnected
      else if !ctx.autocommit then .requireCommitOrRollback
      else .replacePhysicalSessionKeepUiConnected
  else if ctx.sqlKind = .transactionControl then
    decideByRetainedState ctx <|
      if !ctx.autocommit then .requireCommitOrRollback
      else if ctx.stateHint.clearsSessionState && !ctx.stateHint.mayLeaveSessionBoundState
          && !ctx.stateHint.mayLeaveUntrackedSessionState
          && !ctx.stateHint.mayHoldSessionLock
          && !ctx.stateHint.requiresRetentionWhenAutocommitOff
          && !ctx.stateHint.requiresTransactionDecisionAfterSuccess
          && !ctx.stateHint.changesAutoCommit then
        .replacePhysicalSessionKeepUiConnected
      else .markDirtyAndBlockNextExecution
  else if !ctx.sqlKind.isSelectLike then
    decideByRetainedState ctx <|
      if ctx.sqlKind = .unknown ∧ (ctx.stateHint.mayHoldSessionLock
          || ctx.stateHint.mayLeaveSessionBoundState
            && !ctx.stateHint.requiresRetentionWhenAutocommitOff
            && !ctx.stateHint.requiresTransactionDecisionAfterSuccess) then
        .replacePhysicalSessionKeepUiConnected
      else if ctx.sqlKind = .unknown ∧ !ctx.autocommit then .requireCommitOrRollback
      else .replacePhysicalSessionKeepUiConnected
  else if !statementCancelCanReuseSession ctx.stateHint then
    decideByRetainedState ctx <|
      if ctx.stateHint.mayHoldSessionLock then .replacePhysicalSessionKeepUiConnected
      else if !ctx.autocommit && ctx.stateHint.requiresRetentionWhenAutocommitOff then
        .requireCommitOrRollback
      else .replacePhysicalSessionKeepUiConnected
  else decideReuseOfSelect ctx

/-! ### Retained state and replacement -/

/-- The event belongs to the operation, its worker has ended, and the connection is up. -/
structure Settled (ctx : InterruptDecisionContext) : Prop where
  operationMatches : ctx.operationMatches = true
  connectionGenerationMatches : ctx.connectionGenerationMatches = true
  executionState : ctx.executionState ≠ .unknown
  workerDone : ctx.workerDone = true
  hasConnectionError : ctx.hasConnectionError = false

/-- The conditions for a session to be reused behind an interrupted select. -/
structure CleanInterrupt (ctx : InterruptDecisionContext) : Prop where
  lazyFetch : lazyFetchCleanedUp ctx = true
  interrupt : if ctx.timedOut then ctx.recoverableTimeout = true else ctx.cancelled = true
  timeoutSettingsRestored : ctx.timeoutSettingsRestored = true
  healthCheckOk : ctx.healthCheckOk = true

variable {ctx : InterruptDecisionContext}

lemma decideReuseOfSelect_ne_replace_iff :
    decideReuseOfSelect ctx ≠ .replacePhysicalSessionKeepUiConnected ↔ CleanInterrupt ctx := by
  constructor
  · intro h
    rw [decideReuseOfSelect] at h
    cases hlazy : lazyFetchCleanedUp ctx with
    | false => simp [hlazy] at h
    | true =>
      cases htimed : ctx.timedOut with
      | false | true =>
        refine ⟨hlazy, ?_, ?_, ?_⟩ <;> simp_all
  · rintro ⟨hlazy, hinterrupt, hrestored, hhealth⟩
    rw [decideReuseOfSelect]
    cases htimed : ctx.timedOut <;> simp_all

/-- A branch that looks at the retained state first replaces no session that has any. -/
lemma decideByRetainedState_ne_replace
    (h : ctx.priorRetainedState.requiresPhysicalSessionPreservation) (otherwise : SessionDecision) :
    decideByRetainedState ctx otherwise ≠ .replacePhysicalSessionKeepUiConnected := by
  rw [decideByRetainedState, retainedStateInterruptResolution, h]
  split_ifs with hneg
  · cases hneg
  · exact nofun
  · exact nofun

lemma decideUnsafeScript_ne_replace
    (h : ctx.priorRetainedState.requiresPhysicalSessionPreservation) :
    decideUnsafeScript ctx ≠ .replacePhysicalSessionKeepUiConnected := by
  rw [decideUnsafeScript, h, if_pos rfl]
  split_ifs
  all_goals exact nofun

/-- A session with retained state is not replaced, except behind an interrupted select
that is safe to cancel and whose clean-up is not confirmed. -/
theorem decideSessionAfterInterrupt_ne_replace_iff (hsettled : Settled ctx)
    (hprior : ctx.priorRetainedState.requiresPhysicalSessionPreservation = true) :
    decideSessionAfterInterrupt ctx ≠ .replacePhysicalSessionKeepUiConnected ↔
      (ctx.priorRetainedState.transactionState ≠ .invalidSession → ctx.sqlKind = .selectLike →
        statementCancelCanReuseSession ctx.stateHint = true → CleanInterrupt ctx) := by
  obtain ⟨hoperation, hgeneration, hstate, hworker, herror⟩ := hsettled
  rw [decideSessionAfterInterrupt]
  simp only [hoperation, hgeneration, hstate, hworker, herror, Bool.not_true, Bool.or_self,
    Bool.false_eq_true, or_self, if_false]
  by_cases hinvalid : ctx.priorRetainedState.transactionState = .invalidSession
  · simp [hinvalid]
  · rw [if_neg hinvalid]
    cases hkind : ctx.sqlKind with
    | selectLike =>
      cases hreuse : statementCancelCanReuseSession ctx.stateHint with
      | false =>
        have hdecide := decideByRetainedState_ne_replace hprior
        simp [SqlKind.isDmlOrDdlOrPlsqlOrScript, SqlKind.isSelectLike, hdecide]
      | true =>
        simp only [reduceCtorEq, or_self, false_and, if_false,
          SqlKind.isDmlOrDdlOrPlsqlOrScript, SqlKind.isSelectLike, Bool.not_true,
          Bool.false_eq_true]
        rw [decideReuseOfSelect_ne_replace_iff]
        simp [hinvalid]
    | script =>
      have hdecide := decideByRetainedState_ne_replace hprior
      have hscript := decideUnsafeScript_ne_replace hprior
      cases hreuse : statementCancelCanReuseSession ctx.stateHint with
      | false => simp [hscript]
      | true => simp [SqlKind.isDmlOrDdlOrPlsqlOrScript, hdecide]
    | _ =>
      have hdecide := decideByRetainedState_ne_replace hprior
      simp [SqlKind.isDmlOrDdlOrPlsqlOrScript, SqlKind.isSelectLike, hdecide]

section CancelledSelect

/-- A select is cancelled on a session with uncommitted work. -/
def cancelledSelect (timeoutSettingsRestored : Bool) : InterruptDecisionContext where
  operationMatches := true
  connectionGenerationMatches := true
  executionState := .finished
  workerDone := true
  hasConnectionError := false
  sqlKind := .selectLike
  priorRetainedState := { transactionState := .maybeDirty }
  lazyState := .none
  lazyCloseRequested := false
  lazyCancelRequested := false
  cursorClosed := true
  fetchWorkerDone := true
  timedOut := false
  recoverableTimeout := false
  cancelled := true
  timeoutSettingsRestored := timeoutSettingsRestored
  healthCheckOk := true
  autocommit := false
  stateHint := {}

lemma settled_cancelledSelect (timeoutSettingsRestored : Bool) :
    Settled (cancelledSelect timeoutSettingsRestored) :=
  ⟨rfl, rfl, nofun, rfl, rfl⟩

/-- Where the timeout settings are not restored, the session is replaced with the work. -/
theorem cancelledSelect_replaces : ¬ ∀ ctx, Settled ctx →
    ctx.priorRetainedState.requiresPhysicalSessionPreservation = true →
    decideSessionAfterInterrupt ctx ≠ .replacePhysicalSessionKeepUiConnected :=
  fun h => h (cancelledSelect false) (settled_cancelledSelect false) rfl rfl

/-- Where they are restored, it is kept. -/
theorem cancelledSelect_keeps : decideSessionAfterInterrupt (cancelledSelect true)
    ≠ .replacePhysicalSessionKeepUiConnected :=
  (decideSessionAfterInterrupt_ne_replace_iff (settled_cancelledSelect true) rfl).2
    fun _ _ _ => ⟨rfl, rfl, rfl, rfl⟩

end CancelledSelect

end SpaceQuery.Session
