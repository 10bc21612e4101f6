import SpaceQuery.Lib.Latch
import SpaceQuery.Session.BatchTransaction

/-!
The two accounts of a batch of successful statements: the ledger carries the state of the
session from statement to statement, the batch collects effects and meets the state at its
end.
-/

namespace SpaceQuery.Session

open List Latch MySqlBatchSessionEffects SessionResidueState

/-- A successful statement, with what the ledger asks of the server behind it. -/
structure LedgerStep where
  statement : Statement
  serverReportsUncommittedWork : Bool
  serverProbeUsedFallback : Bool
  interruptionRequiresTransactionDecision : Bool

namespace LedgerStep

/-- The ledger behind a step. -/
def after (s : RetainedSessionState) (step : LedgerStep) : RetainedSessionState :=
  retainedSessionStateAfterStatement s step.statement.effectsInContext
    step.serverReportsUncommittedWork false step.serverProbeUsedFallback
    step.interruptionRequiresTransactionDecision

/-- The ledger behind a list of steps. -/
def ledger (p : RetainedSessionState) (steps : List LedgerStep) : RetainedSessionState :=
  Runs.run after p steps

variable (steps : List LedgerStep)

/-- The effects of the batch with the same statements. -/
def batch : MySqlBatchSessionEffects :=
  .ofEvents (steps.map fun step => (.successful, step.statement))

/-- No statement of the steps releases the session. -/
def KeepSession : Prop :=
  ∀ step ∈ steps, ¬ step.statement.effectsInContext.transaction.releasesPhysicalSession

/-- What the statements do to the residue. -/
def residueEffects : List StatementSessionResidueEffects :=
  steps.map fun step => step.statement.effectsInContext.sessionResidue

end LedgerStep

open LedgerStep

/-! ### Locks -/

open BatchLockDelta

lemma BatchLockDelta.afterBatch_apply (delta : BatchLockDelta) (effect : StatementLockEffect)
    (held : Bool) :
    (delta.apply effect true).afterBatch held = effect.heldAfter (delta.afterBatch held) := by
  cases effect <;> rfl

lemma BatchLockDelta.afterBatch_applyNamed (delta : BatchLockDelta)
    (effect : StatementNamedLockEffect) (held : Bool) :
    (delta.applyNamed effect true).afterBatch held = effect.heldAfter (delta.afterBatch held) := by
  obtain ⟨acquires, releasesOne, releasesAll⟩ := effect
  cases acquires <;> cases releasesAll <;> rfl

/-- A successful statement that keeps the session does to the locks of a batch what it does
to the locks of the ledger. -/
lemma lockStateAfterBatch_applySuccessful {b : MySqlBatchSessionEffects} {statement : Statement}
    (hb : b.physicalSessionReleased = false)
    (hkeep : ¬ statement.effectsInContext.transaction.releasesPhysicalSession)
    (p : RetainedSessionState) :
    (b.applySuccessfulStatementEffects statement).lockStateAfterBatch p =
      lockStateAfterStatement (b.lockStateAfterBatch p) statement.effectsInContext false := by
  rw [applySuccessfulStatementEffects, b.applyStatementEffects_of_kept (by simpa using hkeep),
    applyKeptSession_eq]
  simp [lockStateAfterBatch, withTransaction,
    probed, b.fresh_of_not_released hb, lockStateAfterStatement, hkeep,
    afterBatch_apply, afterBatch_applyNamed]

/-- The fields of a batch about the residue, behind a successful statement. -/
lemma residue_applySuccessful {b : MySqlBatchSessionEffects} {statement : Statement}
    (hb : b.physicalSessionReleased = false)
    (hkeep : ¬ statement.effectsInContext.transaction.releasesPhysicalSession) :
    let b' := b.applySuccessfulStatementEffects statement
    let effects := statement.effectsInContext.sessionResidue
    b'.physicalSessionReleased = false ∧
      b'.sessionResidueState = b.sessionResidueState.afterSuccessfulEffects effects ∧
      b'.sessionResidueCleared = (b.sessionResidueCleared || effects.clearsAllSessionResidue) := by
  rw [applySuccessfulStatementEffects, b.applyStatementEffects_of_kept (by simpa using hkeep),
    applyKeptSession_eq]
  simp [withTransaction, probed, b.fresh_of_not_released hb, afterStatement, hb]

variable {steps : List LedgerStep}

/-- What a batch of successful statements has collected. -/
lemma collected_batch (hkeep : KeepSession steps) (p : RetainedSessionState) :
    (batch steps).lockStateAfterBatch p = (ledger p steps).lockState ∧
      (batch steps).sessionResidueState = (residueEffects steps).foldl afterSuccessfulEffects {} ∧
      ((batch steps).sessionResidueCleared ↔
        ∃ e ∈ residueEffects steps, e.clearsAllSessionResidue) := by
  -- from any batch and any ledger that agree on the locks so far
  suffices ∀ (b : MySqlBatchSessionEffects) (s : RetainedSessionState),
      b.physicalSessionReleased = false → b.lockStateAfterBatch p = s.lockState →
      let b' := Runs.run .apply b (steps.map fun step => (.successful, step.statement))
      b'.lockStateAfterBatch p = (ledger s steps).lockState ∧
        b'.sessionResidueState = (residueEffects steps).foldl
          afterSuccessfulEffects b.sessionResidueState ∧
        (b'.sessionResidueCleared ↔ b.sessionResidueCleared ∨
          ∃ e ∈ residueEffects steps, e.clearsAllSessionResidue) by
    simpa [batch, ofEvents] using this {} p rfl rfl
  induction steps with
  | nil =>
    intro b s hb hlock
    simpa [ledger, residueEffects] using hlock
  | cons step steps ih =>
    intro b s hb hlock
    rw [KeepSession, forall_mem_cons] at hkeep
    obtain ⟨hb', hres, hcl⟩ := residue_applySuccessful hb hkeep.1
    have hlock' : (b.applySuccessfulStatementEffects step.statement).lockStateAfterBatch p =
        (step.after s).lockState := by
      rw [lockStateAfterBatch_applySuccessful hb hkeep.1, hlock]
      rfl
    obtain ⟨hl, hr, hc⟩ := ih hkeep.2 _ _ hb' hlock'
    refine ⟨hl, ?_, ?_⟩
    · rwa [hres] at hr
    · rw [hcl] at hc
      simpa [residueEffects, or_assoc] using hc

lemma residue_ledger (hkeep : KeepSession steps) (p : RetainedSessionState) :
    (ledger p steps).sessionResidueState = (residueEffects steps).foldl afterSuccessfulEffects
        p.sessionResidueState := by
  induction steps generalizing p with
  | nil => rfl
  | cons step steps ih =>
    rw [KeepSession, forall_mem_cons] at hkeep
    have hres : (step.after p).sessionResidueState = p.sessionResidueState.afterSuccessfulEffects
          step.statement.effectsInContext.sessionResidue := by
      simp [LedgerStep.after, retainedSessionStateAfterStatement, residueStateAfterStatement,
        hkeep.1]
    rw [ledger, Runs.run_cons, ← ledger, ih hkeep.2, hres]
    rfl

/-! ### Residue -/

namespace SessionResidueState

variable {effects : List StatementSessionResidueEffects}

/-- Behind a statement that clears all residue, what was before it does not count. -/
lemma foldl_eq_of_clearsAll
    (h : ∃ e ∈ effects, e.clearsAllSessionResidue) (s t : SessionResidueState) :
    effects.foldl afterSuccessfulEffects s = effects.foldl afterSuccessfulEffects t := by
  induction effects generalizing s t with
  | nil => simp at h
  | cons e effects ih =>
    by_cases he : e.clearsAllSessionResidue
    · simp [afterSuccessfulEffects, he]
    · obtain ⟨x, hx, hall⟩ := h
      rcases mem_cons.1 hx with rfl | hx
      · exact absurd hall he
      · exact ih ⟨x, hx, hall⟩ _ _

/-- A statement that does not clear all residue, bit by bit: only the diagnostics of
statements and the mode of the next transaction are ever taken away. -/
lemma afterSuccessfulEffects_eq (s : SessionResidueState) {e : StatementSessionResidueEffects}
    (h : ¬ e.clearsAllSessionResidue) :
    s.afterSuccessfulEffects e =
      { mayHaveTemporaryTable := s.mayHaveTemporaryTable || e.createsTemporaryTable
        mayHavePreparedStatement := s.mayHavePreparedStatement || e.createsPreparedStatement
        mayHaveUserVariable := s.mayHaveUserVariable || e.setsUserVariable
        mayHaveSessionSetting := s.mayHaveSessionSetting || e.setsSessionSetting
        mayHaveStatementDiagnostics :=
          (s.mayHaveStatementDiagnostics && !e.clearsStatementDiagnostics)
            || e.setsStatementDiagnostics
        mayHaveNextTransactionModeOverride :=
          (s.mayHaveNextTransactionModeOverride && !e.consumesNextTransactionModeOverride)
            || e.setsNextTransactionModeOverride
        mayHaveTransactionModeOverride :=
          s.mayHaveTransactionModeOverride || e.setsTransactionModeOverride
        mayHaveUnknownSessionState := s.mayHaveUnknownSessionState || e.mayLeaveUnknownState } := by
  rw [afterSuccessfulEffects, if_neg h]
  cases e.clearsStatementDiagnostics <;> cases e.consumesNextTransactionModeOverride <;>
    simp [mergedWith, fromEffects]

/-- Every bit of the residue is a latch. -/
lemma foldl_afterSuccessfulEffects
    (h : ∀ e ∈ effects, ¬ e.clearsAllSessionResidue) (s : SessionResidueState) :
    effects.foldl afterSuccessfulEffects s =
      { mayHaveTemporaryTable :=
          latch (fun _ => false) (·.createsTemporaryTable) s.mayHaveTemporaryTable effects
        mayHavePreparedStatement :=
          latch (fun _ => false) (·.createsPreparedStatement) s.mayHavePreparedStatement effects
        mayHaveUserVariable :=
          latch (fun _ => false) (·.setsUserVariable) s.mayHaveUserVariable effects
        mayHaveSessionSetting :=
          latch (fun _ => false) (·.setsSessionSetting) s.mayHaveSessionSetting effects
        mayHaveStatementDiagnostics := latch (·.clearsStatementDiagnostics)
          (·.setsStatementDiagnostics) s.mayHaveStatementDiagnostics effects
        mayHaveNextTransactionModeOverride := latch (·.consumesNextTransactionModeOverride)
          (·.setsNextTransactionModeOverride) s.mayHaveNextTransactionModeOverride effects
        mayHaveTransactionModeOverride := latch (fun _ => false) (·.setsTransactionModeOverride)
          s.mayHaveTransactionModeOverride effects
        mayHaveUnknownSessionState := latch (fun _ => false) (·.mayLeaveUnknownState)
          s.mayHaveUnknownSessionState effects } := by
  induction effects generalizing s with
  | nil => rfl
  | cons e effects ih =>
    rw [forall_mem_cons] at h
    rw [foldl_cons, ih h.2, afterSuccessfulEffects_eq s h.1]
    simp [step]

/-- When residue can be added behind statements, as if it had been there before them. -/
lemma mergedWith_foldl_eq_iff
    (h : ∀ e ∈ effects, ¬ e.clearsAllSessionResidue) (s : SessionResidueState) :
    s.mergedWith (effects.foldl afterSuccessfulEffects {}) =
        effects.foldl afterSuccessfulEffects s ↔
      (s.mayHaveStatementDiagnostics → (∀ e ∈ effects, ¬ e.clearsStatementDiagnostics) ∨
        SetForGood (·.clearsStatementDiagnostics) (·.setsStatementDiagnostics) effects) ∧
      (s.mayHaveNextTransactionModeOverride →
        (∀ e ∈ effects, ¬ e.consumesNextTransactionModeOverride) ∨
        SetForGood (·.consumesNextTransactionModeOverride) (·.setsNextTransactionModeOverride)
          effects) := by
  rw [foldl_afterSuccessfulEffects h, foldl_afterSuccessfulEffects h]
  simp only [mergedWith, mk.injEq, or_latch_eq_iff]
  simp

end SessionResidueState

/-- The account of a batch agrees with the ledger on the locks always. On the residue it does
when a statement of the batch clears all residue; and else just in case the residue before
the batch that some statement takes away (the diagnostics of statements, the mode of the next
transaction) is left again by one that no other follows. -/
theorem retainedStateAfterSuccessfulBatch_eq_ledger_iff {steps : List LedgerStep}
    (hkeep : KeepSession steps) (p : RetainedSessionState) (serverReportsUncommittedWork : Bool) :
    let retained := (batch steps).retainedStateAfterSuccessfulBatch p serverReportsUncommittedWork
    let effects := residueEffects steps
    (retained.lockState = (ledger p steps).lockState ∧
        retained.sessionResidueState = (ledger p steps).sessionResidueState) ↔
      (∃ e ∈ effects, e.clearsAllSessionResidue) ∨
        ((p.sessionResidueState.mayHaveStatementDiagnostics →
          (∀ e ∈ effects, ¬ e.clearsStatementDiagnostics) ∨
          SetForGood (·.clearsStatementDiagnostics) (·.setsStatementDiagnostics) effects) ∧
        (p.sessionResidueState.mayHaveNextTransactionModeOverride →
          (∀ e ∈ effects, ¬ e.consumesNextTransactionModeOverride) ∨
          SetForGood (·.consumesNextTransactionModeOverride) (·.setsNextTransactionModeOverride)
            effects)) := by
  intro retained effects
  obtain ⟨hlock, hres, hcl⟩ := collected_batch hkeep p
  have hretained : retained.lockState = (ledger p steps).lockState := hlock
  have hresidue : retained.sessionResidueState = (batch steps).sessionResidueStateAfterBatch p :=
    rfl
  rw [and_iff_right hretained, hresidue, residue_ledger hkeep, sessionResidueStateAfterBatch, hres]
  by_cases hall : ∃ e ∈ effects, e.clearsAllSessionResidue
  · rw [if_pos (hcl.2 hall)]
    simp only [hall, true_or, iff_true]
    exact foldl_eq_of_clearsAll hall _ _
  · rw [if_neg (mt hcl.1 hall)]
    simp only [hall, false_or]
    exact mergedWith_foldl_eq_iff (by simpa using hall) _

/-- A one-shot `SET TRANSACTION` is pending before the batch. -/
def pendingTransactionMode : RetainedSessionState :=
  { sessionResidueState := { mayHaveNextTransactionModeOverride := true } }

/-- `START TRANSACTION`, which consumes a pending `SET TRANSACTION`. -/
def startTransactionStep : LedgerStep where
  statement :=
    { reading :=
        { words := ["START", "TRANSACTION"]
          consumesNextTransactionModeOverride := true
          kind := .transactionControl }
      autoCommit := true
      effects :=
        { stateHint :=
            { mayLeaveSessionBoundState := true, requiresRetentionWhenAutocommitOff := true }
          transaction := { clearsState := true, startsState := true } } }
  serverReportsUncommittedWork := true
  serverProbeUsedFallback := false
  interruptionRequiresTransactionDecision := false

/-- The batch keeps the mode that its statement consumed, the ledger does not. -/
theorem startTransaction_keeps_pending_mode : KeepSession [startTransactionStep] ∧
      ((batch [startTransactionStep]).retainedStateAfterSuccessfulBatch pendingTransactionMode
          true).sessionResidueState ≠
        (ledger pendingTransactionMode [startTransactionStep]).sessionResidueState :=
  ⟨by simp [KeepSession, startTransactionStep, Statement.effectsInContext], by decide⟩

/-- `SET TRANSACTION`, which sets the mode of the next transaction. -/
def setTransactionStep : LedgerStep where
  statement :=
    { reading := { words := ["SET", "TRANSACTION"], kind := .sessionControl }
      autoCommit := true
      effects :=
        { stateHint := { mayLeaveSessionBoundState := true }
          sessionResidue := { setsNextTransactionModeOverride := true } } }
  serverReportsUncommittedWork := true
  serverProbeUsedFallback := false
  interruptionRequiresTransactionDecision := false

/-- The two accounts agree on a mode that is consumed and set again. -/
theorem startTransaction_eq_ledger :
    let steps := [startTransactionStep, setTransactionStep]
    let retained := (batch steps).retainedStateAfterSuccessfulBatch pendingTransactionMode true
    retained.sessionResidueState.mayHaveNextTransactionModeOverride = true ∧
      retained.lockState = (ledger pendingTransactionMode steps).lockState ∧
      retained.sessionResidueState = (ledger pendingTransactionMode steps).sessionResidueState := by
  refine ⟨by decide, (retainedStateAfterSuccessfulBatch_eq_ledger_iff (by
    simp [KeepSession, startTransactionStep, setTransactionStep, Statement.effectsInContext])
    pendingTransactionMode true).2 (.inr ⟨by simp [pendingTransactionMode], fun _ => .inr ?_⟩)⟩
  exact ⟨[_], _, [], rfl, rfl, nofun⟩

end SpaceQuery.Session
