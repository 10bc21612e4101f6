import SpaceQuery.Lease.Interleaving

/-!
Sessions that have to be preserved, and the hand-backs that find them in the slot.
-/

namespace SpaceQuery.Lease

open List Session DbSessionLeaseSlot

/-- The account `t` states the residue and the locks of `s`. -/
structure StatedIn (s t : RetainedSessionState) : Prop where
  residue : s.sessionResidueState.mergedWith t.sessionResidueState = t.sessionResidueState
  locks : s.lockState.mergedWith t.lockState = t.lockState

lemma StatedIn.conservativeMerge {s t : RetainedSessionState} (h : StatedIn s t)
    (u : RetainedSessionState) (transactionState : TransactionSessionState) :
    StatedIn s ((t.conservativeMerge u).withTransactionState transactionState) where
  residue := by
    have hassoc : ∀ a b c : SessionResidueState,
        a.mergedWith (b.mergedWith c) = (a.mergedWith b).mergedWith c := by
      simp [SessionResidueState.mergedWith, Bool.or_assoc]
    exact (hassoc _ _ _).trans (congrArg (·.mergedWith u.sessionResidueState) h.residue)
  locks := by
    have hassoc : ∀ a b c : SessionLockState,
        a.mergedWith (b.mergedWith c) = (a.mergedWith b).mergedWith c := by
      simp [SessionLockState.mergedWith, Bool.or_assoc]
    exact (hassoc _ _ _).trans (congrArg (·.mergedWith u.lockState) h.locks)

/-- An open slot holds the session of an entry, under an account that requires its preservation
and states no less than that of the entry. -/
structure Keeps (existing : DbSessionLeaseEntry) (slot : DbSessionLeaseSlot) : Prop where
  isOpen : slot.closed = false
  held : ∃ state, slot.entry = some { existing with retainedState := state } ∧
    state.requiresPhysicalSessionPreservation = true ∧ StatedIn existing.retainedState state

/-- A hand-back, with the counters and the ledger that it finds. -/
structure Moment where
  counters : ℕ → ℕ
  retired : List ℕ
  call : HandBackCall

namespace Moment

variable (m : Moment) (slot : DbSessionLeaseSlot) (existing : DbSessionLeaseEntry)

def outcome : Outcome SessionHandBack :=
  handBackWorkerSession m.counters m.retired slot m.call.owner m.call.connectionGeneration
    m.call.poolContextEpoch m.call.lease m.call.disposition m.call.currentScope

/-- The sessions that the hand-back closes. -/
def closes : List DbSessionLease := (m.outcome slot).closed.map Closing.lease

/-- The current execution hands back another session, on the connection of the entry, which has
not ended, and of its backend. -/
structure Meets : Prop where
  isCurrent : m.call.owner.isCurrent m.counters = true
  generation : m.call.connectionGeneration = existing.connectionGeneration
  live : connectionGenerationIsRetired m.retired existing.connectionGeneration = false
  dbType : m.call.lease.dbType = existing.lease.dbType
  other : m.call.lease ≠ existing.lease

/-- A session that is to be retained comes back under the pool context of the entry. -/
def SameContext : Prop :=
  ∀ state, m.call.disposition = .retain state → m.call.poolContextEpoch = existing.poolContextEpoch

end Moment

variable {slot : DbSessionLeaseSlot} {existing : DbSessionLeaseEntry} {m : Moment}

lemma Keeps.filing (h : Keeps existing slot) (hm : m.Meets existing) :
    slot.filingDecision m.retired existing.connectionGeneration = .allowed := by
  rw [filingDecision, hm.live, h.isOpen]
  rfl

lemma Moment.outcome_retain (hm : m.Meets existing) {state : RetainedSessionState}
    (hretain : m.call.disposition = .retain state) :
    m.closes slot = (slot.file m.retired m.call.entry).toClose m.call.entry ∧
      (m.outcome slot).slot = (slot.file m.retired m.call.entry).slot := by
  simp [closes, outcome, handBackWorkerSession, hm.isCurrent, hretain, fileIntoSlot,
    applyRetainedSessionDispositionWithScope, Filed.toClose, HandBackCall.entry,
    RetainedSessionDisposition.state, apply_ite (map Closing.lease),
    DbSessionLeaseEntry.discardPhysical, Function.comp_def]

/-- **A hand-back keeps the session of the slot exactly when it comes under its pool context.** -/
theorem keeps_outcome_iff (h : Keeps existing slot) (hm : m.Meets existing) :
    (existing.lease ∉ m.closes slot ∧ Keeps existing (m.outcome slot).slot) ↔
      m.SameContext existing := by
  obtain ⟨state, hentry, hpreserved, hstated⟩ := h.held
  cases hdisp : m.call.disposition with
  | discardPhysical carried =>
    have houtcome : m.closes slot = [m.call.lease] ∧ (m.outcome slot).slot = slot := by
      simp [Moment.closes, Moment.outcome, handBackWorkerSession, hm.isCurrent, hdisp,
        applyRetainedSessionDispositionWithScope]
    rw [houtcome.1, houtcome.2]
    exact iff_of_true ⟨by simpa using hm.other.symm, h⟩ (by simp [Moment.SameContext, hdisp])
  | retain incoming =>
    have hfile : slot.file m.retired m.call.entry
        = if m.call.poolContextEpoch = existing.poolContextEpoch then
            slot.resolveConflict { existing with retainedState := state } m.call.entry
          else slot.store m.call.entry := by
      have hallowed := h.filing hm
      simp [file, HandBackCall.entry, hallowed, hentry, hm.generation, DbSessionLease.isDbType,
        hm.dbType, eq_comm]
    rw [(Moment.outcome_retain hm hdisp).1, (Moment.outcome_retain hm hdisp).2, hfile]
    split_ifs with hepoch
    · refine iff_of_true ?_ fun _ _ => hepoch
      rw [resolveConflict, retainedLeaseConflictResolution, hpreserved]
      cases m.call.entry.retainedState.requiresPhysicalSessionPreservation with
      | false => exact ⟨by simpa [Filed.toClose, HandBackCall.entry] using hm.other.symm, h⟩
      | true =>
        exact ⟨by simpa [Filed.toClose, HandBackCall.entry] using hm.other.symm, h.isOpen, _, rfl,
          rfl, hstated.conservativeMerge _ _⟩
    · refine iff_of_false (fun hkeeps => hkeeps.1 ?_) fun hsame => hepoch (hsame _ hdisp)
      simp [Filed.toClose, store, hentry]

/-- **Hand-backs keep a session that has to be preserved exactly when they all come under its pool
context**: then none of them closes it, it stays in the slot, and its account goes on to require
its preservation and to state its residue and locks. -/
theorem handBacks_keep_iff (h : Keeps existing slot) {ms : List Moment}
    (hms : ∀ m ∈ ms, m.Meets existing) :
    (∀ v ∈ Runs.visits (fun slot m => (m.outcome slot).slot) slot ms,
        existing.lease ∉ v.2.closes v.1 ∧ Keeps existing (v.2.outcome v.1).slot) ↔
      ∀ m ∈ ms, m.SameContext existing := by
  induction ms generalizing slot with
  | nil => simp
  | cons m ms ih =>
    rw [forall_mem_cons] at hms
    rw [Runs.visits_cons, forall_mem_cons, forall_mem_cons, ← keeps_outcome_iff h hms.1]
    exact and_congr_right fun hkept => ih hkept.2 hms.2

/-- A session with uncommitted work. -/
def dirtyEntry : DbSessionLeaseEntry :=
  ⟨1, 1, ⟨0, .oracle⟩, { transactionState := .maybeDirty }, none⟩

/-- Another session comes back under a pool context, with or without work. -/
def comesBack (poolContextEpoch : ℕ) (transactionState : TransactionSessionState) : Moment :=
  ⟨fun _ => 7, [], ⟨0, ⟨some 0, 7⟩, 1, poolContextEpoch, ⟨1, .oracle⟩,
    .retain { transactionState }, none⟩⟩

theorem handBacks_keep_dirty : Keeps dirtyEntry ⟨some dirtyEntry, false⟩ ∧
      ∀ v ∈ Runs.visits (fun slot m => (Moment.outcome m slot).slot) ⟨some dirtyEntry, false⟩
        [comesBack 1 .clean, comesBack 1 .maybeDirty],
        dirtyEntry.lease ∉ v.2.closes v.1 ∧ Keeps dirtyEntry (v.2.outcome v.1).slot := by
  have hkeeps : Keeps dirtyEntry ⟨some dirtyEntry, false⟩ := ⟨rfl, _, rfl, rfl, rfl, rfl⟩
  refine ⟨hkeeps, (handBacks_keep_iff hkeeps ?_).mpr ?_⟩
  · simpa using ⟨⟨rfl, rfl, rfl, rfl, by decide⟩, ⟨rfl, rfl, rfl, rfl, by decide⟩⟩
  · simp [Moment.SameContext, comesBack, dirtyEntry]

/-- A clean session that comes back under another pool context closes one with work. -/
theorem dirty_session_closed : dirtyEntry.retainedState.requiresPhysicalSessionPreservation = true ∧
      (comesBack 2 .clean).Meets dirtyEntry ∧
      (comesBack 2 .clean).closes ⟨some dirtyEntry, false⟩ = [dirtyEntry.lease] :=
  ⟨rfl, ⟨rfl, rfl, rfl, rfl, by decide⟩, rfl⟩

end SpaceQuery.Lease
