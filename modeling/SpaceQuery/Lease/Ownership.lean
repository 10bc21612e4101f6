import SpaceQuery.Lease.Interleaving

/-!
Workers whose tab has moved on to a newer execution.

`hand_back_worker_session` and `clear_worker_session` ask the operation counter of the tab whether
the tab is still on their execution, and lock the slot afterwards.
-/

namespace SpaceQuery.Lease

open Function List Runs

/-- A worker that has asked the counter and is about to lock a slot. -/
def Task.ownerAtLock : Task → Option (ℕ × TabOperationOwnership)
  | filing k owner _ | clearingOwn k owner => some (k, owner)
  | holding _ | handingBack _ | clearing _ _ | closing _ | sweepQueued _ | sweeping _ _ _
    | done => none

/-- The counter of the owner's tab has been set to a newer operation. -/
def Overtaken (counters : ℕ → ℕ) (owner : TabOperationOwnership) : Prop :=
  ∃ tab ∈ owner.currentOperationId, owner.operationId ≠ 0 ∧ owner.operationId < counters tab

variable (s : System)

open Lease.System

/-- The session that a slot holds. -/
def System.sessionAt (k : ℕ) : Option DbSessionLease :=
  s.slots[k]?.bind fun slot => slot.entry.map (·.lease)

/-- In this step no overtaken worker files its session in the slot that it locks, or takes
away the one that the slot holds. -/
def LeavesSlot (e : Event) : Prop :=
  ∀ i k owner, e = .advance i → s.tasks[i]?.bind Task.ownerAtLock = some (k, owner) →
    Overtaken s.counters owner → (s.step e).sessionAt k = s.sessionAt k

/-- The step moves no counter past a worker that has asked it and is about to lock a slot. -/
def KeepsOwners : Event → Prop
  | .setCounter tab operationId => ∀ task ∈ s.tasks, ∀ p ∈ task.ownerAtLock,
      p.2.currentOperationId = some tab → p.2.operationId ≠ 0 → ¬ p.2.operationId < operationId
  | _ => True

instance (s : System) (e : Event) : Decidable (KeepsOwners s e) := by
  cases e <;> unfold KeepsOwners <;> infer_instance

/-- No worker that is about to lock a slot is overtaken. -/
def OwnersCurrent : Prop :=
  ∀ task ∈ s.tasks, ∀ p ∈ task.ownerAtLock, ¬ Overtaken s.counters p.2

/-- A worker whose question is answered with yes is not overtaken then. -/
lemma not_overtaken_of_isCurrent {counters : ℕ → ℕ} {owner : TabOperationOwnership}
    (h : owner.isCurrent counters) : ¬ Overtaken counters owner := by
  rintro ⟨tab, htab, hne, hlt⟩
  rw [TabOperationOwnership.isCurrent, Option.mem_def.mp htab] at h
  simp only [Bool.or_eq_true, beq_iff_eq] at h
  omega

/-- A lock section moves no counter, and no worker stands before a lock after it. -/
lemma enter_owners (k : ℕ)
    {section' : DbSessionLeaseSlot → DbSessionLeaseSlot × Task} (otherwise : Task)
    (h : ∀ slot, (section' slot).2.ownerAtLock = none) :
    (s.enter k section' otherwise).1.counters = s.counters ∧
      (s.enter k section' otherwise).1.tasks = s.tasks ∧
      ∀ p ∈ (s.enter k section' otherwise).2.ownerAtLock, p ∈ otherwise.ownerAtLock := by
  rw [System.enter]
  cases s.slots[k]? with
  | none => exact ⟨rfl, rfl, fun p hp => hp⟩
  | some slot =>
    refine ⟨rfl, rfl, fun p hp => ?_⟩
    rw [h slot] at hp
    cases hp

/-- A stretch of a task moves no counter, and the task stands before a lock only after its
question was answered with yes. -/
lemma advance_owners (task : Task) :
    (s.advance task).1.counters = s.counters ∧ (s.advance task).1.tasks = s.tasks ∧
      ∀ p ∈ (s.advance task).2.ownerAtLock, p ∈ task.ownerAtLock ∨ p.2.isCurrent s.counters := by
  cases task with
  | handingBack call =>
    rw [advance]
    split_ifs with hcur
    · exact ⟨rfl, rfl, fun p hp => by cases hp⟩
    · cases call.disposition with
      | retain state =>
        refine ⟨rfl, rfl, ?_⟩
        rintro p ⟨⟩
        exact .inr (by simpa using hcur)
      | discardPhysical carried => exact ⟨rfl, rfl, fun p hp => by cases hp⟩
  | filing k owner entry =>
    obtain ⟨hcounters, htasks, howner⟩ := enter_owners s k (.filing k owner entry) fun slot =>
        (rfl : (fileSection s.retired entry slot).2.ownerAtLock = _)
    exact ⟨hcounters, htasks, fun p hp => .inl (howner p hp)⟩
  | clearing k owner =>
    rw [advance]
    split_ifs with hcur
    · exact ⟨rfl, rfl, fun p hp => by cases hp⟩
    · refine ⟨rfl, rfl, ?_⟩
      rintro p ⟨⟩
      exact .inr (by simpa using hcur)
  | clearingOwn k owner =>
    obtain ⟨hcounters, htasks, howner⟩ := enter_owners s k (.clearingOwn k owner)
      fun slot => (rfl : (clearSection slot).2.ownerAtLock = _)
    exact ⟨hcounters, htasks, fun p hp => .inl (howner p hp)⟩
  | closing leases =>
    cases leases with
    | nil => exact ⟨rfl, rfl, fun p hp => by cases hp⟩
    | cons lease leases => exact ⟨rfl, rfl, fun p hp => by cases hp⟩
  | sweeping g left stale =>
    cases left with
    | nil => exact ⟨rfl, rfl, fun p hp => by cases hp⟩
    | cons k left =>
      obtain ⟨hcounters, htasks, howner⟩ := enter_owners s k (.sweeping g left stale) fun slot =>
          (rfl : (sweepSection g left stale slot).2.ownerAtLock = _)
      exact ⟨hcounters, htasks, fun p hp => by cases howner p hp⟩
  | _ => exact ⟨rfl, rfl, fun p hp => by cases hp⟩

/-- A call starts that does not stand before a lock. -/
lemma OwnersCurrent.spawn {s s' : System} {task : Task} (h : OwnersCurrent s)
    (hcounters : s'.counters = s.counters) (htasks : s'.tasks = s.tasks)
    (howner : task.ownerAtLock = none) : OwnersCurrent (spawn (s', task)) := by
  intro other hother p hp
  change other ∈ s'.tasks ++ [task] at hother
  rw [htasks, mem_append, mem_singleton] at hother
  change ¬ Overtaken s'.counters p.2
  rw [hcounters]
  obtain hother | rfl := hother
  · exact h other hother p hp
  · rw [howner] at hp
    cases hp

/-- A call starts with a lock section. -/
lemma OwnersCurrent.spawn_enter {s : System} (h : OwnersCurrent s) (k : ℕ)
    {section' : DbSessionLeaseSlot → DbSessionLeaseSlot × Task}
    (hsection : ∀ slot, (section' slot).2.ownerAtLock = none) :
    OwnersCurrent (System.spawn (s.enter k section' .done)) := by
  obtain ⟨hcounters, htasks, howner⟩ := enter_owners s k .done hsection
  refine h.spawn hcounters htasks (Option.eq_none_iff_forall_not_mem.mpr fun p hp => ?_)
  cases howner p hp

lemma ownerAtLock_takeSection (took : TakeSection) : took.task.ownerAtLock = none := by
  rw [TakeSection.task]
  split <;> rfl

/-- A step that moves no counter past a worker overtakes no worker before its lock. -/
lemma step_ownersCurrent (e : Event) (hkeeps : KeepsOwners s e)
    (h : OwnersCurrent s) : OwnersCurrent (s.step e) := by
  have hset : ∀ (s' : System) (i : ℕ) (task' : Task), s'.counters = s.counters →
      s'.tasks = s.tasks → (∀ p ∈ task'.ownerAtLock, ¬ Overtaken s.counters p.2) →
      OwnersCurrent { s' with tasks := s'.tasks.set i task' } := by
    intro s' i task' hcounters htasks howner other hother p hp
    rw [htasks] at hother
    rw [hcounters]
    obtain hother | rfl := mem_or_eq_of_mem_set hother
    · exact h other hother p hp
    · exact howner p hp
  cases e with
  | createSlot => exact h
  | acquire dbType =>
    exact @OwnersCurrent.spawn s { s with nextSession := s.nextSession + 1 } _ h rfl rfl rfl
  | setCounter tab operationId =>
    rintro task htask p hp ⟨tab', htab', hne, hlt⟩
    change p.2.operationId < update s.counters tab operationId tab' at hlt
    by_cases htab : tab' = tab
    · subst htab
      rw [update_self] at hlt
      exact hkeeps task htask p hp htab' hne hlt
    · rw [update_of_ne htab] at hlt
      exact h task htask p hp ⟨tab', htab', hne, hlt⟩
  | takeMatching k generation dbType | takeReusable k generation epoch dbType =>
    exact h.spawn_enter k fun slot => ownerAtLock_takeSection _
  | handBack i call =>
    rw [step]
    split
    · exact hset s i _ rfl rfl fun p hp => by cases hp
    · exact h
  | clearWorkerSession k owner => exact h.spawn rfl rfl rfl
  | clear k | closeForOwnerShutdown k => exact h.spawn_enter k fun slot => rfl
  | retire generation =>
    rw [step]
    split_ifs
    · exact h
    · exact @OwnersCurrent.spawn s { s with retired := generation :: s.retired } _ h rfl rfl rfl
  | advance i =>
    rw [step]
    cases htask : s.tasks[i]? with
    | none => exact h
    | some task =>
      obtain ⟨hcounters, htasks, howner⟩ := advance_owners s task
      refine hset _ i _ hcounters htasks fun p hp => ?_
      obtain hp | hcur := howner p hp
      · exact h task (mem_of_getElem? htask) p hp
      · exact not_overtaken_of_isCurrent hcur

/-- In every run in which no counter is moved past a worker that has asked it and is about to
lock a slot, no step of an overtaken worker files its session or takes one away. -/
theorem overtaken_leaves_slot (es : List Event)
    (h : ∀ v ∈ visits System.step System.init es, KeepsOwners v.1 v.2) :
    ∀ v ∈ visits System.step System.init es, LeavesSlot v.1 v.2 := by
  intro v hv i k owner he howner hovertaken
  have hcurrent : OwnersCurrent v.1 :=
    (visits_invariant_of step_ownersCurrent (fun task htask => absurd htask not_mem_nil) h).2 v hv
  obtain ⟨task, htask, howner⟩ := Option.bind_eq_some_iff.mp howner
  exact absurd hovertaken (hcurrent task (mem_of_getElem? htask) (k, owner) howner)

/-- The hand-back of a session for an operation of the first tab, to its slot. -/
def handBackFor (operationId : ℕ) (transactionState : Session.TransactionSessionState) :
    HandBackCall where
  slot := 0
  owner := ⟨some 0, operationId⟩
  connectionGeneration := 1
  poolContextEpoch := 0
  lease := ⟨0, .mySQL⟩
  disposition := .retain { transactionState }
  currentScope := none

/-- Two workers hold a session each, and the first one hands its session back. -/
def firstHandBack : List Event :=
  [.createSlot, .acquire .mySQL, .acquire .mySQL, .setCounter 0 1,
    .handBack 0 (handBackFor 1 .maybeDirty), .advance 0]

/-- A tab that moves on only after the first worker has filed its session. Two workers of the
operation before then hand a session back and clear the slot. -/
def fileThenMoveOn : List Event :=
  firstHandBack ++ [.advance 0, .setCounter 0 2, .handBack 1 (handBackFor 2 .clean),
    .clearWorkerSession 0 ⟨some 0, 1⟩, .acquire .mySQL, .handBack 3 (handBackFor 1 .clean),
    .advance 3, .advance 2, .advance 1, .advance 1, .advance 3, .advance 2]

theorem fileThenMoveOn_leaves_slot : (∀ v ∈ visits step init fileThenMoveOn, KeepsOwners v.1 v.2) ∧
      (∀ v ∈ visits step init fileThenMoveOn, LeavesSlot v.1 v.2) ∧
      (run step init fileThenMoveOn).sessionAt 0 = some ⟨0, .mySQL⟩ ∧
      (run step init fileThenMoveOn).closed = [2] :=
  ⟨by decide, overtaken_leaves_slot fileThenMoveOn (by decide), by decide, by decide⟩

/-- A tab that moves on while the first worker stands before the lock of the slot, and whose
newer execution files its session first. -/
def moveOnBeforeFiling : List Event :=
  firstHandBack ++ [.setCounter 0 2, .handBack 1 (handBackFor 2 .clean), .advance 1, .advance 1,
    .advance 0]

/-- The overtaken worker files its session and displaces the one of the newer execution, which
is closed. -/
theorem overtaken_displaces_newer :
    ¬ (∀ v ∈ visits System.step System.init moveOnBeforeFiling, LeavesSlot v.1 v.2) ∧
      (run System.step System.init (moveOnBeforeFiling ++ [.advance 0])).sessionAt 0
        = some ⟨0, .mySQL⟩ ∧
      (run System.step System.init (moveOnBeforeFiling ++ [.advance 0])).closed = [1] := by
  refine ⟨fun h => ?_, by decide, by decide⟩
  have hlast := h (visits step init moveOnBeforeFiling)[10]
    (getElem_mem (by decide)) 0 0 ⟨some 0, 1⟩ rfl (by decide) ⟨0, rfl, by decide, by decide⟩
  exact absurd hlast (by decide)

end SpaceQuery.Lease
