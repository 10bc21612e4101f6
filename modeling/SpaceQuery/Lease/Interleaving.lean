import SpaceQuery.Lease.Slot
import SpaceQuery.Lib.Runs
import SpaceQuery.Lib.Tally

/-!
The session slots of all tabs under interleaving calls.

A `System` is the slots, the operation counters of the tabs, the ledger of ended connection
incarnations and the calls that are under way. A call stands at a `Task` between two lock
sections; the interleavings of any number of threads are the lists of events. A session that a
call has taken out of a slot is the task's until it is closed.
-/

namespace SpaceQuery.Lease

open Runs List Tally

/-! ### The system -/

/-- The arguments of `hand_back_worker_session`, and the slot it is called on. -/
structure HandBackCall where
  slot : ℕ
  owner : TabOperationOwnership
  connectionGeneration : ℕ
  poolContextEpoch : ℕ
  lease : DbSessionLease
  disposition : RetainedSessionDisposition
  currentScope : Option String
  deriving DecidableEq

/-- The entry that the call files. -/
def HandBackCall.entry (call : HandBackCall) : DbSessionLeaseEntry where
  connectionGeneration := call.connectionGeneration
  poolContextEpoch := call.poolContextEpoch
  lease := call.lease
  retainedState := call.disposition.state
  currentScope := call.currentScope

/-- Where a call stands while it holds no lock. -/
inductive Task
  /-- A worker holds a session that it took or acquired. -/
  | holding (lease : DbSessionLease)
  /-- `hand_back_worker_session` is about to read the operation counter. -/
  | handingBack (call : HandBackCall)
  /-- The counter was its own; `file_into_slot` is about to lock the slot. -/
  | filing (slot : ℕ) (owner : TabOperationOwnership) (entry : DbSessionLeaseEntry)
  /-- `clear_worker_session` is about to read the operation counter. -/
  | clearing (slot : ℕ) (owner : TabOperationOwnership)
  /-- The counter was its own; the slot is about to be locked. -/
  | clearingOwn (slot : ℕ) (owner : TabOperationOwnership)
  /-- Sessions that are about to be closed physically. -/
  | closing (leases : List DbSessionLease)
  /-- A generation is marked; its sweep has not looked at the registry. -/
  | sweepQueued (generation : ℕ)
  /-- The sweep is to take from the slots that are left, and holds what it took. -/
  | sweeping (generation : ℕ) (left : List ℕ) (stale : List DbSessionLease)
  | done
  deriving DecidableEq

namespace Task

/-- The sessions that a task holds. -/
@[simp] def leases : Task → List DbSessionLease
  | holding lease => [lease]
  | handingBack call => [call.lease]
  | filing _ _ entry => [entry.lease]
  | closing leases => leases
  | sweeping _ _ stale => stale
  | clearing _ _ | clearingOwn _ _ | sweepQueued _ | done => []

/-- How often a task holds a session. -/
def held (x : ℕ) (task : Task) : ℕ := task.leases.countP (·.session == x)

end Task

/-- The slots and what runs on them. -/
structure System where
  slots : List DbSessionLeaseSlot
  tasks : List Task
  /-- The operation counter of each tab. -/
  counters : ℕ → ℕ
  /-- The ledger of ended incarnations. -/
  retired : List ℕ
  /-- The generations whose sweep has been over all slots of its snapshot. -/
  swept : List ℕ
  /-- The sessions that were closed physically. -/
  closed : List ℕ
  nextSession : ℕ

namespace System

def init : System := ⟨[], [], fun _ => 0, [], [], [], 0⟩

/-- A lock section of a slot, with the task that it ends in. -/
def enter (s : System) (k : ℕ) (section' : DbSessionLeaseSlot → DbSessionLeaseSlot × Task)
    (otherwise : Task) : System × Task :=
  match s.slots[k]? with
  | none => (s, otherwise)
  | some slot => ({ s with slots := s.slots.set k (section' slot).1 }, (section' slot).2)

/-- The calling thread goes on, as a new task. -/
def spawn (move : System × Task) : System :=
  { move.1 with tasks := move.1.tasks ++ [move.2] }

end System

/-- The sessions that a filing leaves to be closed. -/
def Filed.toClose (filed : Filed) (incoming : DbSessionLeaseEntry) : List DbSessionLease :=
  filed.displaced.toList.map (·.lease) ++ if filed.stored then [] else [incoming.lease]

def fileSection (retired : List ℕ) (entry : DbSessionLeaseEntry) (slot : DbSessionLeaseSlot) :
    DbSessionLeaseSlot × Task :=
  ((slot.file retired entry).slot, .closing ((slot.file retired entry).toClose entry))

/-- A take ends with a holder, or with a stale session to be closed. -/
def TakeSection.task (took : TakeSection) : Task :=
  match took.taken with
  | some entry => .holding entry.lease
  | none => .closing (took.stale.toList.map (·.lease))

def takeMatchingSection (generation : ℕ) (dbType : DatabaseType) (slot : DbSessionLeaseSlot) :
    DbSessionLeaseSlot × Task :=
  ((slot.takeMatching generation dbType).slot, (slot.takeMatching generation dbType).task)

def takeReusableSection (generation epoch : ℕ) (dbType : DatabaseType)
    (slot : DbSessionLeaseSlot) : DbSessionLeaseSlot × Task :=
  ((slot.takeReusable generation epoch dbType).slot,
    (slot.takeReusable generation epoch dbType).task)

def clearSection (slot : DbSessionLeaseSlot) : DbSessionLeaseSlot × Task :=
  (slot.takeEntry.1, .closing (slot.takeEntry.2.toList.map (·.lease)))

def closeSection (slot : DbSessionLeaseSlot) : DbSessionLeaseSlot × Task :=
  (slot.close.1, .closing (slot.close.2.toList.map (·.lease)))

def sweepSection (generation : ℕ) (left : List ℕ) (stale : List DbSessionLease)
    (slot : DbSessionLeaseSlot) : DbSessionLeaseSlot × Task :=
  ((slot.takeGeneration generation).1,
    .sweeping generation left (stale ++ (slot.takeGeneration generation).2.toList.map (·.lease)))

namespace System

/-- One stretch of a task, from one lock section to the next. -/
def advance (s : System) : Task → System × Task
  | .holding lease => (s, .holding lease)
  | .handingBack call =>
    if !call.owner.isCurrent s.counters then (s, .closing [call.lease])
    else
      match call.disposition with
      | .retain _ => (s, .filing call.slot call.owner call.entry)
      | .discardPhysical _ => (s, .closing [call.lease])
  | .filing k owner entry => s.enter k (fileSection s.retired entry) (.filing k owner entry)
  | .clearing k owner =>
    (s, if !owner.isCurrent s.counters then .done else .clearingOwn k owner)
  | .clearingOwn k owner => s.enter k clearSection (.clearingOwn k owner)
  | .closing (lease :: leases) => ({ s with closed := lease.session :: s.closed }, .closing leases)
  | .closing [] => (s, .done)
  | .sweepQueued generation => (s, .sweeping generation (range s.slots.length) [])
  | .sweeping generation (k :: left) stale =>
    s.enter k (sweepSection generation left stale) (.sweeping generation left stale)
  | .sweeping generation [] stale =>
    ({ s with swept := generation :: s.swept }, .closing stale)
  | .done => (s, .done)

end System

/-- What starts or moves a task. -/
inductive Event
  /-- `SharedDbSessionLease::new`. -/
  | createSlot
  /-- A worker acquires a session from a pool. -/
  | acquire (dbType : DatabaseType)
  /-- The operation counter of a tab is written. -/
  | setCounter (tab operationId : ℕ)
  | takeMatching (slot generation : ℕ) (dbType : DatabaseType)
  | takeReusable (slot generation epoch : ℕ) (dbType : DatabaseType)
  /-- `hand_back_worker_session` is called with the session that a task holds. -/
  | handBack (task : ℕ) (call : HandBackCall)
  | clearWorkerSession (slot : ℕ) (owner : TabOperationOwnership)
  | clear (slot : ℕ)
  | closeForOwnerShutdown (slot : ℕ)
  /-- `reclaim_retired_connection_sessions_in_background`: the mark, with the sweep handed to
  a worker. -/
  | retire (generation : ℕ)
  | advance (task : ℕ)

namespace System

def step (s : System) : Event → System
  | .createSlot => { s with slots := s.slots ++ [{}] }
  | .acquire dbType =>
    { s with
      tasks := s.tasks ++ [.holding ⟨s.nextSession, dbType⟩]
      nextSession := s.nextSession + 1 }
  | .setCounter tab operationId =>
    { s with counters := Function.update s.counters tab operationId }
  | .takeMatching k generation dbType =>
    spawn (s.enter k (takeMatchingSection generation dbType) .done)
  | .takeReusable k generation epoch dbType =>
    spawn (s.enter k (takeReusableSection generation epoch dbType) .done)
  | .handBack i call =>
    match s.tasks[i]? with
    | some (.holding lease) =>
      { s with tasks := s.tasks.set i (.handingBack { call with lease }) }
    | _ => s
  | .clearWorkerSession k owner => spawn (s, .clearing k owner)
  | .clear k => spawn (s.enter k clearSection .done)
  | .closeForOwnerShutdown k => spawn (s.enter k closeSection .done)
  | .retire generation =>
    if generation = 0 then s
    else spawn ({ s with retired := generation :: s.retired }, .sweepQueued generation)
  | .advance i =>
    match s.tasks[i]? with
    | none => s
    | some task =>
      { (s.advance task).1 with tasks := (s.advance task).1.tasks.set i (s.advance task).2 }

end System

/-! ### What lock sections do -/

namespace DbSessionLeaseSlot

/-- How often a slot holds a session. -/
def held (x : ℕ) (slot : DbSessionLeaseSlot) : ℕ :=
  (slot.entry.toList.map (·.lease)).countP (·.session == x)

/-- The slot holds a session of the generation. -/
def HasGeneration (slot : DbSessionLeaseSlot) (generation : ℕ) : Prop :=
  ∃ entry ∈ slot.entry, entry.connectionGeneration = generation

/-- A closed slot is empty. -/
def ClosedEmpty (slot : DbSessionLeaseSlot) : Prop := slot.closed = true → slot.entry = none

@[simp] lemma held_mk_none (x : ℕ) (closed : Bool) : held x ⟨none, closed⟩ = 0 := rfl

@[simp] lemma held_mk_some (x : ℕ) (entry : DbSessionLeaseEntry) (closed : Bool) :
    held x ⟨some entry, closed⟩ = [entry.lease].countP (·.session == x) := rfl

@[simp] lemma not_hasGeneration_mk_none (closed : Bool) (generation : ℕ) :
    ¬ HasGeneration ⟨none, closed⟩ generation := by simp [HasGeneration]

@[simp] lemma hasGeneration_mk_some (entry : DbSessionLeaseEntry) (closed : Bool) (generation : ℕ) :
    HasGeneration ⟨some entry, closed⟩ generation ↔ entry.connectionGeneration = generation := by
  simp [HasGeneration]

end DbSessionLeaseSlot

open DbSessionLeaseSlot

/-- What a lock section may do with a slot while generations are retired: it keeps the
sessions of the slot and of its caller, and gives the slot no session of a retired
generation and no session once it is closed. -/
structure SoundSection (retired : List ℕ)
    (section' : DbSessionLeaseSlot → DbSessionLeaseSlot × Task) (before : Task) : Prop where
  conserves : ∀ slot x, (section' slot).1.held x + (section' slot).2.held x
    = slot.held x + before.held x
  retired : ∀ slot, ∀ g ∈ retired, g ≠ 0 → (section' slot).1.HasGeneration g → slot.HasGeneration g
  closed : ∀ slot, slot.closed = true → (section' slot).1.closed = true
  closedEmpty : ∀ slot, slot.ClosedEmpty → (section' slot).1.ClosedEmpty

lemma closingOf_held (x : ℕ) (leases : List DbSessionLease) :
    (Task.closing leases).held x = leases.countP (·.session == x) := rfl

variable (retired : List ℕ)

open DbSessionLeaseSlot (file held filingDecision close)

open Filed (toClose)

/-- A filing keeps every session: in the slot, or to be closed. -/
lemma file_conserves (slot : DbSessionLeaseSlot) (incoming : DbSessionLeaseEntry) (x : ℕ) :
    (slot.file retired incoming).slot.held x
        + ((slot.file retired incoming).toClose incoming).countP (·.session == x)
      = slot.held x + [incoming.lease].countP (·.session == x) := by
  obtain ⟨entry, closed⟩ := slot
  unfold file
  split_ifs with hrefused
  · simp [toClose]
  · cases entry with
    | none => simp [store, toClose]
    | some existing =>
      dsimp only
      split_ifs with hother
      · simp [store, toClose]
        omega
      · unfold resolveConflict
        split
        · simp [toClose]
        · simp [store, toClose]
          omega
        · simp [toClose]

/-- A session that a filing puts into a slot is of a generation that has not ended, and the
slot is open. -/
lemma file_entry (slot : DbSessionLeaseSlot) (incoming : DbSessionLeaseEntry) :
    (slot.file retired incoming).slot.closed = slot.closed ∧
    (slot.filingDecision retired incoming.connectionGeneration = .allowed ∨
      (slot.file retired incoming).slot = slot) ∧
    ∀ g, (slot.file retired incoming).slot.HasGeneration g →
      slot.HasGeneration g ∨ incoming.connectionGeneration = g := by
  obtain ⟨entry, closed⟩ := slot
  unfold file
  split_ifs with hrefused
  · exact ⟨rfl, .inr rfl, fun g hg => .inl hg⟩
  · refine ⟨?_, .inl (not_not.mp hrefused), fun g => ?_⟩
    · cases entry with
      | none => rfl
      | some existing =>
        dsimp only
        split_ifs
        · rfl
        · unfold resolveConflict
          split <;> rfl
    · cases entry with
      | none => exact fun hg => .inr (by simpa [store] using hg)
      | some existing =>
        dsimp only
        split_ifs
        · exact fun hg => .inr (by simpa [store] using hg)
        · unfold resolveConflict
          split
          · exact fun hg => .inl hg
          · exact fun hg => .inr (by simpa [store] using hg)
          · exact fun hg => .inl (by simpa using hg)

variable {slot : DbSessionLeaseSlot}

lemma filingDecision_allowed {retired : List ℕ} {generation : ℕ}
    (h : slot.filingDecision retired generation = .allowed) :
    ¬ (generation ≠ 0 ∧ generation ∈ retired) ∧ slot.closed = false := by
  unfold filingDecision retainedSessionFiling at h
  split_ifs at h with hretired hclosed
  refine ⟨fun hmem => hretired ?_, by simpa using hclosed⟩
  simp [connectionGenerationIsRetired, hmem.1, hmem.2]

lemma soundSection_file (k : ℕ) (owner : TabOperationOwnership) (entry : DbSessionLeaseEntry) :
    SoundSection retired (fileSection retired entry) (.filing k owner entry) where
  conserves slot x := file_conserves retired slot entry x
  retired slot g hg hne hhas := by
    obtain ⟨-, hdecision, hgen⟩ := file_entry retired slot entry
    obtain hallowed | hsame := hdecision
    · -- a session that is filed is not of a retired generation
      refine (hgen g hhas).resolve_right fun hentry => ?_
      exact (filingDecision_allowed hallowed).1 (hentry ▸ ⟨hne, hg⟩)
    · exact hsame ▸ hhas
  closed slot hclosed := (file_entry retired slot entry).1.trans hclosed
  closedEmpty slot hempty hclosed := by
    obtain ⟨hsame, hdecision, -⟩ := file_entry retired slot entry
    have hclosed' : slot.closed := hsame.symm.trans hclosed
    obtain hallowed | hslot := hdecision
    · rw [(filingDecision_allowed hallowed).2] at hclosed'
      cases hclosed'
    · exact (congrArg DbSessionLeaseSlot.entry hslot).trans (hempty hclosed')

/-- A section that takes from the slot, and gives it nothing. -/
lemma soundSection_take {section' : DbSessionLeaseSlot → DbSessionLeaseSlot × Task} {before : Task}
    (hconserves : ∀ slot x, (section' slot).1.held x + (section' slot).2.held x
      = slot.held x + before.held x)
    (hentry : ∀ slot, (section' slot).1.entry = none ∨ (section' slot).1.entry = slot.entry)
    (hclosed : ∀ slot, slot.closed → (section' slot).1.closed)
    (hopen : ∀ slot, (section' slot).1.closed → slot.closed ∨ (section' slot).1.entry = none) :
    SoundSection retired section' before where
  conserves := hconserves
  retired slot g _ _ hhas := by
    obtain ⟨entry, hmem, hgen⟩ := hhas
    obtain hnone | hsame := hentry slot
    · rw [hnone] at hmem
      cases hmem
    · exact ⟨entry, hsame ▸ hmem, hgen⟩
  closed := hclosed
  closedEmpty slot hempty hslot := by
    obtain hwas | hnone := hopen slot hslot
    · exact (hentry slot).elim id fun hsame => hsame.trans (hempty hwas)
    · exact hnone

open TakeSection (task)

lemma soundSection_takeMatching (generation : ℕ) (dbType : DatabaseType) :
    SoundSection retired (takeMatchingSection generation dbType) .done := by
  refine soundSection_take retired ?_ ?_ ?_ ?_ <;> rintro ⟨entry, closed⟩ <;> cases entry with
  | none => simp [takeMatchingSection, takeMatching, task, Task.held]
  | some entry =>
    simp only [takeMatchingSection, takeMatching]
    split_ifs <;> simp [task, Task.held]

lemma soundSection_takeReusable (generation epoch : ℕ) (dbType : DatabaseType) :
    SoundSection retired (takeReusableSection generation epoch dbType) .done := by
  refine soundSection_take retired ?_ ?_ ?_ ?_ <;> rintro ⟨entry, closed⟩ <;> cases entry with
  | none => simp [takeReusableSection, takeReusable, task, Task.held]
  | some entry =>
    simp only [takeReusableSection, takeReusable]
    split_ifs <;> simp [task, Task.held]

lemma soundSection_clear {before : Task} (h : before.leases = []) :
    SoundSection retired clearSection before := by
  have hbefore : ∀ x, before.held x = 0 := fun x => by rw [Task.held, h]; rfl
  refine soundSection_take retired ?_ ?_ ?_ ?_ <;> rintro ⟨entry, closed⟩ <;> cases entry <;>
    simp [clearSection, takeEntry, closingOf_held, hbefore]

lemma soundSection_close : SoundSection retired closeSection .done := by
  refine soundSection_take retired ?_ ?_ ?_ ?_ <;> rintro ⟨entry, closed⟩ <;> cases entry <;>
    simp [closeSection, close, Task.held]

lemma soundSection_sweep (generation k : ℕ) (left : List ℕ) (stale : List DbSessionLease) :
    SoundSection retired (sweepSection generation left stale)
      (.sweeping generation (k :: left) stale) := by
  refine soundSection_take retired ?_ ?_ ?_ ?_ <;> rintro ⟨entry, closed⟩ <;> cases entry with
  | none => simp [sweepSection, takeGeneration, Task.held]
  | some entry =>
    simp only [sweepSection, takeGeneration]
    split_ifs <;> simp [takeEntry, Task.held, add_comm]

/-- The sweep leaves no session of its generation in a slot. -/
lemma not_hasGeneration_sweepSection (generation : ℕ) (left : List ℕ)
    (stale : List DbSessionLease) (slot : DbSessionLeaseSlot) :
    ¬ (sweepSection generation left stale slot).1.HasGeneration generation := by
  obtain ⟨entry, closed⟩ := slot
  cases entry with
  | none => simp [sweepSection, takeGeneration]
  | some entry =>
    simp only [sweepSection, takeGeneration]
    split_ifs with h
    · simp [takeEntry]
    · simpa using h

/-! ### What no event takes back -/

namespace System

/-- A later state: marks, finished sweeps, closed sessions and closed slots stay, and a slot
gets no session of a generation that has ended. -/
structure Later (s s' : System) : Prop where
  retired : s.retired ⊆ s'.retired
  swept : s.swept ⊆ s'.swept
  closed : s.closed ⊆ s'.closed
  slots : ∀ (k : ℕ) (slot : DbSessionLeaseSlot), s.slots[k]? = some slot → slot.closed = true →
    ∃ slot' : DbSessionLeaseSlot, s'.slots[k]? = some slot' ∧ slot'.closed = true
  hasGeneration : ∀ (k : ℕ) (slot' : DbSessionLeaseSlot), s'.slots[k]? = some slot' →
    ∀ g ∈ s.retired, g ≠ 0 → slot'.HasGeneration g →
      ∃ slot : DbSessionLeaseSlot, s.slots[k]? = some slot ∧ slot.HasGeneration g

lemma Later.refl (s : System) : s.Later s :=
  ⟨List.Subset.refl _, List.Subset.refl _, List.Subset.refl _,
    fun _ slot h hclosed => ⟨slot, h, hclosed⟩, fun _ slot h _ _ _ hhas => ⟨slot, h, hhas⟩⟩

lemma Later.trans {s s' s'' : System} (h : s.Later s') (h' : s'.Later s'') : s.Later s'' where
  retired := List.Subset.trans h.retired h'.retired
  swept := List.Subset.trans h.swept h'.swept
  closed := List.Subset.trans h.closed h'.closed
  slots k slot hslot hclosed := by
    obtain ⟨slot', hslot', hclosed'⟩ := h.slots k slot hslot hclosed
    exact h'.slots k slot' hslot' hclosed'
  hasGeneration k slot'' hslot'' g hg hne hhas := by
    obtain ⟨slot', hslot', hhas'⟩ := h'.hasGeneration k slot'' hslot'' g (h.retired hg) hne hhas
    exact h.hasGeneration k slot' hslot' g hg hne hhas'

lemma Later.withTasks {s s' : System} (h : s.Later s') (tasks : List Task) :
    s.Later { s' with tasks } :=
  ⟨h.retired, h.swept, h.closed, h.slots, h.hasGeneration⟩

/-- How often a session is in a slot. -/
def slotsHeld (s : System) (x : ℕ) : ℕ := total (held x) s.slots

/-- How often a session is with a task. -/
def tasksHeld (s : System) (x : ℕ) : ℕ := total (Task.held x) s.tasks

def ClosedEmpty (s : System) : Prop := ∀ slot ∈ s.slots, slot.ClosedEmpty

/-- No slot holds a session of a generation whose sweep has finished. -/
def Swept (s : System) : Prop :=
  ∀ g ∈ s.swept, g ∈ s.retired ∧ g ≠ 0 ∧ ∀ slot ∈ s.slots, ¬ slot.HasGeneration g

end System

/-- A sweep follows the mark of its generation, and only the slots that are left may hold a
session of it. -/
def Task.SweepsMarked (s : System) : Task → Prop
  | sweepQueued g => g ∈ s.retired ∧ g ≠ 0
  | sweeping g left _ => g ∈ s.retired ∧ g ≠ 0 ∧
      ∀ (k : ℕ) (slot : DbSessionLeaseSlot), s.slots[k]? = some slot → slot.HasGeneration g →
        k ∈ left
  | holding _ | handingBack _ | filing _ _ _ | clearing _ _ | clearingOwn _ _ | closing _
    | done => True

variable {s s' : System} {task : Task}

lemma Task.SweepsMarked.later (h : task.SweepsMarked s)
    (hlater : s.Later s') : task.SweepsMarked s' := by
  cases task with
  | sweepQueued g => exact ⟨hlater.retired h.1, h.2⟩
  | sweeping g left stale =>
    refine ⟨hlater.retired h.1, h.2.1, fun k slot' hslot' hhas => ?_⟩
    obtain ⟨slot, hslot, hhas'⟩ := hlater.hasGeneration k slot' hslot' g h.1 h.2.1 hhas
    exact h.2.2 k slot hslot hhas'
  | _ => trivial

lemma System.Swept.later (h : s.Swept) (hlater : s.Later s')
    (hswept : s'.swept = s.swept) : s'.Swept := by
  intro g hg
  obtain ⟨hretired, hne, hslots⟩ := h g (hswept ▸ hg)
  refine ⟨hlater.retired hretired, hne, fun slot' hslot' hhas => ?_⟩
  obtain ⟨k, hk⟩ := getElem?_of_mem hslot'
  obtain ⟨slot, hslot, hhas'⟩ := hlater.hasGeneration k slot' hk g hretired hne hhas
  exact hslots slot (mem_of_getElem? hslot) hhas'

/-! ### What a task may do -/

/-- What a task may do in one stretch. -/
structure Move (s : System) (task : Task) (s' : System) (task' : Task) : Prop where
  tasks : s'.tasks = s.tasks
  nextSession : s'.nextSession = s.nextSession
  later : s.Later s'
  conserves : ∀ x, s'.slotsHeld x + task'.held x + s'.closed.count x
    = s.slotsHeld x + task.held x + s.closed.count x
  closedEmpty : s.ClosedEmpty → s'.ClosedEmpty
  sweepsMarked : task.SweepsMarked s → task'.SweepsMarked s'
  swept : task.SweepsMarked s → s.Swept → s'.Swept

variable {task' : Task}

/-- A task that touches nothing but itself. -/
lemma Move.of_task (s : System) (hheld : ∀ x, task'.held x = task.held x)
    (hsweep : task.SweepsMarked s → task'.SweepsMarked s) : Move s task s task' where
  tasks := rfl
  nextSession := rfl
  later := .refl s
  conserves x := by rw [hheld]
  closedEmpty := id
  sweepsMarked := hsweep
  swept _ := id

variable {k : ℕ}

lemma later_set {slot' : DbSessionLeaseSlot}
    (hslot : s.slots[k]? = some slot) (hclosed : slot.closed → slot'.closed)
    (hretired : ∀ g ∈ s.retired, g ≠ 0 → slot'.HasGeneration g → slot.HasGeneration g) :
    s.Later { s with slots := s.slots.set k slot' } := by
  have hlt : k < s.slots.length := (List.getElem?_eq_some_iff.mp hslot).1
  refine ⟨List.Subset.refl _, List.Subset.refl _, List.Subset.refl _, ?_, ?_⟩
  · intro j other hother hwas
    by_cases hj : k = j
    · subst hj
      rw [hslot, Option.some.injEq] at hother
      exact ⟨slot', getElem?_set_self hlt, hclosed (hother ▸ hwas)⟩
    · exact ⟨other, (getElem?_set_ne hj).trans hother, hwas⟩
  · intro j other hother g hg hne hhas
    by_cases hj : k = j
    · subst hj
      rw [getElem?_set_self hlt, Option.some.injEq] at hother
      exact ⟨slot, hslot, hretired g hg hne (hother ▸ hhas)⟩
    · exact ⟨other, (getElem?_set_ne hj).symm.trans hother, hhas⟩

open Lease.System

/-- A sound lock section is a move. -/
lemma Move.of_section {otherwise : Task} {section' : DbSessionLeaseSlot → DbSessionLeaseSlot × Task}
    (h : SoundSection s.retired section' task) (hheld : ∀ x, otherwise.held x = task.held x)
    (hsweep : task.SweepsMarked s → s.slots[k]? = none → otherwise.SweepsMarked s)
    (hsection : ∀ slot, s.slots[k]? = some slot → task.SweepsMarked s →
      (section' slot).2.SweepsMarked { s with slots := s.slots.set k (section' slot).1 }) :
    Move s task (s.enter k section' otherwise).1 (s.enter k section' otherwise).2 := by
  unfold enter
  cases hslot : s.slots[k]? with
  | none => exact .of_task s hheld fun hmarked => hsweep hmarked hslot
  | some slot =>
    have hlater := later_set hslot (h.closed slot) (h.retired slot)
    refine ⟨rfl, rfl, hlater, fun x => ?_, fun hempty other hother => ?_, hsection slot hslot,
      fun _ hswept => hswept.later hlater rfl⟩
    · have htotal := total_set_add (held x) hslot (section' slot).1
      have hsection := h.conserves slot x
      dsimp only [slotsHeld]
      omega
    · obtain hmem | rfl := mem_or_eq_of_mem_set hother
      · exact hempty other hmem
      · exact h.closedEmpty slot (hempty slot (mem_of_getElem? hslot))

/-- One slot of a sweep: it holds no session of the generation any more. -/
lemma sweepsMarked_sweepSection {g : ℕ} {left : List ℕ}
    {stale : List DbSessionLease} (hslot : s.slots[k]? = some slot)
    (h : (Task.sweeping g (k :: left) stale).SweepsMarked s) :
    (sweepSection g left stale slot).2.SweepsMarked
      { s with slots := s.slots.set k (sweepSection g left stale slot).1 } := by
  have hlt : k < s.slots.length := (List.getElem?_eq_some_iff.mp hslot).1
  refine ⟨h.1, h.2.1, fun j other hother hhas => ?_⟩
  by_cases hj : k = j
  · subst hj
    rw [getElem?_set_self hlt, Option.some.injEq] at hother
    exact absurd (hother ▸ hhas) (not_hasGeneration_sweepSection g left stale slot)
  · have hmem := h.2.2 j other ((getElem?_set_ne hj).symm.trans hother) hhas
    exact (mem_cons.mp hmem).resolve_left (Ne.symm hj)

open System.Later (refl)

/-- Closing one session. -/
lemma Move.close (s : System) (lease : DbSessionLease) (leases : List DbSessionLease) :
    Move s (.closing (lease :: leases)) { s with closed := lease.session :: s.closed }
      (.closing leases) where
  tasks := rfl
  nextSession := rfl
  later := { refl s with closed := subset_cons_self _ _ }
  conserves x := by
    rw [closingOf_held, closingOf_held, countP_cons, count_cons]
    dsimp only [slotsHeld]
    omega
  closedEmpty := id
  sweepsMarked _ := trivial
  swept _ hswept := hswept

/-- The end of a sweep: no slot is left that may hold a session of the generation. -/
lemma Move.finishSweep (s : System) (g : ℕ) (stale : List DbSessionLease) :
    Move s (.sweeping g [] stale) { s with swept := g :: s.swept } (.closing stale) where
  tasks := rfl
  nextSession := rfl
  later := { refl s with swept := subset_cons_self _ _ }
  conserves _ := rfl
  closedEmpty := id
  sweepsMarked _ := trivial
  swept hmarked hswept g' hg' := by
    obtain rfl | hg' := mem_cons.mp hg'
    · refine ⟨hmarked.1, hmarked.2.1, fun slot hslot hhas => ?_⟩
      obtain ⟨k, hk⟩ := getElem?_of_mem hslot
      exact absurd (hmarked.2.2 k slot hk hhas) not_mem_nil
    · exact hswept g' hg'

/-- Every stretch of every task is a move. -/
theorem advance_move (s : System) (task : Task) :
    Move s task (s.advance task).1 (s.advance task).2 := by
  cases task with
  | holding lease => exact .of_task s (fun _ => rfl) id
  | handingBack call =>
    rw [advance]
    split_ifs with hcur
    · exact .of_task s (fun _ => rfl) fun _ => trivial
    · cases call.disposition with
      | retain state | discardPhysical carried => exact .of_task s (fun _ => rfl) fun _ => trivial
  | filing k owner entry =>
    exact .of_section (soundSection_file s.retired k owner entry) (fun _ => rfl)
      (fun _ _ => trivial) fun _ _ _ => trivial
  | clearing k owner =>
    rw [advance]
    split_ifs with hcur
    · exact .of_task s (fun _ => rfl) fun _ => trivial
    · exact .of_task s (fun _ => rfl) fun _ => trivial
  | clearingOwn k owner =>
    exact .of_section (soundSection_clear s.retired rfl) (fun _ => rfl)
      (fun _ _ => trivial) fun _ _ _ => trivial
  | closing leases =>
    cases leases with
    | nil => exact .of_task s (fun _ => rfl) fun _ => trivial
    | cons lease leases => exact .close s lease leases
  | sweepQueued g =>
    refine .of_task s (fun _ => rfl) fun hmarked => ⟨hmarked.1, hmarked.2, fun k slot hslot _ => ?_⟩
    exact mem_range.mpr (List.getElem?_eq_some_iff.mp hslot).1
  | sweeping g left stale =>
    cases left with
    | nil => exact .finishSweep s g stale
    | cons k left =>
      refine .of_section (soundSection_sweep s.retired g k left stale) (fun _ => rfl)
        (fun hmarked hnone => ⟨hmarked.1, hmarked.2.1, fun j slot hslot hhas => ?_⟩)
        fun slot hslot hmarked => sweepsMarked_sweepSection hslot hmarked
      have hne : j ≠ k := by
        rintro rfl
        rw [hnone] at hslot
        cases hslot
      exact (mem_cons.mp (hmarked.2.2 j slot hslot hhas)).resolve_left hne
  | done => exact .of_task s (fun _ => rfl) id

/-! ### The invariant -/

/-- Every session is in one place, closed slots are empty, sweeps follow their marks, and no
slot holds a session of a generation that was swept. -/
structure Inv (s : System) : Prop where
  places : ∀ x, s.slotsHeld x + s.tasksHeld x + s.closed.count x
    = if x < s.nextSession then 1 else 0
  closedEmpty : s.ClosedEmpty
  sweepsMarked : ∀ task ∈ s.tasks, task.SweepsMarked s
  swept : s.Swept

lemma inv_init : Inv init where
  places x := by simp [slotsHeld, tasksHeld, init]
  closedEmpty := by simp [System.ClosedEmpty, init]
  sweepsMarked := by simp [init]
  swept := by simp [System.Swept, init]

variable {i : ℕ}

/-- A task moves. -/
lemma Inv.set (h : Inv s) (hi : s.tasks[i]? = some task) (hmove : Move s task s' task') :
    Inv { s' with tasks := s'.tasks.set i task' } ∧
      s.Later { s' with tasks := s'.tasks.set i task' } := by
  have hmem := mem_of_getElem? hi
  have hmarked := h.sweepsMarked task hmem
  refine ⟨⟨fun x => ?_, hmove.closedEmpty h.closedEmpty, fun other hother => ?_,
    hmove.swept hmarked h.swept⟩, hmove.later.withTasks _⟩
  · have htotal := total_set_add (Task.held x) (hmove.tasks ▸ hi) task'
    have hconserves := hmove.conserves x
    have hplaces := h.places x
    rw [← hmove.nextSession] at hplaces
    rw [hmove.tasks] at htotal
    dsimp only [slotsHeld, tasksHeld] at *
    rw [hmove.tasks]
    omega
  · rw [hmove.tasks] at hother
    obtain hother | rfl := mem_or_eq_of_mem_set hother
    · exact (h.sweepsMarked other hother).later (hmove.later.withTasks _)
    · exact hmove.sweepsMarked hmarked

/-- A call starts. -/
lemma Inv.spawn (h : Inv s) (hmove : Move s .done s' task') :
    Inv (System.spawn (s', task')) ∧ s.Later (System.spawn (s', task')) := by
  refine ⟨⟨fun x => ?_, hmove.closedEmpty h.closedEmpty, fun other hother => ?_,
    hmove.swept trivial h.swept⟩, hmove.later.withTasks _⟩
  · have hconserves := hmove.conserves x
    have hplaces := h.places x
    have hdone : Task.done.held x = 0 := rfl
    rw [← hmove.nextSession] at hplaces
    refine Eq.trans ?_ hplaces
    dsimp only [System.slotsHeld, System.tasksHeld, System.spawn] at *
    rw [hmove.tasks, total_append, total_cons, total_nil]
    omega
  · change other ∈ s'.tasks ++ [task'] at hother
    rw [hmove.tasks, mem_append, mem_singleton] at hother
    obtain hother | rfl := hother
    · exact (h.sweepsMarked other hother).later (hmove.later.withTasks _)
    · exact hmove.sweepsMarked trivial

/-- A slot is created empty. -/
lemma inv_createSlot (h : Inv s) : Inv (s.step .createSlot) ∧ s.Later (s.step .createSlot) := by
  have hnew : ∀ (k : ℕ) (slot : DbSessionLeaseSlot), (s.slots ++ [⟨none, false⟩])[k]? = some slot →
      s.slots[k]? = some slot ∨ slot = ⟨none, false⟩ := by
    intro k slot hslot
    obtain hlt | hge := lt_or_ge k s.slots.length
    · exact .inl ((getElem?_append_left hlt).symm.trans hslot)
    · rw [getElem?_append_right hge] at hslot
      exact .inr (mem_singleton.mp (mem_of_getElem? hslot))
  have hempty := not_hasGeneration_mk_none false
  have hlater : s.Later (s.step .createSlot) := by
    refine ⟨List.Subset.refl _, List.Subset.refl _, List.Subset.refl _, ?_, ?_⟩
    · intro k slot hslot hclosed
      exact ⟨slot, getElem?_append_left (List.getElem?_eq_some_iff.mp hslot).1 ▸ hslot, hclosed⟩
    · intro k slot hslot g _ _ hhas
      obtain hslot | rfl := hnew k slot hslot
      · exact ⟨slot, hslot, hhas⟩
      · exact absurd hhas (hempty g)
  refine ⟨⟨fun x => ?_, fun slot hslot => ?_,
    fun task htask => (h.sweepsMarked task htask).later hlater, h.swept.later hlater rfl⟩, hlater⟩
  · have hplaces := h.places x
    refine Eq.trans ?_ hplaces
    dsimp only [step, slotsHeld, tasksHeld]
    rw [total_append, total_cons, total_nil, held_mk_none, add_zero, add_zero]
  · obtain hslot | hslot := mem_append.mp hslot
    · exact h.closedEmpty slot hslot
    · rw [mem_singleton.mp hslot]
      exact fun hclosed => absurd hclosed Bool.false_ne_true

/-- A session that is acquired is with its worker. -/
lemma inv_acquire (h : Inv s) (dbType : DatabaseType) :
    Inv (s.step (.acquire dbType)) ∧ s.Later (s.step (.acquire dbType)) := by
  have hlater := refl s
  refine ⟨⟨fun x => ?_, h.closedEmpty, fun task htask => ?_, h.swept⟩,
    ⟨hlater.retired, hlater.swept, hlater.closed, hlater.slots, hlater.hasGeneration⟩⟩
  · have hplaces := h.places x
    have hnew : (Task.holding ⟨s.nextSession, dbType⟩).held x
        = if s.nextSession = x then 1 else 0 := by
      simp [Task.held, countP_cons]
    have hcnt : (if x < s.nextSession + 1 then 1 else 0)
        = (if x < s.nextSession then 1 else 0) + if s.nextSession = x then 1 else 0 := by
      split_ifs <;> omega
    refine Eq.trans ?_ hcnt.symm
    rw [← hplaces]
    dsimp only [step, slotsHeld, tasksHeld]
    rw [total_append, total_cons, total_nil]
    omega
  · obtain htask | htask := mem_append.mp htask
    · exact h.sweepsMarked task htask
    · rw [mem_singleton.mp htask]
      trivial

/-- A mark comes before its sweep. -/
lemma Move.mark (s : System) {generation : ℕ} (hne : generation ≠ 0) :
    Move s .done { s with retired := generation :: s.retired } (.sweepQueued generation) := by
  have hlater : s.Later { s with retired := generation :: s.retired } :=
    { refl s with retired := subset_cons_self _ _ }
  exact ⟨rfl, rfl, hlater, fun _ => rfl, id, fun _ => ⟨mem_cons_self, hne⟩,
    fun _ hswept => hswept.later hlater rfl⟩

/-- Every event keeps the invariant and leads to a later state. -/
theorem step_inv (s : System) (e : Event) (h : Inv s) : Inv (s.step e) ∧ s.Later (s.step e) := by
  have hsame : Inv s ∧ s.Later s := ⟨h, .refl s⟩
  cases e with
  | createSlot => exact inv_createSlot h
  | acquire dbType => exact inv_acquire h dbType
  | setCounter tab operationId =>
    exact ⟨⟨h.places, h.closedEmpty, h.sweepsMarked, h.swept⟩, hsame.2.retired, hsame.2.swept,
      hsame.2.closed, hsame.2.slots, hsame.2.hasGeneration⟩
  | takeMatching k generation dbType =>
    exact h.spawn (.of_section (soundSection_takeMatching s.retired generation dbType)
      (fun _ => rfl) (fun _ _ => trivial) fun slot _ _ => by
        rw [takeMatchingSection, task]
        split <;> trivial)
  | takeReusable k generation epoch dbType =>
    exact h.spawn (.of_section (soundSection_takeReusable s.retired generation epoch dbType)
      (fun _ => rfl) (fun _ _ => trivial) fun slot _ _ => by
        rw [takeReusableSection, task]
        split <;> trivial)
  | handBack i call =>
    rw [step]
    split
    · rename_i lease htask
      exact h.set htask (.of_task s (fun _ => rfl) fun _ => trivial)
    · exact hsame
  | clearWorkerSession k owner => exact h.spawn (.of_task s (fun _ => rfl) fun _ => trivial)
  | clear k =>
    exact h.spawn (.of_section (soundSection_clear s.retired rfl) (fun _ => rfl)
      (fun _ _ => trivial) fun _ _ _ => trivial)
  | closeForOwnerShutdown k =>
    exact h.spawn (.of_section (soundSection_close s.retired) (fun _ => rfl)
      (fun _ _ => trivial) fun _ _ _ => trivial)
  | retire generation =>
    rw [step]
    split_ifs with hzero
    · exact hsame
    · exact h.spawn (.mark s hzero)
  | advance i =>
    rw [step]
    cases htask : s.tasks[i]? with
    | none => exact hsame
    | some task => exact h.set htask (advance_move s task)

/-! ### Calls that nothing interrupts -/

lemma step_advance (h : s.tasks[i]? = some task) : s.step (.advance i) =
      { (s.advance task).1 with tasks := (s.advance task).1.tasks.set i (s.advance task).2 } := by
  rw [step]
  simp only [h]

lemma set_self {slots : List DbSessionLeaseSlot}
    (h : slots[k]? = some slot) : slots.set k slot = slots := by
  obtain ⟨hlt, rfl⟩ := List.getElem?_eq_some_iff.mp h
  exact set_getElem_self hlt

open DbSessionLeaseEntry

/-- A hand-back that no other call interrupts leaves the slot as `handBackWorkerSession` does,
and closes the sessions that it closes. -/
theorem handBack_alone {call : HandBackCall}
    (hi : s.tasks[i]? = some (.handingBack call)) (hslot : s.slots[call.slot]? = some slot) :
    let outcome := handBackWorkerSession s.counters s.retired slot call.owner
      call.connectionGeneration call.poolContextEpoch call.lease call.disposition call.currentScope
    ∃ n, run step s (replicate n (.advance i)) =
      { s with
        slots := s.slots.set call.slot outcome.slot
        tasks := s.tasks.set i (.closing (outcome.closed.map (·.lease))) } := by
  have hlt : i < s.tasks.length := (List.getElem?_eq_some_iff.mp hi).1
  have hfirst := step_advance hi
  rw [advance] at hfirst
  dsimp only [handBackWorkerSession]
  split_ifs at hfirst ⊢ with hcur
  · refine ⟨1, ?_⟩
    rw [replicate_one, run_cons, hfirst]
    rw [set_self hslot]
    rfl
  · cases hdisp : call.disposition with
    | discardPhysical carried =>
      refine ⟨1, ?_⟩
      rw [hdisp] at hfirst
      rw [replicate_one, run_cons, hfirst]
      dsimp only [applyRetainedSessionDispositionWithScope]
      rw [set_self hslot]
      rfl
    | retain state =>
      refine ⟨2, ?_⟩
      rw [hdisp] at hfirst
      have hentry : call.entry = ⟨call.connectionGeneration, call.poolContextEpoch, call.lease,
          state, call.currentScope⟩ := by
        rw [HandBackCall.entry, hdisp, RetainedSessionDisposition.state]
      rw [replicate_succ, replicate_one, run_cons, run_cons, hfirst,
        step_advance (getElem?_set_self hlt), advance, enter]
      rw [hslot]
      rw [set_set, hentry]
      simp only [fileSection, toClose, applyRetainedSessionDispositionWithScope,
        fileIntoSlot, discardPhysical, map_append, map_map,
        apply_ite (map _), map_nil, map_cons]
      rfl

/-- The same for a worker that clears the slot. -/
theorem clear_alone {owner : TabOperationOwnership} (hi : s.tasks[i]? = some (.clearing k owner))
    (hslot : s.slots[k]? = some slot) (hcur : owner.isCurrent s.counters) :
    let outcome := clearWorkerSession s.counters slot owner
    run step s [.advance i, .advance i] =
      { s with
        slots := s.slots.set k outcome.slot
        tasks := s.tasks.set i (.closing (outcome.closed.map (·.lease))) } := by
  have hlt : i < s.tasks.length := (List.getElem?_eq_some_iff.mp hi).1
  have hown : ¬ (!owner.isCurrent s.counters) := by simp [hcur]
  rw [run_cons, run_cons, step_advance hi, advance, if_neg hown,
    step_advance (getElem?_set_self hlt), advance, enter]
  dsimp only [clearWorkerSession]
  rw [hslot, if_neg hown]
  simp only [clearSection, set_set, discardPhysical, map_map]
  rfl

end SpaceQuery.Lease
