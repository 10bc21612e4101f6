import SpaceQuery.Runtime.AnnouncedTransitions

/-!
Which tabs and which work name a connection, from `db/runtime.rs`: the counters of
`ConnectionRuntime`, the bindings of tabs to connections, and `is_idle`.

Every operation on a binding is a section under its lock, which raises and lowers the counters of
connections one atomic operation at a time; `is_idle` takes no lock and reads the counters one after
the other. An `Event` is what one thread does up to and including its next counter operation, so the
lists of events are the interleavings.

The scope of a binding and its session state are not modelled: no counter depends on them.
-/

namespace SpaceQuery.Runtime

/-! ### Counters -/

/-- The counters of a `ConnectionRuntime`. -/
inductive Counter
  | boundTabs | detachedTabs | activeWork
  deriving DecidableEq

/-- The counters of every connection. -/
abbrev Counts := ConnectionId → Counter → ℕ

namespace Counts

def fetchAdd (counter : Counter) (c : Counts) (r : ConnectionId) : Counts :=
  fun r' counter' => if r' = r ∧ counter' = counter then c r' counter' + 1 else c r' counter'

def decrementIfPositive (counter : Counter) (c : Counts) (r : ConnectionId) : Counts :=
  fun r' counter' => if r' = r ∧ counter' = counter then c r' counter' - 1 else c r' counter'

def attachTab : Counts → ConnectionId → Counts := fetchAdd .boundTabs

def detachTab : Counts → ConnectionId → Counts := decrementIfPositive .boundTabs

def attachDetachedTab : Counts → ConnectionId → Counts := fetchAdd .detachedTabs

def detachDetachedTab : Counts → ConnectionId → Counts := decrementIfPositive .detachedTabs

def beginWork : Counts → ConnectionId → Counts := fetchAdd .activeWork

/-- `Drop for ConnectionWorkGuard`. -/
def endWork : Counts → ConnectionId → Counts := decrementIfPositive .activeWork

/-- An operation on the connection that a field names, if it names one. -/
def onNamed (c : Counts) (change : Counts → ConnectionId → Counts) : Option ConnectionId → Counts
  | some r => change c r
  | none => c

end Counts

/-! ### Bindings -/

/-- Where a section stands between two of its counter operations. -/
inductive Point
  /-- `replace_bound_runtime` counted the new tab and is to store the connection. -/
  | attached (runtime : ConnectionId)
  /-- The detached connection is to be dropped. -/
  | clearing
  /-- `detach_locked` took the connection out and is to count the detached tab. -/
  | detaching (runtime : ConnectionId) (giveUp : Bool)
  /-- The detached tab is counted and is to be stored. -/
  | naming (runtime : ConnectionId) (giveUp : Bool)
  deriving DecidableEq

/-- A section under the lock of a binding: what the binding named before it and will name
after it. -/
structure LockSection where
  before : Option ConnectionId
  after : Option ConnectionId
  point : Point
  deriving DecidableEq

/-- `TabConnectionBindingState` with the section that holds its lock, if one does. -/
structure Binding where
  runtime : Option ConnectionId := none
  detachedRuntime : Option ConnectionId := none
  revision : ℕ := 1
  lockSection : Option LockSection := none
  dropped : Bool := false
  deriving DecidableEq

namespace Binding

variable (b : Binding) (c : Counts)

/-- The connection of `snapshot`, bound or detached. -/
def named : Option ConnectionId := b.runtime.or b.detachedRuntime

/-- The tab names a connection as seen outside of its lock; while a section runs, it does
when the section finds and leaves it so. -/
def Names (r : ConnectionId) : Prop :=
  match b.lockSection with
  | none => b.named = some r
  | some sec => sec.before = some r ∧ sec.after = some r

instance (r : ConnectionId) : Decidable (b.Names r) := by
  unfold Names
  cases b.lockSection <;> infer_instance

/-- A section may start: the tab is there and its lock is free. -/
def isFree : Bool := b.lockSection.isNone && !b.dropped

/-- The section ends. -/
def unlock : Binding := { b with revision := b.revision + 1, lockSection := none }

/-- `bind`, up to its first counter operation; binding a tab to the connection it is bound
to counts nothing. -/
def bind (runtime : ConnectionId) : Counts × Binding :=
  if b.runtime = some runtime then
    (c, { b with lockSection := some ⟨b.named, some runtime, .clearing⟩ })
  else
    (c.attachTab runtime, { b with lockSection := some ⟨b.named, some runtime, .attached runtime⟩ })

/-- `detach_locked`, up to its first counter operation; `give_up_if_revision` goes on to drop
the detached connection. -/
def detachLocked (giveUp : Bool) : Counts × Binding :=
  match b.runtime with
  | some runtime =>
    (c.detachTab runtime,
      { b with
        runtime := none
        lockSection := some
          ⟨b.named, if giveUp then none else some runtime, .detaching runtime giveUp⟩ })
  | none =>
    if giveUp then (c, { b with lockSection := some ⟨b.named, none, .clearing⟩ })
    else (c, b.unlock)

/-- `Drop for TabConnectionBindingInner`; the detached connection is a field and drops
after it. -/
def drop : Counts × Binding :=
  (c.onNamed Counts.detachTab b.runtime,
    { b with runtime := none, lockSection := some ⟨none, none, .clearing⟩, dropped := true })

/-- The running section goes on to its next counter operation or its end. -/
def advance : Counts × Binding :=
  match b.lockSection with
  | none => (c, b)
  | some ⟨before, after, .attached runtime⟩ =>
    (c.onNamed Counts.detachTab b.runtime,
      { b with runtime := some runtime, lockSection := some ⟨before, after, .clearing⟩ })
  | some ⟨_, _, .clearing⟩ =>
    (c.onNamed Counts.detachDetachedTab b.detachedRuntime,
      { b with detachedRuntime := none }.unlock)
  | some ⟨before, after, .detaching runtime giveUp⟩ =>
    (c.attachDetachedTab runtime,
      { b with lockSection := some ⟨before, after, .naming runtime giveUp⟩ })
  | some ⟨before, after, .naming runtime giveUp⟩ =>
    let c := c.onNamed Counts.detachDetachedTab b.detachedRuntime
    let b := { b with detachedRuntime := some runtime }
    if giveUp then (c, { b with lockSection := some ⟨before, after, .clearing⟩ })
    else (c, b.unlock)

/-- `fork_for_new_tab`: the tab it opens. -/
def fork : Counts × Binding :=
  match b.runtime with
  | some runtime => (c.attachTab runtime, { runtime := some runtime })
  | none =>
    (c.onNamed Counts.attachDetachedTab b.detachedRuntime, { detachedRuntime := b.detachedRuntime })

end Binding

/-! ### `is_idle` -/

/-- What a call of `is_idle` reads next. -/
inductive Read
  | counter (counter : Counter)
  /-- `db_activity_names_connection`, outside of this model. -/
  | activity
  /-- The call has answered. -/
  | answered (idle : Bool)
  deriving DecidableEq

/-- The conjuncts of `is_idle` in their order. -/
def Counter.next : Counter → Read
  | .boundTabs => .counter .detachedTabs
  | .detachedTabs => .counter .activeWork
  | .activeWork => .activity

/-- A call of `is_idle`. -/
structure Probe where
  runtime : ConnectionId
  read : Read := .counter .boundTabs
  deriving DecidableEq

/-- The next read: the conjunction stops at the first counter that is not zero. -/
def Probe.advance (p : Probe) (c : Counts) (activityNames : Bool) : Probe :=
  match p.read with
  | .counter counter =>
    { p with read := if c p.runtime counter = 0 then counter.next else .answered false }
  | .activity => { p with read := .answered !activityNames }
  | .answered idle => { p with read := .answered idle }

/-- The call has not answered yet. -/
def Probe.isRunning (p : Probe) : Bool :=
  match p.read with
  | .answered _ => false
  | _ => true

/-- `remove_transient_if_idle`, which made the call, ends the connection. -/
def Probe.disconnects (p : Probe) : Bool := p.read == .answered true

/-! ### The system -/

/-- The tabs and the connections they count for. -/
structure System where
  counts : Counts
  bindings : List Binding
  /-- The work guards; a guard that was dropped names nothing. -/
  guards : List (Option ConnectionId)
  probes : List Probe

/-- An application that has opened no tab yet. -/
def System.init : System := ⟨fun _ _ => 0, [], [], []⟩

/-- The calls on the tabs. -/
inductive Action
  | bound (runtime : ConnectionId)
  | unbound
  | fork (tab : ℕ)
  | bind (tab : ℕ) (runtime : ConnectionId)
  | bindIfRevision (tab : ℕ) (expectedRevision : ℕ) (runtime : ConnectionId)
  | detachIfRevision (tab : ℕ) (expectedRevision : ℕ)
  | giveUpIfRevision (tab : ℕ) (expectedRevision : ℕ)
  | drop (tab : ℕ)
  /-- The section that holds the lock of a tab goes on. -/
  | advance (tab : ℕ)
  | beginWork (runtime : ConnectionId)
  | dropWork (guard : ℕ)
  | isIdle (runtime : ConnectionId)
  | read (probe : ℕ) (activityNames : Bool)
  deriving DecidableEq

namespace System

variable (s : System)

/-- One tab moves; `enabled` says when it can. -/
def onTab (tab : ℕ) (enabled : Binding → Bool) (move : Binding → Counts × Binding) : System :=
  match s.bindings[tab]? with
  | none => s
  | some b =>
    if enabled b then
      { s with counts := (move b).1, bindings := s.bindings.set tab (move b).2 }
    else s

/-- A section with the right revision. -/
def atRevision (expectedRevision : ℕ) (b : Binding) : Bool :=
  b.isFree && b.revision == expectedRevision

def act (s : System) : Action → System
  | .bound runtime =>
    { s with
      counts := s.counts.attachTab runtime
      bindings := s.bindings ++ [{ runtime := some runtime }] }
  | .unbound => { s with bindings := s.bindings ++ [{}] }
  | .fork tab =>
    match s.bindings[tab]? with
    | none => s
    | some b =>
      if b.isFree then
        { s with counts := (b.fork s.counts).1, bindings := s.bindings ++ [(b.fork s.counts).2] }
      else s
  | .bind tab runtime => s.onTab tab Binding.isFree fun b => b.bind s.counts runtime
  | .bindIfRevision tab expectedRevision runtime =>
    s.onTab tab (atRevision expectedRevision) fun b => b.bind s.counts runtime
  | .detachIfRevision tab expectedRevision =>
    s.onTab tab (atRevision expectedRevision) fun b => b.detachLocked s.counts false
  | .giveUpIfRevision tab expectedRevision =>
    s.onTab tab (atRevision expectedRevision) fun b => b.detachLocked s.counts true
  | .drop tab => s.onTab tab Binding.isFree fun b => b.drop s.counts
  | .advance tab => s.onTab tab (fun _ => true) fun b => b.advance s.counts
  | .beginWork runtime =>
    { s with counts := s.counts.beginWork runtime, guards := s.guards ++ [some runtime] }
  | .dropWork guard =>
    match s.guards[guard]? with
    | some (some runtime) =>
      { s with counts := s.counts.endWork runtime, guards := s.guards.set guard none }
    | _ => s
  | .isIdle runtime => { s with probes := s.probes ++ [{ runtime }] }
  | .read probe activityNames =>
    match s.probes[probe]? with
    | none => s
    | some p => { s with probes := s.probes.set probe (p.advance s.counts activityNames) }

/-- Something names the connection: a tab, bound or detached, or running work. -/
def Named (r : ConnectionId) : Prop :=
  (∃ b ∈ s.bindings, b.Names r) ∨ some r ∈ s.guards

instance (r : ConnectionId) : Decidable (s.Named r) := by
  unfold Named
  infer_instance

end System

end SpaceQuery.Runtime
