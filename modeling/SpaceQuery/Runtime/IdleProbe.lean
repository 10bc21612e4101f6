import SpaceQuery.Lib.Tally
import SpaceQuery.Runtime.TabBindings

/-!
What a call of `is_idle` can miss: it reads three counters without a lock, and a tab that detaches
or is bound again moves from one counter to another in between.
-/

namespace SpaceQuery.Runtime

open Runs List

/-! ### What is counted for a tab and a guard -/

/-- `1` where a field names the connection. -/
def holds (field : Option ConnectionId) (r : ConnectionId) : ℕ := if field = some r then 1 else 0

@[simp] lemma holds_none (r : ConnectionId) : holds none r = 0 := rfl

lemma holds_pos_iff {field : Option ConnectionId} {r : ConnectionId} :
    0 < holds field r ↔ field = some r := by
  rw [holds]
  split_ifs with h <;> simp [h]

namespace Binding

variable (b : Binding)

/-- The connection that is counted as bound and not stored yet. -/
@[simp] def incoming : Option ConnectionId :=
  match b.lockSection with
  | some ⟨_, _, .attached runtime⟩ => some runtime
  | _ => none

/-- The connection that is counted as detached and not stored yet. -/
@[simp] def incomingDetached : Option ConnectionId :=
  match b.lockSection with
  | some ⟨_, _, .naming runtime _⟩ => some runtime
  | _ => none

/-- How often a counter of a connection counts the tab. -/
@[simp] def held (counter : Counter) (r : ConnectionId) : ℕ :=
  match counter with
  | .boundTabs => holds b.runtime r + holds b.incoming r
  | .detachedTabs => holds b.detachedRuntime r + holds b.incomingDetached r
  | .activeWork => 0

end Binding

variable (counter : Counter)

/-- How often a counter of a connection counts a guard. -/
def guardHeld (r : ConnectionId) (guard : Option ConnectionId) : ℕ :=
  match counter with
  | .activeWork => holds guard r
  | .boundTabs | .detachedTabs => 0

open Tally Counts

variable (s : System)

open Binding

/-- Every counter counts the tabs and the guards. -/
def System.Counted : Prop :=
  ∀ counter r, s.counts r counter = total (held · counter r) s.bindings
      + total (guardHeld counter r) s.guards

/-! ### What a move of a tab counts -/

/-- A move of a tab from `b` to `b'` changes the counters by what it changes for the tab. -/
def Moves (c c' : Counts) (b b' : Binding) : Prop :=
  ∀ counter r, c' r counter + b.held counter r = c r counter + b'.held counter r

variable (c : Counts)

/-- The tab is counted for what it holds. -/
def Covers (b : Binding) : Prop := ∀ counter r, b.held counter r ≤ c r counter

lemma fetchAdd_apply (runtime r : ConnectionId) (counter' : Counter) :
    c.fetchAdd counter runtime r counter'
      = c r counter' + if counter' = counter then holds (some runtime) r else 0 := by
  rw [fetchAdd, holds]
  split_ifs <;> simp_all

lemma decrementIfPositive_apply (runtime r : ConnectionId) (counter' : Counter) :
    c.decrementIfPositive counter runtime r counter'
      = c r counter' - if counter' = counter then holds (some runtime) r else 0 := by
  rw [decrementIfPositive, holds]
  split_ifs <;> simp_all

lemma onNamed_fetchAdd_apply (field : Option ConnectionId) (r : ConnectionId) (counter' : Counter) :
    c.onNamed (fetchAdd counter) field r counter'
      = c r counter' + if counter' = counter then holds field r else 0 := by
  cases field with
  | none => simp [onNamed]
  | some runtime => exact fetchAdd_apply counter c runtime r counter'

lemma onNamed_decrementIfPositive_apply
    (field : Option ConnectionId) (r : ConnectionId) (counter' : Counter) :
    c.onNamed (decrementIfPositive counter) field r counter'
      = c r counter' - if counter' = counter then holds field r else 0 := by
  cases field with
  | none => simp [onNamed]
  | some runtime => exact decrementIfPositive_apply counter c runtime r counter'

section
variable {c : Counts} {b : Binding}

section

variable (hfree : b.lockSection = none)

include hfree

lemma moves_bind (runtime : ConnectionId) :
    Moves c (b.bind c runtime).1 b (b.bind c runtime).2 := by
  intro counter r
  rw [Binding.bind]
  split
  · cases counter <;>
      simp [hfree]
  · dsimp only
    rw [attachTab, fetchAdd_apply]
    cases counter <;>
      simp [hfree]
    omega

lemma moves_detachLocked (hcov : Covers c b) (giveUp : Bool) :
    Moves c (b.detachLocked c giveUp).1 b (b.detachLocked c giveUp).2 := by
  intro counter r
  have hle := hcov counter r
  rw [detachLocked]
  cases hrun : b.runtime with
  | some runtime =>
    dsimp only
    rw [detachTab, decrementIfPositive_apply]
    cases counter <;>
      simp [hfree, hrun] at hle ⊢
    omega
  | none =>
    cases giveUp <;> cases counter <;>
      simp [unlock, hfree, hrun]

lemma moves_drop (hcov : Covers c b) : Moves c (b.drop c).1 b (b.drop c).2 := by
  intro counter r
  have hle := hcov counter r
  rw [Binding.drop]
  dsimp only
  rw [detachTab, onNamed_decrementIfPositive_apply]
  cases counter <;>
    simp [hfree] at hle ⊢
  omega

end

lemma moves_advance (hcov : Covers c b) : Moves c (b.advance c).1 b (b.advance c).2 := by
  intro counter r
  have hle := hcov counter r
  rw [advance]
  cases hsec : b.lockSection with
  | none => rfl
  | some sec =>
    obtain ⟨before, after, point⟩ := sec
    cases point with
    | attached runtime =>
      dsimp only
      rw [detachTab, onNamed_decrementIfPositive_apply]
      cases counter <;>
        simp [hsec] at hle ⊢
      omega
    | clearing =>
      dsimp only
      rw [detachDetachedTab, onNamed_decrementIfPositive_apply]
      cases counter <;>
        simp [unlock, hsec] at hle ⊢
      omega
    | detaching runtime giveUp =>
      dsimp only
      rw [attachDetachedTab, fetchAdd_apply]
      cases counter <;>
        simp [hsec]
      omega
    | naming runtime giveUp =>
      rw [detachDetachedTab]
      cases giveUp <;> cases counter <;>
        simp [onNamed_decrementIfPositive_apply, unlock, hsec] at hle ⊢ <;>
        omega

/-- A forked tab is counted for what it starts with. -/
lemma counts_fork (counter : Counter) (r : ConnectionId) :
    (b.fork c).1 r counter = c r counter + (b.fork c).2.held counter r := by
  rw [fork]
  cases b.runtime with
  | some runtime =>
    dsimp only
    rw [attachTab, fetchAdd_apply]
    cases counter <;> simp
  | none =>
    dsimp only
    rw [attachDetachedTab, onNamed_fetchAdd_apply]
    cases counter <;> simp

end

/-! ### The counters are exact -/

variable {b : Binding}

lemma System.Counted.covers {s : System} (hs : s.Counted) (hb : b ∈ s.bindings) :
    Covers s.counts b := by
  intro counter r
  rw [hs counter r]
  exact (le_total (held · counter r) hb).trans (Nat.le_add_right _ _)

open Runtime.System

lemma System.Counted.onTab {s : System} (hs : s.Counted) (tab : ℕ) (enabled : Binding → Bool)
    {move : Binding → Counts × Binding}
    (hmove : ∀ b ∈ s.bindings, enabled b → Moves s.counts (move b).1 b (move b).2) :
    (s.onTab tab enabled move).Counted := by
  rw [System.onTab]
  cases hb : s.bindings[tab]? with
  | none => exact hs
  | some b =>
    dsimp only
    split_ifs with henabled
    · intro counter r
      have hmoves := hmove b (mem_of_getElem? hb) henabled counter r
      have htotal := total_set_add (held · counter r) hb (move b).2
      have hcnt := hs counter r
      dsimp only at htotal ⊢
      omega
    · exact hs

lemma lockSection_eq_none (h : b.isFree) : b.lockSection = none := by
  rw [isFree, Bool.and_eq_true, Option.isNone_iff_eq_none] at h
  exact h.1

lemma lockSection_eq_none_of_atRevision {expectedRevision : ℕ}
    (h : atRevision expectedRevision b) : b.lockSection = none := by
  rw [atRevision, Bool.and_eq_true] at h
  exact lockSection_eq_none h.1

/-- Every action keeps the counters exact. -/
lemma System.Counted.act {s : System} (hs : s.Counted) (a : Action) : (s.act a).Counted := by
  cases a with
  | bound runtime =>
    intro counter r
    have hcnt := hs counter r
    simp only [System.act, total_append, total_cons, total_nil]
    rw [attachTab, fetchAdd_apply]
    cases counter <;>
      simp at hcnt ⊢ <;> omega
  | unbound =>
    intro counter r
    have hcnt := hs counter r
    simp only [System.act, total_append, total_cons, total_nil]
    cases counter <;>
      simp at hcnt ⊢ <;> omega
  | fork tab =>
    simp only [System.act]
    cases s.bindings[tab]? with
    | none => exact hs
    | some b =>
      dsimp only
      split_ifs
      · intro counter r
        have hcnt := hs counter r
        dsimp only
        rw [counts_fork, total_append, total_cons, total_nil]
        omega
      · exact hs
  | bind tab runtime =>
    exact hs.onTab tab _ fun b _ h => moves_bind (lockSection_eq_none h) runtime
  | bindIfRevision tab expectedRevision runtime =>
    exact hs.onTab tab _ fun b _ h => moves_bind (lockSection_eq_none_of_atRevision h) runtime
  | detachIfRevision tab expectedRevision =>
    exact hs.onTab tab _ fun b hb h =>
      moves_detachLocked (lockSection_eq_none_of_atRevision h) (hs.covers hb) false
  | giveUpIfRevision tab expectedRevision =>
    exact hs.onTab tab _ fun b hb h =>
      moves_detachLocked (lockSection_eq_none_of_atRevision h) (hs.covers hb) true
  | drop tab =>
    exact hs.onTab tab _ fun b hb h => moves_drop (lockSection_eq_none h) (hs.covers hb)
  | advance tab => exact hs.onTab tab _ fun b hb _ => moves_advance (hs.covers hb)
  | beginWork runtime =>
    intro counter r
    have hcnt := hs counter r
    simp only [System.act, total_append, total_cons, total_nil]
    rw [beginWork, fetchAdd_apply]
    cases counter <;> simp [guardHeld] at hcnt ⊢ <;> omega
  | dropWork guard =>
    simp only [System.act]
    split
    case h_2 => exact hs
    case h_1 runtime hguard =>
      intro counter r
      have hcnt := hs counter r
      have htotal := total_set_add (guardHeld counter r) hguard none
      dsimp only
      rw [endWork, decrementIfPositive_apply]
      cases counter <;> simp [guardHeld] at hcnt htotal ⊢ <;> omega
  | isIdle runtime => exact hs
  | read probe activityNames =>
    simp only [System.act]
    cases s.probes[probe]? with
    | none => exact hs
    | some p => exact hs

lemma counted_init : init.Counted := fun _ _ => rfl

/-! ### What a call sees -/

/-- Something is counted in a counter of the connection: a tab that is bound to it, a tab
that is detached from it, or work that runs on it. -/
def System.CountedIn (r : ConnectionId) : Counter → Prop
  | .boundTabs => ∃ b ∈ s.bindings, b.runtime = some r ∨ b.incoming = some r
  | .detachedTabs => ∃ b ∈ s.bindings, b.detachedRuntime = some r ∨ b.incomingDetached = some r
  | .activeWork => some r ∈ s.guards

instance (r : ConnectionId) (counter : Counter) : Decidable (s.CountedIn r counter) :=
  match counter with
  | .boundTabs | .detachedTabs => List.decidableBEx _ s.bindings
  | .activeWork => decidable_of_iff (∃ guard ∈ s.guards, guard = some r) (by simp [CountedIn])

lemma System.Counted.pos_iff {s : System} (hs : s.Counted) (r : ConnectionId)
    (counter : Counter) : 0 < s.counts r counter ↔ s.CountedIn r counter := by
  rw [hs counter r, Nat.add_pos_iff_pos_or_pos, total_pos_iff, total_pos_iff]
  cases counter with
  | boundTabs | detachedTabs =>
    simp only [held, guardHeld, Nat.add_pos_iff_pos_or_pos, holds_pos_iff]
    simp [System.CountedIn]
  | activeWork =>
    simp only [held, guardHeld, holds_pos_iff]
    simp [System.CountedIn]

/-- Actions other than its own reads leave a call where it stands; one that starts has read
nothing. -/
lemma probes_act {a : Action} {probe : ℕ} (hread : ∀ activityNames, a ≠ .read probe activityNames) :
    (s.act a).probes[probe]? = s.probes[probe]? ∨
      s.probes[probe]? = none ∧ ∃ runtime, (s.act a).probes[probe]? = some { runtime } := by
  have honTab : ∀ tab enabled move, (s.onTab tab enabled move).probes = s.probes := by
    intro tab enabled move
    rw [onTab]
    split
    · rfl
    · split_ifs <;> rfl
  cases a with
  | isIdle runtime =>
    simp only [act, getElem?_append]
    split_ifs with hlt
    · exact .inl rfl
    · rw [getElem?_eq_none (Nat.le_of_not_lt hlt)]
      cases hi : probe - s.probes.length with
      | zero => exact .inr ⟨rfl, runtime, rfl⟩
      | succ n => exact .inl rfl
  | read probe' activityNames =>
    simp only [act]
    have hne : probe' ≠ probe := fun heq => hread activityNames (heq ▸ rfl)
    split
    · exact .inl rfl
    · exact .inl (getElem?_set_ne hne)
  | fork tab =>
    simp only [act]
    split
    · exact .inl rfl
    · split_ifs <;> exact .inl rfl
  | dropWork guard =>
    simp only [act]
    split <;> exact .inl rfl
  | bound runtime | unbound | beginWork runtime => exact .inl rfl
  | _ => exact .inl (congrArg (·[probe]?) (honTab _ _ _))

/-! ### Sections -/

namespace Binding

/-- What a section leaves the tab naming is where it stands, or on the way there. -/
def SectionOk (b : Binding) : Prop :=
  match b.lockSection with
  | none => True
  | some ⟨_, after, .attached runtime⟩ => after = some runtime
  | some ⟨_, after, .clearing⟩ => after = none ∨ after = b.runtime
  | some ⟨_, after, .detaching runtime giveUp⟩ | some ⟨_, after, .naming runtime giveUp⟩ =>
    after = if giveUp then none else some runtime

/-- The tab is counted as bound no more and as detached not yet. -/
def isDetaching (b : Binding) (r : ConnectionId) : Bool :=
  match b.lockSection with
  | some ⟨_, _, .detaching runtime _⟩ => runtime = r
  | _ => false

variable {b : Binding} {c : Counts}

lemma sectionOk_bind (runtime : ConnectionId) : (b.bind c runtime).2.SectionOk := by
  rw [Binding.bind]
  split_ifs with h
  · exact .inr h.symm
  · rfl

lemma sectionOk_detachLocked (giveUp : Bool) : (b.detachLocked c giveUp).2.SectionOk := by
  rw [detachLocked]
  cases b.runtime with
  | some runtime => rfl
  | none => cases giveUp <;> simp [SectionOk, unlock]

lemma SectionOk.advance (h : b.SectionOk) : (b.advance c).2.SectionOk := by
  unfold SectionOk at h
  rw [Binding.advance]
  cases hsec : b.lockSection with
  | none => simp [SectionOk, hsec]
  | some sec =>
    obtain ⟨before, after, point⟩ := sec
    rw [hsec] at h
    cases point with
    | attached runtime => exact .inr h
    | clearing => trivial
    | detaching runtime giveUp => exact h
    | naming runtime giveUp =>
      cases giveUp with
      | false => trivial
      | true => exact .inl h

/-- A tab that names a connection is counted for it, unless it is on its way between the two
counters of tabs. -/
lemma SectionOk.counted {r : ConnectionId} (h : b.SectionOk) (hnames : b.Names r)
    (hdetaching : b.isDetaching r = false) :
    (b.runtime = some r ∨ b.incoming = some r) ∨
      b.detachedRuntime = some r ∨ b.incomingDetached = some r := by
  unfold SectionOk at h
  unfold Names at hnames
  unfold isDetaching at hdetaching
  unfold incoming incomingDetached
  cases hsec : b.lockSection with
  | none =>
    rw [hsec] at hnames
    rcases Option.or_eq_some_iff.mp hnames with hbound | ⟨-, hdetached⟩
    · exact .inl (.inl hbound)
    · exact .inr (.inl hdetached)
  | some sec =>
    obtain ⟨before, after, point⟩ := sec
    rw [hsec] at h hnames hdetaching
    obtain ⟨-, rfl⟩ := hnames
    cases point with
    | attached runtime => exact .inl (.inr h.symm)
    | clearing => exact .inl (.inl (h.resolve_left (by simp)).symm)
    | detaching runtime giveUp =>
      cases giveUp with
      | false => simp_all
      | true => simp at h
    | naming runtime giveUp =>
      cases giveUp with
      | false => exact .inr (.inr h.symm)
      | true => simp at h

end Binding

/-- Every section leaves the tab naming what it is to name. -/
def System.SectionsOk : Prop := ∀ b ∈ s.bindings, b.SectionOk

lemma System.SectionsOk.onTab {s : System} (hs : s.SectionsOk) (tab : ℕ) (enabled : Binding → Bool)
    {move : Binding → Counts × Binding} (hmove : ∀ b ∈ s.bindings, (move b).2.SectionOk) :
    (s.onTab tab enabled move).SectionsOk := by
  rw [System.onTab]
  cases hb : s.bindings[tab]? with
  | none => exact hs
  | some b =>
    dsimp only
    split_ifs
    · intro b' hb'
      rcases mem_or_eq_of_mem_set hb' with hold | rfl
      · exact hs b' hold
      · exact hmove b (mem_of_getElem? hb)
    · exact hs

lemma System.SectionsOk.append {s : System} (hs : s.SectionsOk)
    (hb : b.lockSection = none) : ∀ b' ∈ s.bindings ++ [b], b'.SectionOk := by
  intro b' hb'
  rcases mem_append.mp hb' with hold | hnew
  · exact hs b' hold
  · rw [mem_singleton.mp hnew, Binding.SectionOk, hb]
    trivial

lemma System.SectionsOk.act {s : System} (hs : s.SectionsOk) (a : Action) :
    (s.act a).SectionsOk := by
  cases a with
  | bound runtime | unbound => exact hs.append rfl
  | fork tab =>
    simp only [System.act]
    split
    · exact hs
    · split_ifs
      · refine hs.append ?_
        rw [fork]
        split <;> rfl
      · exact hs
  | bind tab runtime => exact hs.onTab _ _ fun b _ => sectionOk_bind runtime
  | bindIfRevision tab expectedRevision runtime =>
    exact hs.onTab _ _ fun b _ => sectionOk_bind runtime
  | detachIfRevision tab expectedRevision =>
    exact hs.onTab _ _ fun b _ => sectionOk_detachLocked false
  | giveUpIfRevision tab expectedRevision =>
    exact hs.onTab _ _ fun b _ => sectionOk_detachLocked true
  | drop tab => exact hs.onTab _ _ fun b _ => .inl rfl
  | advance tab => exact hs.onTab _ _ fun b hb => (hs b hb).advance
  | beginWork runtime => exact hs
  | dropWork guard =>
    simp only [System.act]
    split <;> exact hs
  | isIdle runtime => exact hs
  | read probe activityNames =>
    simp only [System.act]
    split <;> exact hs

/-! ### Undisturbed calls -/

/-- The counters that a call reads behind the one of bound tabs, and has not read yet. -/
def Read.awaits : Read → List Counter
  | .counter .detachedTabs => [.detachedTabs, .activeWork]
  | .counter .activeWork => [.activeWork]
  | _ => []

/-- A step that does not disturb a call: the first read meets no tab on its way between the two
counters of tabs, and behind it nothing is the last one to leave a counter that is still to be
read. -/
def System.Undisturbed (probe : ℕ) (a : Action) : Prop :=
  ∀ p ∈ s.probes[probe]?,
    (p.read = .counter .boundTabs → (∃ activityNames, a = .read probe activityNames) →
      ∀ b ∈ s.bindings, b.isDetaching p.runtime = false) ∧
    ∀ counter ∈ p.read.awaits, s.CountedIn p.runtime counter → (s.act a).CountedIn p.runtime counter

/-- A call that is going to answer `false`, or has not read anything yet. -/
def System.WillSee (p : Probe) : Prop :=
  p.read = .counter .boundTabs ∨ p.read = .answered false ∨
    ∃ counter ∈ p.read.awaits, s.CountedIn p.runtime counter

/-- Where the first read finds no bound tab, another counter has what names the connection. -/
lemma System.SectionsOk.countedIn {s : System} (hs : s.SectionsOk) {r : ConnectionId}
    (hnamed : s.Named r) (hdetaching : ∀ b ∈ s.bindings, b.isDetaching r = false)
    (hbound : ¬ s.CountedIn r .boundTabs) :
    s.CountedIn r .detachedTabs ∨ s.CountedIn r .activeWork := by
  rcases hnamed with ⟨b, hb, hnames⟩ | hguard
  · rcases (hs b hb).counted hnames (hdetaching b hb) with hcounted | hcounted
    · exact absurd ⟨b, hb, hcounted⟩ hbound
    · exact .inl ⟨b, hb, hcounted⟩
  · exact .inr hguard

/-- A read keeps a call on its way to `false`. -/
lemma System.WillSee.advance {s : System} {p : Probe} (h : s.WillSee p) (hcounted : s.Counted)
    (hfirst : p.read = .counter .boundTabs → ¬ s.CountedIn p.runtime .boundTabs →
      s.CountedIn p.runtime .detachedTabs ∨ s.CountedIn p.runtime .activeWork)
    (activityNames : Bool) : s.WillSee (p.advance s.counts activityNames) := by
  obtain ⟨r, read⟩ := p
  cases read with
  | counter counter =>
    rw [Probe.advance]
    dsimp only
    split_ifs with hzero
    · have hnone : ¬ s.CountedIn r counter := by
        rw [← hcounted.pos_iff, hzero]
        exact lt_irrefl 0
      cases counter with
      | boundTabs =>
        rcases hfirst rfl hnone with hdetached | hwork
        · exact .inr (.inr ⟨_, by simp [Counter.next, Read.awaits], hdetached⟩)
        · exact .inr (.inr ⟨_, by simp [Counter.next, Read.awaits], hwork⟩)
      | detachedTabs =>
        have hwork : s.CountedIn r .activeWork := by
          simpa [System.WillSee, Read.awaits, hnone] using h
        exact .inr (.inr ⟨_, by simp [Counter.next, Read.awaits], hwork⟩)
      | activeWork =>
        exact absurd (by simpa [System.WillSee, Read.awaits] using h) hnone
    · exact .inr (.inl rfl)
  | activity => simp [System.WillSee, Read.awaits] at h
  | answered idle => exact h

/-- While a call runs, something names its connection. -/
def NamedThroughout (es : List Action) (probe : ℕ) : Prop :=
  ∀ v ∈ visits act .init es, ∀ p ∈ v.1.probes[probe]?, p.isRunning → v.1.Named p.runtime

/-- What is kept of a call on a named connection. -/
structure System.Keeps (probe : ℕ) : Prop where
  counted : s.Counted
  sections : s.SectionsOk
  willSee : ∀ p ∈ s.probes[probe]?, s.WillSee p

lemma System.Keeps.act {s : System} {probe : ℕ} (h : s.Keeps probe) {a : Action}
    (hnamed : ∀ p ∈ s.probes[probe]?, p.isRunning → s.Named p.runtime)
    (hundisturbed : s.Undisturbed probe a) : (s.act a).Keeps probe := by
  refine ⟨h.counted.act a, h.sections.act a, ?_⟩
  by_cases hread : ∃ activityNames, a = .read probe activityNames
  · obtain ⟨activityNames, rfl⟩ := hread
    intro q hq
    cases hp : s.probes[probe]? with
    | none => simp [System.act, hp] at hq
    | some p =>
      obtain ⟨hlt, -⟩ := List.getElem?_eq_some_iff.mp hp
      obtain ⟨hfirst, -⟩ := hundisturbed p hp
      simp only [System.act, hp, getElem?_set_self hlt, Option.mem_def, Option.some.injEq] at hq ⊢
      subst hq
      -- the read itself moves nothing
      refine (h.willSee p hp).advance h.counted (fun hbound hnone => ?_) activityNames
      have hrunning : p.isRunning := by rw [Probe.isRunning, hbound]
      exact h.sections.countedIn (hnamed p hp hrunning) (hfirst hbound ⟨_, rfl⟩) hnone
  · push Not at hread
    intro p hp
    rcases probes_act s hread with heq | ⟨-, runtime, hnew⟩
    · rw [heq] at hp
      rcases h.willSee p hp with hbound | hanswered | ⟨counter, hcounter, hin⟩
      · exact .inl hbound
      · exact .inr (.inl hanswered)
      · exact .inr (.inr ⟨counter, hcounter, (hundisturbed p hp).2 counter hcounter hin⟩)
    · rw [hnew] at hp
      cases hp
      exact .inl rfl

/-- **A connection that is named throughout a call is kept**, over every interleaving in which no
step disturbs the call: it answers `false`, and the connection is not ended. -/
theorem kept_while_named (es : List Action) (probe : ℕ) (p : Probe) (idle : Bool)
    (hprobe : (run act .init es).probes[probe]? = some p) (hanswer : p.read = .answered idle)
    (hnamed : NamedThroughout es probe)
    (hundisturbed : ∀ v ∈ visits act .init es, v.1.Undisturbed probe v.2) :
    idle = false ∧ p.disconnects = false := by
  have hinit : init.Keeps probe := ⟨counted_init, by simp [System.SectionsOk, init], by simp [init]⟩
  obtain ⟨hend, -⟩ := visits_invariant_of (P := fun s : System => s.Keeps probe)
    (Q := fun s a => (∀ p ∈ s.probes[probe]?, p.isRunning → s.Named p.runtime) ∧
      s.Undisturbed probe a)
    (fun s a hQ hs => hs.act hQ.1 hQ.2) hinit fun v hv => ⟨hnamed v hv, hundisturbed v hv⟩
  have hsee := hend.willSee p hprobe
  rw [System.WillSee, hanswer] at hsee
  obtain rfl : idle = false := by simpa [Read.awaits] using hsee
  exact ⟨rfl, by rw [Probe.disconnects, hanswer]; rfl⟩

/-- Work keeps a connection while a tab is opened and detached under the reads of a call. -/
theorem kept_while_named_by_work :
    let es : List Action := [.beginWork 0, .isIdle 0, .read 0 false, .bound 0, .read 0 false,
      .detachIfRevision 0 1, .advance 0, .read 0 false]
    (run act .init es).probes[0]? = some ⟨0, .answered false⟩ ∧
      (Probe.mk 0 (.answered false)).disconnects = false := by
  intro es
  refine ⟨by decide, (kept_while_named es 0 _ false (by decide) rfl ?_ ?_).2⟩
  · unfold NamedThroughout
    decide
  · unfold System.Undisturbed
    decide

/-- A tab detaches while a call runs: it is counted as bound no more and as detached not yet,
and its connection is ended. -/
theorem detaching_tab_missed :
    let es : List Action := [.bound 0, .isIdle 0, .detachIfRevision 0 1, .read 0 false,
      .read 0 false, .read 0 false, .read 0 false]
    NamedThroughout es 0 ∧ (run act .init es).probes[0]? = some ⟨0, .answered true⟩ ∧
      (Probe.mk 0 (.answered true)).disconnects ∧
      (run act .init (es ++ [.advance 0, .advance 0])).bindings[0]?
        = some { detachedRuntime := some 0, revision := 2 } := by
  unfold NamedThroughout
  decide

end SpaceQuery.Runtime
