import SpaceQuery.Lib.RustText
import SpaceQuery.Runtime.IdleProbe

/-!
The counters of connections and the scopes of tabs over all calls on tabs.

Any number of threads may call; a call that waits for the lock of a tab stands behind the section
that holds it. Between sections the counters say which tabs and guards there are.
-/

namespace SpaceQuery.Runtime

open List Function Tally

abbrev Scope := List Char

def normalizeScope (scope : Option Scope) : Option Scope :=
  (scope.map RustText.trim).filter (!·.isEmpty)

/-- The tabs with their scopes, which are written under their locks. -/
structure ScopedSystem where
  system : System := .init
  scopes : ℕ → Option Scope := fun _ => none

/-- The calls, with their scopes. -/
inductive TabCall
  /-- A call or what it does next, with the scope that it was given. -/
  | act (action : Action) (scope : Option Scope)
  | setScope (tab : ℕ) (scope : Option Scope)
  | setScopeIfRevision (tab expectedRevision : ℕ) (scope : Option Scope)

namespace ScopedSystem

variable (s : ScopedSystem)

def onTab (tab : ℕ) (enabled : Binding → Bool) (scope : Option Scope) : ℕ → Option Scope :=
  if s.system.bindings[tab]?.any enabled then update s.scopes tab scope else s.scopes

open Binding

/-- The scopes behind an action. -/
def scopesAfter (scope : Option Scope) : Action → ℕ → Option Scope
  | .bound _ => update s.scopes s.system.bindings.length (normalizeScope scope)
  | .fork tab =>
    if s.system.bindings[tab]?.any isFree then
      update s.scopes s.system.bindings.length
        (if s.system.bindings[tab]?.any (·.runtime.isSome) then normalizeScope (s.scopes tab)
          else none)
    else s.scopes
  | .bind tab _ => s.onTab tab isFree (normalizeScope scope)
  | .bindIfRevision tab expected _ =>
    s.onTab tab (System.atRevision expected) (normalizeScope scope)
  | .detachIfRevision tab expected | .giveUpIfRevision tab expected =>
    s.onTab tab (System.atRevision expected) none
  | _ => s.scopes

def step : TabCall → ScopedSystem
  | .act action scope => ⟨s.system.act action, s.scopesAfter scope action⟩
  | .setScope tab scope =>
    { s with scopes := s.onTab tab isFree (normalizeScope scope) }
  | .setScopeIfRevision tab expected scope =>
    { s with scopes := s.onTab tab (System.atRevision expected) (normalizeScope scope) }

end ScopedSystem

/-- The tab and the revision that a call is held to. -/
def TabCall.expected : TabCall → Option (ℕ × ℕ)
  | .act (.bindIfRevision tab expected _) _ | .act (.detachIfRevision tab expected) _
  | .act (.giveUpIfRevision tab expected) _ | .setScopeIfRevision tab expected _ =>
    some (tab, expected)
  | _ => none

/-- The counter that an action lowers, and the connection it belongs to. -/
def System.lowered (s : System) : Action → Option (Counter × ConnectionId)
  | .detachIfRevision tab _ | .giveUpIfRevision tab _ | .drop tab =>
    (s.bindings[tab]?.bind Binding.runtime).map (.boundTabs, ·)
  | .advance tab => s.bindings[tab]?.bind fun b =>
      match b.lockSection with
      | some ⟨_, _, .attached _⟩ => b.runtime.map (.boundTabs, ·)
      | some ⟨_, _, .clearing⟩ | some ⟨_, _, .naming _ _⟩ =>
        b.detachedRuntime.map (.detachedTabs, ·)
      | _ => none
  | .dropWork guard => s.guards[guard]?.join.map (.activeWork, ·)
  | _ => none

/-- A tab does not name two connections outside of sections. -/
def Binding.Apart (b : Binding) : Prop :=
  match b.lockSection with
  | none => b.runtime = none ∨ b.detachedRuntime = none
  | some ⟨_, _, .detaching _ _⟩ | some ⟨_, _, .naming _ _⟩ => b.runtime = none
  | _ => True

open Binding (Apart held unlock fork)

lemma apart_detachLocked {b : Binding} (c : Counts) (giveUp : Bool) :
    (b.detachLocked c giveUp).2.Apart := by
  rw [Binding.detachLocked]
  cases hrun : b.runtime <;> cases giveUp <;> simp [Apart, unlock, hrun]

lemma apart_bind (b : Binding) (c : Counts) (runtime : ConnectionId) :
    (b.bind c runtime).2.Apart := by
  rw [Binding.bind]
  split_ifs <;> exact trivial

lemma apart_advance {b : Binding} (h : b.Apart) (c : Counts) : (b.advance c).2.Apart := by
  rw [Binding.advance]
  obtain ⟨runtime, detached, revision, sec, dropped⟩ := b
  cases sec with
  | none => exact h
  | some sec =>
    obtain ⟨before, after, point⟩ := sec
    cases point with
    | naming runtime giveUp => cases giveUp <;> simp_all [Apart, unlock]
    | _ => simp_all [Apart, unlock]

lemma System.apart_onTab {s : System} (h : ∀ b ∈ s.bindings, b.Apart) (tab : ℕ)
    (enabled : Binding → Bool) {move : Binding → Counts × Binding}
    (hmove : ∀ b ∈ s.bindings, (move b).2.Apart) :
    ∀ b ∈ (s.onTab tab enabled move).bindings, b.Apart := by
  intro b hb
  rw [System.onTab] at hb
  split at hb
  · exact h b hb
  · rename_i b' hb'
    split_ifs at hb
    · obtain hb | rfl := mem_or_eq_of_mem_set hb
      · exact h b hb
      · exact hmove b' (mem_of_getElem? hb')
    · exact h b hb

lemma System.apart_act {s : System} (h : ∀ b ∈ s.bindings, b.Apart) (a : Action) :
    ∀ b ∈ (s.act a).bindings, b.Apart := by
  cases a with
  | bind tab runtime => exact apart_onTab h tab _ fun b _ => apart_bind b s.counts runtime
  | bindIfRevision tab expected runtime =>
    exact apart_onTab h tab _ fun b _ => apart_bind b s.counts runtime
  | detachIfRevision tab expected | giveUpIfRevision tab expected =>
    exact apart_onTab h tab _ fun b _ => apart_detachLocked ..
  | drop tab => exact apart_onTab h tab _ fun b _ => trivial
  | advance tab => exact apart_onTab h tab _ fun b hb => apart_advance (h b hb) _
  | bound runtime | unbound => simpa [System.act, or_imp, forall_and, Apart] using h
  | fork tab =>
    rw [System.act]
    split
    · exact h
    · rename_i b _
      have hfork : (b.fork s.counts).2.Apart := by
        rw [fork]
        cases b.runtime <;> simp [Apart]
      split_ifs
      · simpa [or_imp, forall_and, hfork] using h
      · exact h
  | beginWork runtime => exact h
  | dropWork guard =>
    rw [System.act]
    split <;> exact h
  | isIdle runtime => exact h
  | read probe names =>
    rw [System.act]
    split <;> exact h

namespace ScopedSystem

/-- Between sections the counters count the tabs and the guards and a tab names one connection, an
action lowers no counter that is zero, and a call that is held to another revision changes
nothing. -/
structure Sound (s : ScopedSystem) : Prop where
  counted : (∀ b ∈ s.system.bindings, b.lockSection = none) → ∀ r,
    s.system.counts r .boundTabs = s.system.bindings.countP (·.runtime == some r) ∧
    s.system.counts r .detachedTabs = s.system.bindings.countP (·.detachedRuntime == some r) ∧
    s.system.counts r .activeWork = s.system.guards.countP (· == some r)
  apart : ∀ b ∈ s.system.bindings, b.lockSection = none →
    b.runtime = none ∨ b.detachedRuntime = none
  positive : ∀ action counter r, s.system.lowered action = some (counter, r) →
    0 < s.system.counts r counter
  stale : ∀ (call : TabCall) (tab expected : ℕ) (b : Binding),
    call.expected = some (tab, expected) → s.system.bindings[tab]? = some b →
      b.revision ≠ expected → s.step call = s

/-- What every step keeps. -/
structure Inv (s : ScopedSystem) : Prop where
  counted : s.system.Counted
  apart : ∀ b ∈ s.system.bindings, b.Apart

variable {s : ScopedSystem}

lemma Inv.step (h : s.Inv) (call : TabCall) : (s.step call).Inv := by
  cases call with
  | act action scope => exact ⟨h.counted.act action, System.apart_act h.apart action⟩
  | setScope tab scope | setScopeIfRevision tab expected scope => exact ⟨h.counted, h.apart⟩

lemma Inv.positive (h : s.Inv) {action : Action} {counter : Counter} {r : ConnectionId}
    (hlowered : s.system.lowered action = some (counter, r)) : 0 < s.system.counts r counter := by
  rw [h.counted.pos_iff]
  have hbound : ∀ {tab : ℕ}, (s.system.bindings[tab]?.bind Binding.runtime).map
      (Counter.boundTabs, ·) = some (counter, r) → s.system.CountedIn r counter := by
    intro tab hsome
    obtain ⟨_, hr, ⟨⟩⟩ := Option.map_eq_some_iff.mp hsome
    obtain ⟨b, hb, hruntime⟩ := Option.bind_eq_some_iff.mp hr
    exact ⟨b, mem_of_getElem? hb, .inl hruntime⟩
  cases action with
  | detachIfRevision | giveUpIfRevision | drop => exact hbound hlowered
  | advance tab =>
    obtain ⟨b, hb, hsection⟩ := Option.bind_eq_some_iff.mp hlowered
    split at hsection
    case h_4 => cases hsection
    all_goals
      obtain ⟨_, hr, ⟨⟩⟩ := Option.map_eq_some_iff.mp hsection
      exact ⟨b, mem_of_getElem? hb, .inl hr⟩
  | dropWork guard =>
    obtain ⟨_, hr, ⟨⟩⟩ := Option.map_eq_some_iff.mp hlowered
    exact mem_of_getElem? (Option.join_eq_some_iff.mp hr)
  | _ => cases hlowered

lemma stale {call : TabCall} {tab expected : ℕ} {b : Binding}
    (hcall : call.expected = some (tab, expected)) (hb : s.system.bindings[tab]? = some b)
    (hstale : b.revision ≠ expected) : s.step call = s := by
  have hat : System.atRevision expected b = false := by simp [System.atRevision, hstale]
  unfold TabCall.expected at hcall
  split at hcall <;> cases hcall <;>
    simp [step, System.act, System.onTab, scopesAfter, onTab, hb, hat]

lemma Inv.sound (h : s.Inv) : s.Sound where
  counted hfree r := by
    have hguards : ∀ counter ≠ .activeWork, total (guardHeld counter r) s.system.guards = 0 := by
      intro counter hcounter
      rw [total_eq_countP (p := fun _ => false) fun _ _ => by cases counter <;> trivial]
      simp
    refine ⟨?_, ?_, ?_⟩ <;> rw [h.counted]
    · rw [hguards _ (by decide)]
      exact total_eq_countP fun b hb => by
        simp [held, Binding.incoming, hfree b hb, holds]
    · rw [hguards _ (by decide)]
      exact total_eq_countP fun b hb => by
        simp [held, Binding.incomingDetached, hfree b hb, holds]
    · have htabs : total (held · .activeWork r) s.system.bindings = 0 := by
        simp [total, held]
      rw [htabs, zero_add]
      exact total_eq_countP fun guard _ => by simp [guardHeld, holds]
  apart b hb hfree := by
    have hapart := h.apart b hb
    rwa [Apart, hfree] at hapart
  positive _ _ _ := h.positive
  stale _ _ _ _ := stale

/-- **In every state that calls lead to, the counters are exact.** -/
theorem tabs_counted (calls : List TabCall) : (Runs.run ScopedSystem.step {} calls).Sound :=
  (Runs.run_invariant (fun _ call h => h.step call) ⟨counted_init, by simp [System.init]⟩
    calls : Inv _).sound

end ScopedSystem

end SpaceQuery.Runtime
