import SpaceQuery.Lib.Runs

/-!
The published state of a connection in `db/runtime.rs`: `set_state`, `announce_transition`, and the
`finished` and `drop` of a `ConnectionTransition`. While an announcement over a connection is open,
the connection reads `Transitioning` and writes to its state are held back.
-/

namespace SpaceQuery.Runtime

open Runs List

/-- `ConnectionId`: the registry never hands one out twice. -/
abbrev ConnectionId := ℕ

/-! ### The state of one connection -/

/-- Where a connection stands. -/
inductive ConnectionRuntimeState
  | connecting
  | connected
  | transitioning
  | disconnected
  | failed (why : String)
  deriving DecidableEq

namespace ConnectionRuntimeState

/-- The state in the answer of `runtime_metadata`. -/
def ofConnection (isConnected : Bool) : ConnectionRuntimeState :=
  if isConnected then connected else disconnected

def isAnsweredByTheConnection : ConnectionRuntimeState → Bool
  | connected | disconnected => true
  | connecting | transitioning | failed _ => false

end ConnectionRuntimeState

open ConnectionRuntimeState

def stateAfterAnnouncedTransition (connectionSays : ConnectionRuntimeState) :
    Option ConnectionRuntimeState → ConnectionRuntimeState
  | none => connectionSays
  | some droppedWrite =>
    if droppedWrite.isAnsweredByTheConnection then connectionSays
    else
      match droppedWrite with
      | connected | disconnected => connectionSays
      | failed why => if connectionSays = disconnected then failed why else connectionSays
      | connecting => connecting
      | transitioning => connectionSays

/-- The state of a connection that tabs see. -/
structure RuntimeStateCell where
  published : ConnectionRuntimeState
  announcedTransitions : ℕ := 0
  writeDuringTransition : Option ConnectionRuntimeState := none
  deriving DecidableEq

open RuntimeStateCell

namespace RuntimeStateCell

variable (cell : RuntimeStateCell)

def setState (state : ConnectionRuntimeState) : RuntimeStateCell :=
  if 0 < cell.announcedTransitions then { cell with writeDuringTransition := some state }
  else { cell with published := state }

def beginAnnouncedTransition : RuntimeStateCell where
  published := transitioning
  announcedTransitions := cell.announcedTransitions + 1
  writeDuringTransition := none

/-- The connection is read before the cell is locked: `isConnected` is its answer. -/
def finishAnnouncedTransition (isConnected : Bool) :
    RuntimeStateCell :=
  let cell := { cell with announcedTransitions := cell.announcedTransitions - 1 }
  if cell.announcedTransitions = 0 then
    { cell with
      published :=
        stateAfterAnnouncedTransition (ofConnection isConnected) cell.writeDuringTransition
      writeDuringTransition := none }
  else cell

/-- The cell holds back a write that its connection cannot answer for. -/
def holdsNews : Bool :=
  match cell.writeDuringTransition with
  | some connecting | some (failed _) => true
  | _ => false

end RuntimeStateCell

/-! ### Announcements over several connections -/

/-- The connections an announcement still holds, without repeats. -/
abbrev Pending := {runtimes : List ConnectionId // runtimes.Nodup}

/-- The cells of all connections and the transitions that were announced; a transition
that was dropped has nothing pending. -/
structure Runtimes where
  cells : ConnectionId → RuntimeStateCell
  transitions : List Pending

/-- What happens to the cells. -/
inductive Event
  | setState (runtime : ConnectionId) (state : ConnectionRuntimeState)
  | announce (runtimes : Pending)
  | finished (transition : ℕ) (runtime : ConnectionId) (isConnected : Bool)
  | drop (transition : ℕ) (isConnected : ConnectionId → Bool)

namespace Runtimes

def new (states : ConnectionId → ConnectionRuntimeState) : Runtimes where
  cells runtime := { published := states runtime }
  transitions := []

/-- A change to the cells of several connections, one after the other. -/
def updateEach (change : ConnectionId → RuntimeStateCell → RuntimeStateCell)
    (cells : ConnectionId → RuntimeStateCell) (runtimes : List ConnectionId) :
    ConnectionId → RuntimeStateCell :=
  runtimes.foldl (fun cells runtime =>
    Function.update cells runtime (change runtime (cells runtime))) cells

variable (s : Runtimes)

def announceTransition (runtimes : Pending) : Runtimes where
  cells := updateEach (fun _ => beginAnnouncedTransition) s.cells runtimes.1
  transitions := s.transitions ++ [runtimes]

def finished (transition : ℕ) (runtime : ConnectionId) (isConnected : Bool) :
    Runtimes :=
  match s.transitions[transition]? with
  | none => s
  | some pending =>
    -- finishing again would give back another action's hold
    if runtime ∉ pending.1 then s
    else
      { cells := updateEach (fun _ cell => cell.finishAnnouncedTransition isConnected)
          s.cells [runtime]
        transitions := s.transitions.set transition
          ⟨pending.1.filter (· ≠ runtime), pending.2.filter _⟩ }

/-- `Drop for ConnectionTransition`: what is still pending is finished in order. -/
def dropTransition (transition : ℕ) (isConnected : ConnectionId → Bool) :
    Runtimes :=
  match s.transitions[transition]? with
  | none => s
  | some pending =>
    { cells := updateEach (fun runtime cell => cell.finishAnnouncedTransition (isConnected runtime))
        s.cells pending.1
      transitions := s.transitions.set transition ⟨[], nodup_nil⟩ }

/-- The number of open announcements over a connection. -/
def openOver (runtime : ConnectionId) : ℕ :=
  s.transitions.countP fun pending => decide (runtime ∈ pending.1)

end Runtimes

open Runtimes

def step (s : Runtimes) : Event → Runtimes
  | .setState runtime state =>
    { s with cells := updateEach (fun _ cell => cell.setState state) s.cells [runtime] }
  | .announce runtimes => s.announceTransition runtimes
  | .finished transition runtime isConnected => s.finished transition runtime isConnected
  | .drop transition isConnected => s.dropTransition transition isConnected

/-- What the connection answers to an event that finishes announcements. -/
def Event.isConnected : Event → ConnectionId → Bool
  | .finished _ _ isConnected, _ => isConnected
  | .drop _ isConnected, runtime => isConnected runtime
  | _, _ => false

/-- The last `set_state` since the number of open announcements over a connection last left
zero, after one more event. -/
def nextWrite (runtime : ConnectionId) (s : Runtimes) (write : Option ConnectionRuntimeState) :
    Event → Option ConnectionRuntimeState
  | .setState r state => if r = runtime then some state else write
  | _ => if s.openOver runtime = 0 then none else write

/-- The last `set_state` of a run since the number of open announcements over the
connection last left zero; `write` is the one at its start. -/
def lastWrite (runtime : ConnectionId) :
    Runtimes → List Event → Option ConnectionRuntimeState → Option ConnectionRuntimeState
  | _, [], write => write
  | s, e :: es, write => lastWrite runtime (step s e) es (nextWrite runtime s write e)

/-- No announcement opens over a connection that holds news back. -/
def KeepsNews (s : Runtimes) : Event → Prop
  | .announce runtimes => ∀ runtime ∈ runtimes.1, (s.cells runtime).holdsNews = false
  | _ => True

/-! ### What an event does to one connection -/

lemma updateEach_of_nodup (change : ConnectionId → RuntimeStateCell → RuntimeStateCell)
    (cells : ConnectionId → RuntimeStateCell) {runtimes : List ConnectionId}
    (h : runtimes.Nodup) (runtime : ConnectionId) :
    updateEach change cells runtimes runtime
      = if runtime ∈ runtimes then change runtime (cells runtime) else cells runtime := by
  induction runtimes generalizing cells with
  | nil => simp [updateEach]
  | cons r rest ih =>
    rw [nodup_cons] at h
    have hrest := ih (Function.update cells r (change r (cells r))) h.2
    rw [updateEach, foldl_cons, ← updateEach, hrest]
    by_cases hr : runtime = r
    · subst hr
      simp [h.1]
    · simp [hr]

variable {s : Runtimes}

lemma openOver_set {transition : ℕ} {pending : Pending}
    (h : s.transitions[transition]? = some pending) (rest : Pending) (runtime : ConnectionId)
    (cells : ConnectionId → RuntimeStateCell) :
    openOver ⟨cells, s.transitions.set transition rest⟩ runtime
      = s.openOver runtime - (if runtime ∈ pending.1 then 1 else 0)
        + (if runtime ∈ rest.1 then 1 else 0) := by
  obtain ⟨hlt, hget⟩ := List.getElem?_eq_some_iff.mp h
  rw [openOver, countP_set hlt, hget, openOver]
  simp only [decide_eq_true_eq]

variable {runtime : ConnectionId}

lemma openOver_pos {transition : ℕ} {pending : Pending}
    (h : s.transitions[transition]? = some pending)
    (hmem : runtime ∈ pending.1) : 0 < s.openOver runtime := by
  rw [openOver, countP_pos_iff]
  exact ⟨pending, mem_of_getElem? h, decide_eq_true hmem⟩

/-- What an event does to the cell of a connection and to the number of open
announcements over it. -/
inductive CellStep (s s' : Runtimes) (e : Event) (runtime : ConnectionId) : Prop
  | unchanged (hcell : s'.cells runtime = s.cells runtime)
      (hopen : s'.openOver runtime = s.openOver runtime)
      (hset : ∀ r state, e = .setState r state → r ≠ runtime)
  | wrote (state : ConnectionRuntimeState) (he : e = .setState runtime state)
      (hcell : s'.cells runtime = (s.cells runtime).setState state)
      (hopen : s'.openOver runtime = s.openOver runtime)
  | began (runtimes : Pending) (he : e = .announce runtimes) (hmem : runtime ∈ runtimes.1)
      (hcell : s'.cells runtime = (s.cells runtime).beginAnnouncedTransition)
      (hopen : s'.openOver runtime = s.openOver runtime + 1)
  | finished (hset : ∀ r state, e ≠ .setState r state)
      (hcell : s'.cells runtime
        = (s.cells runtime).finishAnnouncedTransition (e.isConnected runtime))
      (hopen : s'.openOver runtime + 1 = s.openOver runtime)

lemma cellStep_setState (s : Runtimes) (r : ConnectionId) (state : ConnectionRuntimeState)
    (runtime : ConnectionId) :
    CellStep s (step s (.setState r state)) (.setState r state) runtime := by
  have hcell := updateEach_of_nodup (fun _ cell => cell.setState state) s.cells
    (nodup_singleton r) runtime
  simp only [mem_singleton] at hcell
  by_cases hr : runtime = r
  · subst hr
    exact .wrote state rfl (hcell.trans (if_pos rfl)) rfl
  · refine .unchanged (hcell.trans (if_neg hr)) rfl ?_
    rintro r' state' heq rfl
    exact hr (Event.setState.inj heq).1.symm

lemma cellStep_announce (s : Runtimes) (runtimes : Pending) (runtime : ConnectionId) :
    CellStep s (step s (.announce runtimes)) (.announce runtimes) runtime := by
  have hcell := updateEach_of_nodup (fun _ => beginAnnouncedTransition) s.cells runtimes.2 runtime
  have hopen : (step s (.announce runtimes)).openOver runtime
      = s.openOver runtime + if runtime ∈ runtimes.1 then 1 else 0 := by
    simp [step, announceTransition, openOver, countP_append, countP_cons]
  by_cases hmem : runtime ∈ runtimes.1
  · rw [if_pos hmem] at hcell hopen
    exact .began runtimes rfl hmem hcell hopen
  · rw [if_neg hmem] at hcell hopen
    exact .unchanged hcell hopen (by simp)

lemma cellStep_finished (s : Runtimes) (transition : ℕ) (r : ConnectionId) (isConnected : Bool)
    (runtime : ConnectionId) :
    CellStep s (step s (.finished transition r isConnected))
      (.finished transition r isConnected) runtime := by
  rw [step, Runtimes.finished]
  cases hget : s.transitions[transition]? with
  | none => exact .unchanged rfl rfl (by simp)
  | some pending =>
    by_cases hr : r ∈ pending.1
    swap
    · simp only [hr, not_false_eq_true, if_true]
      exact .unchanged rfl rfl (by simp)
    · simp only [hr, not_true_eq_false, if_false]
      have hcell := updateEach_of_nodup
        (fun _ cell => cell.finishAnnouncedTransition isConnected) s.cells
        (nodup_singleton r) runtime
      have hopen := openOver_set hget ⟨pending.1.filter (· ≠ r), pending.2.filter _⟩ runtime
        (updateEach (fun _ cell => cell.finishAnnouncedTransition isConnected) s.cells [r])
      have hrest : runtime ∈ pending.1.filter (· ≠ r) ↔ runtime ∈ pending.1 ∧ runtime ≠ r := by
        simp
      simp only [mem_singleton] at hcell
      simp only [hrest] at hopen
      by_cases heq : runtime = r
      · subst heq
        have hpos := openOver_pos hget hr
        rw [if_pos hr, if_neg (fun h => h.2 rfl)] at hopen
        exact .finished (by simp) (hcell.trans (if_pos rfl)) (by omega)
      · refine .unchanged (hcell.trans (if_neg heq)) ?_ (by simp)
        by_cases hmem : runtime ∈ pending.1
        · have hpos := openOver_pos hget hmem
          rw [if_pos hmem, if_pos ⟨hmem, heq⟩] at hopen
          omega
        · rw [if_neg hmem, if_neg (fun h => hmem h.1)] at hopen
          omega

lemma cellStep_drop (s : Runtimes) (transition : ℕ) (isConnected : ConnectionId → Bool)
    (runtime : ConnectionId) :
    CellStep s (step s (.drop transition isConnected)) (.drop transition isConnected)
      runtime := by
  rw [step, dropTransition]
  cases hget : s.transitions[transition]? with
  | none => exact .unchanged rfl rfl (by simp)
  | some pending =>
    have hcell := updateEach_of_nodup
      (fun runtime cell => cell.finishAnnouncedTransition (isConnected runtime)) s.cells
      pending.2 runtime
    have hopen := openOver_set hget ⟨[], nodup_nil⟩ runtime
      (updateEach (fun runtime cell => cell.finishAnnouncedTransition (isConnected runtime))
        s.cells pending.1)
    simp only [not_mem_nil, if_false, add_zero] at hopen
    by_cases hmem : runtime ∈ pending.1
    · have hpos := openOver_pos hget hmem
      rw [if_pos hmem] at hcell hopen
      exact .finished (by simp) hcell (by dsimp only; omega)
    · rw [if_neg hmem] at hcell hopen
      exact .unchanged hcell hopen (by simp)

lemma cellStep (s : Runtimes) (e : Event) (runtime : ConnectionId) :
    CellStep s (step s e) e runtime := by
  cases e with
  | setState r state => exact cellStep_setState s r state runtime
  | announce runtimes => exact cellStep_announce s runtimes runtime
  | finished transition r isConnected =>
    exact cellStep_finished s transition r isConnected runtime
  | drop transition isConnected => exact cellStep_drop s transition isConnected runtime

/-! ### The invariant -/

/-- Two held-back writes weigh the same against every answer of the connection. -/
def SameNews (a b : Option ConnectionRuntimeState) : Prop :=
  ∀ isConnected, stateAfterAnnouncedTransition (ofConnection isConnected) a
    = stateAfterAnnouncedTransition (ofConnection isConnected) b

/-- The cell of a connection counts the announcements over it, and while there are some
it reads `Transitioning` and holds back what was last written. -/
structure CellInv (s : Runtimes) (runtime : ConnectionId)
    (write : Option ConnectionRuntimeState) : Prop where
  counted : (s.cells runtime).announcedTransitions = s.openOver runtime
  owned : 0 < s.openOver runtime → (s.cells runtime).published = transitioning
  held : 0 < s.openOver runtime → SameNews (s.cells runtime).writeDuringTransition write

lemma sameNews_none_of_holdsNews {cell : RuntimeStateCell} (h : cell.holdsNews = false) :
    SameNews none cell.writeDuringTransition := by
  intro isConnected
  rw [holdsNews] at h
  split at h
  case h_1 => cases h
  case h_2 => cases h
  case h_3 hconnecting hfailed =>
      cases hwrite : cell.writeDuringTransition with
      | none => rfl
      | some state =>
        cases state with
        | connecting => exact absurd hwrite hconnecting
        | failed why => exact absurd hwrite (hfailed why)
        | _ => rfl

lemma nextWrite_of_open (hpos : 0 < s.openOver runtime)
    (write : Option ConnectionRuntimeState) {e : Event}
    (hset : ∀ r state, e = .setState r state → r ≠ runtime) :
    nextWrite runtime s write e = write := by
  cases e with
  | setState r state => exact if_neg (hset r state rfl)
  | _ => exact if_neg hpos.ne'

variable {write : Option ConnectionRuntimeState}

/-- What an event keeps for a connection. -/
lemma CellInv.step (hinv : CellInv s runtime write) (e : Event) (hkeep : KeepsNews s e) :
    CellInv (Runtime.step s e) runtime (nextWrite runtime s write e) := by
  cases cellStep s e runtime with
  | unchanged hcell hopen hset =>
    refine ⟨by rw [hcell, hopen, hinv.counted], fun hpos => ?_, fun hpos => ?_⟩
    · rw [hcell]
      exact hinv.owned (hopen ▸ hpos)
    · rw [hopen] at hpos
      rw [hcell, nextWrite_of_open hpos write hset]
      exact hinv.held hpos
  | wrote state he hcell hopen =>
    subst he
    rw [setState, hinv.counted] at hcell
    refine ⟨?_, fun hpos => ?_, fun hpos => ?_⟩
    · rw [hcell]
      split_ifs <;> rfl
    · rw [hopen] at hpos
      rw [hcell, if_pos hpos]
      exact hinv.owned hpos
    · rw [hopen] at hpos
      rw [hcell, if_pos hpos, nextWrite, if_pos rfl]
      exact fun _ => rfl
  | began runtimes he hmem hcell hopen =>
    subst he
    refine ⟨by rw [hcell, hopen, ← hinv.counted]; rfl, fun _ => by rw [hcell]; rfl, fun _ => ?_⟩
    rw [hcell]
    dsimp only [beginAnnouncedTransition, nextWrite]
    by_cases hzero : s.openOver runtime = 0
    · rw [if_pos hzero]
      exact fun _ => rfl
    · -- a second announcement clears the slot: nothing may be waiting in it
      rw [if_neg hzero]
      intro isConnected
      rw [sameNews_none_of_holdsNews (hkeep runtime hmem)]
      exact hinv.held (pos_of_ne_zero hzero) isConnected
  | finished hset hcell hopen =>
    have hcnt : (s.cells runtime).announcedTransitions - 1
        = (Runtime.step s e).openOver runtime := by
      rw [hinv.counted]
      omega
    rw [finishAnnouncedTransition] at hcell
    rw [hcnt] at hcell
    refine ⟨by rw [hcell]; split_ifs <;> rfl, fun hpos => ?_, fun hpos => ?_⟩
    · rw [hcell, if_neg hpos.ne']
      exact hinv.owned (by omega)
    · rw [hcell, if_neg hpos.ne']
      have hopen' : 0 < s.openOver runtime := by omega
      rw [nextWrite_of_open hopen' write fun r state he => absurd he (hset r state)]
      exact hinv.held hopen'

lemma CellInv.run (hinv : CellInv s runtime write) {es : List Event}
    (hkeep : ∀ v ∈ visits Runtime.step s es, KeepsNews v.1 v.2) :
    CellInv (run Runtime.step s es) runtime (lastWrite runtime s es write) := by
  induction es generalizing s write with
  | nil => exact hinv
  | cons e es ih =>
    simp only [visits_cons, mem_cons, forall_eq_or_imp] at hkeep
    exact ih (hinv.step e hkeep.1) hkeep.2

lemma cellInv_new (states : ConnectionId → ConnectionRuntimeState) (runtime : ConnectionId) :
    CellInv (Runtimes.new states) runtime none where
  counted := rfl
  owned := fun hpos => absurd hpos (lt_irrefl 0)
  held := fun hpos => absurd hpos (lt_irrefl 0)

/-- The event that ends the last announcement over a connection publishes the answer of
the connection weighed against the last write. -/
lemma CellInv.published_of_last (hinv : CellInv s runtime write) {e : Event}
    (hpos : 0 < s.openOver runtime) (hzero : (Runtime.step s e).openOver runtime = 0) :
    ((Runtime.step s e).cells runtime).published
      = stateAfterAnnouncedTransition (ofConnection (e.isConnected runtime)) write := by
  cases cellStep s e runtime with
  | unchanged hcell hopen hset => omega
  | wrote state he hcell hopen => omega
  | began runtimes he hmem hcell hopen => omega
  | finished hset hcell hopen =>
    have hcnt : (s.cells runtime).announcedTransitions - 1 = 0 := by
      rw [hinv.counted]
      omega
    rw [hcell, finishAnnouncedTransition]
    rw [if_pos hcnt]
    exact hinv.held hpos _

/-- Finishing a connection a second time through the same transition changes nothing. -/
lemma finished_twice (s : Runtimes) (transition : ℕ) (runtime : ConnectionId) (a b : Bool) :
    step (step s (.finished transition runtime a)) (.finished transition runtime b)
      = step s (.finished transition runtime a) := by
  simp only [step, Runtimes.finished]
  cases hget : s.transitions[transition]? with
  | none => simp only [hget]
  | some pending =>
    by_cases hr : runtime ∈ pending.1
    · obtain ⟨hlt, -⟩ := List.getElem?_eq_some_iff.mp hget
      simp [hr, hlt]
    · simp [hr, hget]

/-- In every run that opens no announcement over a connection that holds news back: a
connection under announcement reads `Transitioning`, an announcement is given back once, and
the event that ends the last announcement publishes the answer of the connection weighed
against the last write since the first one opened. -/
theorem published_of_keepsNews (states : ConnectionId → ConnectionRuntimeState)
    (es : List Event) (hkeep : ∀ v ∈ visits step (.new states) es, KeepsNews v.1 v.2)
    (runtime : ConnectionId) :
    let s := run step (.new states) es
    (0 < s.openOver runtime → (s.cells runtime).published = transitioning) ∧ (∀ transition a b,
        step (step s (.finished transition runtime a)) (.finished transition runtime b)
          = step s (.finished transition runtime a)) ∧
      ∀ e, 0 < s.openOver runtime → (step s e).openOver runtime = 0 →
        ((step s e).cells runtime).published
          = stateAfterAnnouncedTransition (ofConnection (e.isConnected runtime))
              (lastWrite runtime (.new states) es none) := by
  have hinv := (cellInv_new states runtime).run hkeep
  exact ⟨hinv.owned, fun transition a b => finished_twice _ transition runtime a b,
    fun e hpos hzero => hinv.published_of_last hpos hzero⟩

/-- Two overlapping announcements, a connect attempt that starts while both run, and the
first of them ended. -/
def overlapWithNews : List Event :=
  [.announce ⟨[0], by decide⟩, .announce ⟨[0], by decide⟩, .setState 0 .connecting,
    .finished 1 0 false]

theorem published_of_overlapWithNews : ((step (run step (.new fun _ => .connected) overlapWithNews)
        (.finished 0 0 false)).cells 0).published = .connecting := by
  have hkeep : ∀ v ∈ visits step (.new fun _ => .connected) overlapWithNews, KeepsNews v.1 v.2 := by
    simp only [overlapWithNews, visits_cons, visits_nil, forall_mem_cons]
    simp [KeepsNews, step, Runtimes.new, announceTransition, updateEach,
      holdsNews, beginAnnouncedTransition]
  have h := (published_of_keepsNews (fun _ => .connected) overlapWithNews hkeep 0).2.2
    (.finished 0 0 false) (by decide) (by decide)
  exact h.trans (by decide)

/-- The connect attempt starts under the first announcement; the second one drops it. -/
theorem second_announcement_drops_news :
    let es : List Event := [.announce ⟨[0], by decide⟩, .setState 0 .connecting,
      .announce ⟨[0], by decide⟩, .finished 1 0 false]
    let s := run step (.new fun _ => .connected) es
    0 < s.openOver 0 ∧ (step s (.finished 0 0 false)).openOver 0 = 0 ∧
      lastWrite 0 (.new fun _ => .connected) es none = some .connecting ∧
      ((step s (.finished 0 0 false)).cells 0).published = .disconnected := by
  decide

end SpaceQuery.Runtime
