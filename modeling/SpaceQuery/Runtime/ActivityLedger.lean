import SpaceQuery.Lib.Runs

/-!
The registry of database activities in `db/connection.rs`, and the ledger of work that was ended
but has not stopped.

A reader looks at the two under separate locks, while a row leaves the registry and enters the
ledger under one. The steps are these sections and the accesses to a guard's flag.
-/

namespace SpaceQuery.Activities

open List Runs

/-- A row: its guard's id, the connection it names and the ids of its cancelers. -/
structure TrackedDbActivity (C : Type) where
  id : ℕ
  connectionId : Option C
  cancelers : List ℕ := []

/-- The registry, the ledger, the guards that are alive or finished, and the removals due
after a `finished.swap`, with whether the work is over. -/
structure DbActivities (C : Type) where
  activities : List (TrackedDbActivity C) := []
  ledger : List (Option C × ℕ) := []
  alive : List ℕ := []
  finished : List ℕ := []
  removing : List (ℕ × Bool) := []

/-- The calls on the ledger. -/
inductive Event (C : Type) where
  | track (id : ℕ) (connectionId : Option C)
  | bindToConnection (id : ℕ) (connectionId : Option C)
  | bindConnectionLock (id : ℕ) (connectionId : Option C)
  | noteConnectionLockOn (id : ℕ) (connectionId : C)
  | attachCanceler (id cancelerId : ℕ)
  | detachCanceler (id cancelerId : ℕ)
  | cancelWhere (select : TrackedDbActivity C → Bool)
  | finish (id : ℕ)
  | finishForWorkThatHasNotStopped (id : ℕ)
  | drop (id : ℕ)
  | removeDbActivity (id : ℕ) (stopped : Bool)
  | prune

namespace DbActivities

variable {C : Type} (s : DbActivities C)

/-- The entries whose guard is alive. -/
def retained : List (Option C × ℕ) := s.ledger.filter fun entry => entry.2 ∈ s.alive

/-- `remember_cancelled_work_still_holding_a_session`, for the rows with a canceler. -/
def remember (removed : List (TrackedDbActivity C)) : DbActivities C :=
  let work := (removed.filter (!·.cancelers.isEmpty)).map fun row => (row.connectionId, row.id)
  { s with ledger := if work.isEmpty then s.ledger else s.retained ++ work }

/-- The row that is found is changed; ids are given out once. -/
def change (id : ℕ) (f : TrackedDbActivity C → TrackedDbActivity C) : DbActivities C :=
  { s with activities := s.activities.map fun row => if row.id = id then f row else row }

/-- `finished.swap` through a guard that is alive; the first one goes on to the removal. -/
def swap (id : ℕ) (stopped : Bool) : DbActivities C :=
  { s with
    finished := if id ∈ s.alive then id :: s.finished else s.finished
    removing := if id ∈ s.alive ∧ id ∉ s.finished then (id, stopped) :: s.removing
      else s.removing }

/-- A step. The order of the rows does not matter, nor which ids are given out. -/
def step : Event C → DbActivities C
  | .track id connectionId =>
    { s with activities := s.activities ++ [{ id, connectionId }], alive := id :: s.alive }
  | .bindToConnection id connectionId => s.change id ({ · with connectionId })
  | .bindConnectionLock id connectionId =>
    s.change id fun row => { row with connectionId := connectionId <|> row.connectionId }
  | .noteConnectionLockOn id connectionId =>
    s.change id fun row => { row with connectionId := row.connectionId <|> some connectionId }
  | .attachCanceler id cancelerId =>
    s.change id fun row => { row with cancelers := row.cancelers ++ [cancelerId] }
  | .detachCanceler id cancelerId =>
    s.change id fun row => { row with cancelers := row.cancelers.erase cancelerId }
  | .cancelWhere select =>
    let removed := s.activities.filter select
    { s with
      activities := s.activities.filter (!select ·)
      finished := removed.map TrackedDbActivity.id ++ s.finished }.remember removed
  | .finish id => s.swap id true
  | .finishForWorkThatHasNotStopped id => s.swap id false
  | .drop id => { s.swap id true with alive := s.alive.filter (· ≠ id) }
  | .removeDbActivity id stopped =>
    if (id, stopped) ∈ s.removing then
      let t := { s with
        activities := s.activities.eraseP (·.id == id)
        removing := s.removing.erase (id, stopped) }
      if stopped then t else t.remember (s.activities.find? (·.id == id)).toList
    else s
  | .prune => { s with ledger := s.retained }

variable [DecidableEq C] (c : C) (g : ℕ)

/-- The call: a look at the registry, and one at the ledger after what runs in between. -/
def dbActivityNamesConnection (during : List (Event C)) : Bool :=
  s.activities.any (·.connectionId = some c) || (run step s during).retained.any (·.1 = some c)

omit [DecidableEq C]

/-- The guard is alive, `finish()` or `drop` is not about to remove its row, and a row of it
names the connection and carries a canceler. -/
def Carried (s : DbActivities C) : Prop :=
  g ∈ s.alive ∧ (g, true) ∉ s.removing ∧
    ∀ row ∈ s.activities, row.id = g → row.connectionId = some c ∧ row.cancelers ≠ []

/-- The work has a row or is in the ledger. -/
def Named (s : DbActivities C) : Prop :=
  (∃ row ∈ s.activities, row.id = g) ∨ (some c, g) ∈ s.ledger

variable {s c g}

/-- The work stays in the ledger, or enters it with one of the removed rows. -/
lemma mem_ledger_remember {removed} (halive : g ∈ s.alive) (h : (some c, g) ∈ s.ledger ∨
      ∃ row ∈ removed, row.id = g ∧ row.connectionId = some c ∧ row.cancelers ≠ []) :
    (some c, g) ∈ (s.remember removed).ledger := by
  simp only [remember]
  split_ifs with hwork
  · refine h.resolve_right fun ⟨row, hrow, _, _, hne⟩ => ?_
    simp_all
  · obtain hledger | ⟨row, hrow, rfl, hc, hne⟩ := h
    · exact mem_append_left _ (mem_filter.mpr ⟨hledger, by simpa⟩)
    · rw [← hc]
      exact mem_append_right _ (mem_map_of_mem (mem_filter.mpr ⟨hrow, by simpa⟩))

lemma mem_ledger_step (h : (some c, g) ∈ s.ledger) (halive : g ∈ s.alive) (e : Event C) :
    (some c, g) ∈ (s.step e).ledger := by
  cases e with
  | cancelWhere select => exact mem_ledger_remember halive (.inl h)
  | removeDbActivity id stopped =>
    rw [step]
    split_ifs
    · exact h
    · exact mem_ledger_remember halive (.inl h)
    · exact h
  | prune => exact mem_filter.mpr ⟨h, by simpa⟩
  | _ => exact h

/-- A row leaves the registry with its work in the ledger. -/
lemma named_step (hs : Carried c g s) {row} (hrow : row ∈ s.activities) (hid : row.id = g)
    (e : Event C) : Named c g (s.step e) := by
  obtain ⟨halive, hremoving, hrows⟩ := hs
  have hchange {id f} (hf : ∀ row, (f row).id = row.id) : Named c g (s.change id f) := by
    refine .inl ⟨_, mem_map_of_mem hrow, ?_⟩
    split
    · rw [hf, hid]
    · exact hid
  cases e with
  | track => exact .inl ⟨row, mem_append_left _ hrow, hid⟩
  | bindToConnection | bindConnectionLock | noteConnectionLockOn | attachCanceler
    | detachCanceler => exact hchange fun _ => rfl
  | cancelWhere select =>
    cases hsel : select row with
    | false => exact .inl ⟨row, mem_filter.mpr ⟨hrow, by simp [hsel]⟩, hid⟩
    | true =>
      refine .inr (mem_ledger_remember halive (.inr ⟨row, ?_, hid, hrows row hrow hid⟩))
      exact mem_filter.mpr ⟨hrow, hsel⟩
  | removeDbActivity id stopped =>
    rw [DbActivities.step]
    split_ifs with hmem hstopped
    · have hne : id ≠ g := by
        rintro rfl
        exact hremoving (hstopped ▸ hmem)
      exact .inl ⟨row, (mem_eraseP_of_neg (by simp [hid, hne.symm])).mpr hrow, hid⟩
    · by_cases heq : id = g
      · obtain ⟨found, hfound⟩ : ∃ found, s.activities.find? (·.id == id) = some found :=
          Option.isSome_iff_exists.mp (find?_isSome.mpr ⟨row, hrow, by simp [hid, heq]⟩)
        have hmem := mem_of_find?_eq_some hfound
        have hid' : found.id = g := by simpa [heq] using find?_some hfound
        refine .inr (mem_ledger_remember halive (.inr ⟨found, ?_, hid', hrows found hmem hid'⟩))
        simp [hfound]
      · exact .inl ⟨row, (mem_eraseP_of_neg (by simp [hid, Ne.symm heq])).mpr hrow, hid⟩
    · exact .inl ⟨row, hrow, hid⟩
  | _ => exact .inl ⟨row, hrow, hid⟩

variable [DecidableEq C]

/-- **Ended work stays named until it stops**: from a state with its row on, in every state up
to the ledger read its guard is carried, and the call, at any later moment, answers true. -/
theorem dbActivityNamesConnection_eq_true {before during : List (Event C)}
    (hrow : ∃ row ∈ s.activities, row.id = g)
    (hbefore : ∀ v ∈ visits step s before, Carried c g v.1)
    (hduring : ∀ v ∈ visits step (run step s before) during, Carried c g v.1)
    (hend : Carried c g (run step (run step s before) during)) :
    (run step s before).dbActivityNamesConnection c during := by
  have hstep : ∀ s (e : Event C), Carried c g s → Named c g s → Named c g (step s e) := by
    rintro s e hs (⟨row, hrow, hid⟩ | hledger)
    · exact named_step hs hrow hid e
    · exact .inr (mem_ledger_step hledger hs.1 e)
  rw [dbActivityNamesConnection, Bool.or_eq_true, any_eq_true, any_eq_true]
  obtain ⟨row, hrow, hid⟩ | hledger := (visits_invariant_of hstep (.inl hrow) hbefore).1
  · have hcall : Carried c g (run step s before) := by
      cases during with
      | nil => exact hend
      | cons e during => exact hduring _ mem_cons_self
    exact .inl ⟨row, hrow, by simpa using (hcall.2.2 row hrow hid).1⟩
  · have hlast := (visits_invariant_of (P := fun s => (some c, g) ∈ s.ledger)
      (fun s e (hs : Carried c g s) h => mem_ledger_step h hs.1 e) hledger hduring).1
    exact .inr ⟨_, mem_filter.mpr ⟨hlast, by simpa using hend.1⟩, by simp⟩

/-- Work is cancelled before the call and the ledger is pruned between its two looks. -/
theorem dbActivityNamesConnection_cancelled :
    (run step (⟨[⟨1, some 7, [3]⟩], [], [1], [], []⟩ : DbActivities ℕ)
      [.cancelWhere fun _ => true]).dbActivityNamesConnection 7 [.prune] := by
  refine dbActivityNamesConnection_eq_true (g := 1) ⟨_, mem_cons_self, rfl⟩ ?_ ?_ ?_ <;>
  simp [Carried, step, remember, retained]

end DbActivities

end SpaceQuery.Activities
