import Mathlib.Data.List.AList
import Mathlib.Data.List.Sort
import SpaceQuery.Lib.Runs

/-!
Closing server cursors in `tns-thin/src/session.rs`.

A cursor is closed by putting its id on a list that goes out with the next message. A cursor that
was fetched to its end, but whose rows hold cursors, is deferred until these are closed, and they
may be deferred in turn.
-/

namespace SpaceQuery.Thin

open Runs Function List

open Option hiding mem_toFinset
open Finset (mem_erase notMem_empty mem_insert mem_insert_of_mem mem_union)

/-! ### The session -/

/-- The fields of `OracleThinSession` for closing cursors, and the history of the cursors. -/
structure CursorCloses where
  deferredCursorParentByChild : AList fun _ : ℕ => ℕ := ∅
  deferredCursorCloses : AList fun _ : ℕ => Finset ℕ := ∅
  pendingCursorCloses : List ℕ := []
  drcpEstablishSession : Bool := false
  -- the cursors that are open and have not been handed over, and those that have since they
  -- were opened
  opened : Finset ℕ := ∅
  handed : Finset ℕ := ∅
  -- the cursors that were taken off the list
  drained : Finset ℕ := ∅
  -- how often a number was opened: the server gives it again, to another cursor
  openings : ℕ → ℕ := fun _ => 0
  -- the cursors that entered the list, in this order, and those that a deferred one waits for
  entered : List (ℕ × ℕ) := []
  awaited : ℕ × ℕ → Finset (ℕ × ℕ) := fun _ => ∅

namespace CursorCloses

variable (s : CursorCloses)

/-- The deferred cursor that waits for one. -/
def parentOf (child : ℕ) : Option ℕ := s.deferredCursorParentByChild.lookup child

/-- The cursors that a deferred one waits for. -/
def childrenOf (parent : ℕ) : Option (Finset ℕ) :=
  s.deferredCursorCloses.lookup parent

/-- The cursor that a number stands for now. -/
def cursor (id : ℕ) : ℕ × ℕ := (id, s.openings id)

/-- A cursor is handed over. -/
def hand (id : ℕ) : CursorCloses :=
  { s with opened := s.opened.erase id, handed := insert id s.handed }

/-- A cursor enters the list. -/
def push (id : ℕ) : CursorCloses :=
  { s with
    pendingCursorCloses := s.pendingCursorCloses ++ [id]
    entered := s.entered ++ [s.cursor id] }

/-- A cursor is taken from those its parent waits for; the parent, if it was the last one. -/
def removeChild (child : ℕ) : CursorCloses × Option ℕ :=
  match s.parentOf child with
  | none => (s, none)
  | some parent =>
    let s := { s with
      deferredCursorParentByChild := s.deferredCursorParentByChild.erase child }
    match s.childrenOf parent with
    | none => (s, none)
    | some children =>
      if children.erase child = ∅ then
        ({ s with deferredCursorCloses := s.deferredCursorCloses.erase parent }, some parent)
      else
        ({ s with
          deferredCursorCloses := s.deferredCursorCloses.insert parent (children.erase child) },
          none)

/-- `close_cursor_later` and `queue_deferred_parent_after_child_close`, which call each other. -/
def closeLater : ℕ → CursorCloses → ℕ → CursorCloses
  | 0, s, _ => s
  | fuel + 1, s, id =>
    match (s.push id).removeChild id with
    | (s, none) => s
    | (s, some parent) => closeLater fuel s parent

variable (s : CursorCloses)

/-- Each round takes an entry out of the map, so the entries bound the rounds. -/
def closeCursorLater (cursorId : Option ℕ) : CursorCloses :=
  match cursorId with
  | none => s
  | some id => closeLater (s.deferredCursorParentByChild.keys.length + 1) (s.hand id) id

def normalizeCursorIds (cursorIds : List ℕ) : List ℕ :=
  ((cursorIds.filter (· ≠ 0)).insertionSort (· ≤ ·)).dedup

def drainPendingCursorCloses : List ℕ × CursorCloses :=
  let ids := normalizeCursorIds s.pendingCursorCloses
  (ids, { s with pendingCursorCloses := [], drained := s.drained ∪ ids.toFinset })

def drainPendingCursorClosesForWrite : List ℕ × CursorCloses :=
  if s.drcpEstablishSession then
    ([], { s with
      drcpEstablishSession := false
      pendingCursorCloses := []
      deferredCursorCloses := ∅
      deferredCursorParentByChild := ∅ })
  else s.drainPendingCursorCloses

def requeuePendingCursorCloses (cursorIds : List ℕ) : CursorCloses :=
  if cursorIds.isEmpty then s
  else
    { s with
      pendingCursorCloses := normalizeCursorIds (s.pendingCursorCloses ++ cursorIds)
      drained := s.drained \ cursorIds.toFinset }

/-- The message with the cursors is written, or the write fails. -/
def flushPendingCursorCloses (written : Bool) : CursorCloses :=
  let drained := s.drainPendingCursorClosesForWrite
  if drained.1.isEmpty || written then drained.2
  else drained.2.requeuePendingCursorCloses drained.1

/-- A value of a row: a cursor or anything else. -/
inductive RowValue where
  | cursor (cursorId : ℕ)
  | other
  deriving DecidableEq

def RowValue.cursorId : RowValue → Option ℕ
  | .cursor cursorId => some cursorId
  | .other => none

def refCursorIdsInRows (rows : List (List RowValue)) : Finset ℕ :=
  (rows.flatten.filterMap RowValue.cursorId).toFinset

variable (cursorId : ℕ) (children : List ℕ)

/-- A cursor is deferred until those of its rows are closed. -/
def deferClose : CursorCloses :=
  { s.hand cursorId with
    deferredCursorParentByChild := children.foldl
      (fun parents child => parents.insert child cursorId) s.deferredCursorParentByChild
    deferredCursorCloses := s.deferredCursorCloses.insert cursorId children.toFinset
    awaited := update s.awaited (s.cursor cursorId) (children.toFinset.image s.cursor) }

def closeFullyFetchedCursor (rowsMayContainRefCursors written : Bool) : CursorCloses :=
  if rowsMayContainRefCursors && !children.isEmpty then s.deferClose cursorId children
  else (s.closeCursorLater (some cursorId)).flushPendingCursorCloses written

def closeCursorAfterPartialRows (rowsMayContainRefCursors : Bool) : CursorCloses :=
  let s := if rowsMayContainRefCursors then
    children.foldl (fun s child => s.closeCursorLater (some child)) s else s
  s.closeCursorLater (some cursorId)

/-! ### Calls -/

/-- A call, or the server opening a cursor. The rows come with the order in which the set of their
cursors is gone through, and a flush with whether it is written. -/
inductive Event where
  | openCursor (cursorId : ℕ)
  | closeLater (cursorId : Option ℕ)
  | closeFullyFetched (cursorId : ℕ) (rows : List (List RowValue)) (order : List ℕ)
      (rowsMayContainRefCursors written : Bool)
  | closeAfterPartialRows (cursorId : ℕ) (rows : List (List RowValue)) (order : List ℕ)
      (rowsMayContainRefCursors : Bool)
  | drain
  | requeue (cursorIds : List ℕ)

def openCursor (id : ℕ) : CursorCloses :=
  { s with
    opened := insert id s.opened
    handed := s.handed.erase id
    drained := s.drained.erase id
    openings := update s.openings id (s.openings id + 1) }

def step : Event → CursorCloses
  | .openCursor id => s.openCursor id
  | .closeLater cursorId => s.closeCursorLater cursorId
  | .closeFullyFetched id _ order may written => s.closeFullyFetchedCursor id order may written
  | .closeAfterPartialRows id _ order may => s.closeCursorAfterPartialRows id order may
  | .drain => s.drainPendingCursorCloses.2
  | .requeue ids => s.requeuePendingCursorCloses ids

/-- The order goes through the cursors of the rows, each the child of one parent only. -/
structure ChildrenOnce (s : CursorCloses) (cursorId : ℕ) (rows : List (List RowValue))
    (order : List ℕ) : Prop where
  nodup : order.Nodup
  toFinset : order.toFinset = refCursorIdsInRows rows
  child : ∀ child ∈ order, child ≠ 0 ∧ child ≠ cursorId ∧ s.parentOf child = none

instance (s : CursorCloses) (cursorId : ℕ) (rows : List (List RowValue)) (order : List ℕ) :
    Decidable (s.ChildrenOnce cursorId rows order) :=
  decidable_of_iff (order.Nodup ∧ order.toFinset = refCursorIdsInRows rows ∧
      ∀ child ∈ order, child ≠ 0 ∧ child ≠ cursorId ∧ s.parentOf child = none)
    ⟨fun h => ⟨h.1, h.2.1, h.2.2⟩, fun h => ⟨h.nodup, h.toFinset, h.child⟩⟩

/-- A cursor is opened under a number that is not in use, it is in the rows of one parent only, and
it is handed over once while it is open. -/
def HandedOnce : Event → Prop
  | .openCursor id =>
    id ≠ 0 ∧ id ∉ s.opened ∧ id ∉ s.pendingCursorCloses ∧ s.childrenOf id = none
  | .closeLater cursorId => ∀ id ∈ cursorId, id ∈ s.opened
  | .closeFullyFetched id rows order may _ =>
    id ∈ s.opened ∧ (may = true → s.ChildrenOnce id rows order)
  | .closeAfterPartialRows id rows order may =>
    id ∈ s.opened ∧ (may = true → s.ChildrenOnce id rows order ∧ ∀ child ∈ order, child ∈ s.opened)
  | .drain => True
  | .requeue _ => True

instance (s : CursorCloses) (e : Event) : Decidable (s.HandedOnce e) := by
  cases e <;> simp only [HandedOnce] <;> infer_instance

/-- The callers of the source do two things more: a cursor is deferred before anyone has seen those
of its rows, and only what was drained is put back. -/
def Allowed (e : Event) : Prop :=
  s.HandedOnce e ∧
    match e with
    | .closeFullyFetched _ _ order may _ => may = true → ∀ child ∈ order, child ∈ s.opened
    | .requeue ids => ∀ id ∈ ids, id ∈ s.drained
    | _ => True

instance (s : CursorCloses) (e : Event) : Decidable (s.Allowed e) := by
  cases e <;> simp only [Allowed] <;> infer_instance

/-! ### The two maps -/

/-- The cursors that one waits for: none if it is not deferred. -/
def waited (parent : ℕ) : Finset ℕ := (s.childrenOf parent).getD ∅

/-- The maps are inverse to each other, without an empty set, and no cursor waits for itself,
directly or through others. -/
structure Linked (s : CursorCloses) : Prop where
  mem_waited_iff : ∀ child parent, child ∈ s.waited parent ↔ s.parentOf child = some parent
  ne_empty : ∀ parent, s.childrenOf parent ≠ some ∅
  ranked : ∃ rank : ℕ → ℕ, ∀ child parent, s.parentOf child = some parent → rank child < rank parent

section Maps

variable {s : CursorCloses} {id : ℕ}

lemma waited_of_childrenOf {parent : ℕ} {children : Finset ℕ}
    (h : s.childrenOf parent = some children) : s.waited parent = children := by
  rw [waited, h, getD_some]

lemma Linked.nonempty_iff (h : s.Linked) (parent : ℕ) :
    (s.waited parent).Nonempty ↔ (s.childrenOf parent).isSome := by
  have hne := h.ne_empty parent
  rw [waited]
  cases hchildren : s.childrenOf parent with
  | none => simp
  | some children =>
    rw [hchildren] at hne
    simpa [Finset.nonempty_iff_ne_empty] using hne

lemma removeChild_of_none (h : s.parentOf id = none) : s.removeChild id = (s, none) := by
  rw [removeChild, h]

lemma removeChild_of_some {parent : ℕ} {children : Finset ℕ} (h : s.parentOf id = some parent)
    (hchildren : s.childrenOf parent = some children) :
    s.removeChild id = ({ s with
        deferredCursorParentByChild := s.deferredCursorParentByChild.erase id
        deferredCursorCloses := if children.erase id = ∅ then s.deferredCursorCloses.erase parent
          else s.deferredCursorCloses.insert parent (children.erase id) },
        if children.erase id = ∅ then some parent else none) := by
  have hlookup : s.deferredCursorCloses.lookup parent = some children := hchildren
  rw [removeChild, h]
  by_cases hready : children.erase id = ∅
  · simp only [childrenOf, hlookup, hready, if_true]
  · simp only [childrenOf, hlookup, hready, if_false]

/-- Apart from the maps, nothing changes. -/
lemma removeChild_eq (s : CursorCloses) (id : ℕ) : ∃ parents closes, (s.removeChild id).1 =
      { s with deferredCursorParentByChild := parents, deferredCursorCloses := closes } := by
  unfold removeChild
  split
  · exact ⟨_, _, rfl⟩
  · dsimp only
    split
    · exact ⟨_, _, rfl⟩
    · split_ifs
      · exact ⟨_, _, rfl⟩
      · exact ⟨_, _, rfl⟩

/-- Only the maps matter. -/
lemma Linked.congr {t : CursorCloses} (h : s.Linked)
    (hparents : t.deferredCursorParentByChild = s.deferredCursorParentByChild)
    (hcloses : t.deferredCursorCloses = s.deferredCursorCloses) : t.Linked where
  mem_waited_iff := by
    unfold waited childrenOf parentOf
    rw [hparents, hcloses]
    exact h.mem_waited_iff
  ne_empty := by
    unfold childrenOf
    rw [hcloses]
    exact h.ne_empty
  ranked := by
    unfold parentOf
    rw [hparents]
    exact h.ranked

/-- The parent of a child has a set that the child is in. -/
lemma Linked.exists_childrenOf (h : s.Linked) {parent : ℕ} (hparent : s.parentOf id = some parent) :
    ∃ children, s.childrenOf parent = some children := by
  rw [← isSome_iff_exists, ← h.nonempty_iff]
  exact ⟨id, (h.mem_waited_iff id parent).mpr hparent⟩

lemma Linked.parentOf_removeChild (h : s.Linked) (child : ℕ) :
    (s.removeChild id).1.parentOf child = if child = id then none else s.parentOf child := by
  cases hparent : s.parentOf id with
  | none =>
    rw [removeChild_of_none hparent]
    split_ifs with heq
    · rw [heq, hparent]
    · rfl
  | some parent =>
    obtain ⟨children, hchildren⟩ := h.exists_childrenOf hparent
    rw [removeChild_of_some hparent hchildren]
    by_cases heq : child = id
    · rw [if_pos heq, heq]
      exact AList.lookup_erase id _
    · rw [if_neg heq]
      exact AList.lookup_erase_ne heq

/-- The child is taken out of the set of its parent, and a set that gets empty is dropped. -/
lemma Linked.childrenOf_removeChild (h : s.Linked) (parent : ℕ) :
    (s.removeChild id).1.childrenOf parent =
      if (s.waited parent).erase id = ∅ then none else some ((s.waited parent).erase id) := by
  -- a set that the child is not in stays as it is
  have hsame : id ∉ s.waited parent → s.childrenOf parent =
      if (s.waited parent).erase id = ∅ then none else some ((s.waited parent).erase id) := by
    intro hid
    have hne := h.ne_empty parent
    rw [Finset.erase_eq_of_notMem hid, waited]
    cases hchildren : s.childrenOf parent with
    | none => simp
    | some children =>
      rw [hchildren] at hne
      rw [getD_some, if_neg fun heq => hne (congrArg some heq)]
  cases hparent : s.parentOf id with
  | none =>
    rw [removeChild_of_none hparent]
    refine hsame fun hid => ?_
    rw [h.mem_waited_iff, hparent] at hid
    exact absurd hid (by simp)
  | some first =>
    obtain ⟨children, hchildren⟩ := h.exists_childrenOf hparent
    rw [removeChild_of_some hparent hchildren]
    by_cases heq : parent = first
    · rw [heq, waited_of_childrenOf hchildren]
      split_ifs with hready
      · exact AList.lookup_erase first _
      · exact AList.lookup_insert _
    · rw [← hsame]
      · dsimp only [childrenOf]
        split_ifs
        · exact AList.lookup_erase_ne heq
        · exact AList.lookup_insert_ne heq
      · rw [h.mem_waited_iff, hparent]
        exact fun hsame => heq (some.inj hsame).symm

lemma Linked.waited_removeChild (h : s.Linked) (parent : ℕ) :
    (s.removeChild id).1.waited parent = (s.waited parent).erase id := by
  rw [waited, h.childrenOf_removeChild]
  split_ifs with hready
  · rw [hready, getD_none]
  · rw [getD_some]

/-- The parent is ready when the child was the last one it waited for. -/
lemma Linked.mem_removeChild_iff (h : s.Linked) (parent : ℕ) :
    parent ∈ (s.removeChild id).2 ↔ id ∈ s.waited parent ∧ (s.waited parent).erase id = ∅ := by
  rw [h.mem_waited_iff]
  cases hparent : s.parentOf id with
  | none => simp [removeChild_of_none hparent]
  | some first =>
    obtain ⟨children, hchildren⟩ := h.exists_childrenOf hparent
    have hwaited := waited_of_childrenOf hchildren
    rw [removeChild_of_some hparent hchildren, some.injEq]
    constructor
    · intro hmem
      split_ifs at hmem with hready
      · obtain rfl := some.inj hmem
        exact ⟨rfl, hwaited ▸ hready⟩
      · exact absurd hmem (by simp)
    · rintro ⟨rfl, hready⟩
      exact if_pos (hwaited ▸ hready)

lemma Linked.removeChild (h : s.Linked) : (s.removeChild id).1.Linked where
  mem_waited_iff child parent := by
    rw [h.waited_removeChild, h.parentOf_removeChild, mem_erase, h.mem_waited_iff]
    split_ifs with heq
    · simp [heq]
    · simp [heq]
  ne_empty parent := by
    rw [h.childrenOf_removeChild]
    split_ifs with hready
    · simp
    · exact fun heq => hready (some.inj heq)
  ranked := by
    obtain ⟨rank, hrank⟩ := h.ranked
    refine ⟨rank, fun child parent hparent => hrank child parent ?_⟩
    rw [h.parentOf_removeChild] at hparent
    split_ifs at hparent
    exact hparent

/-- A round takes an entry out of the map, if the child has a parent. -/
lemma keys_removeChild_lt (h : s.Linked) {parent : ℕ} (hready : parent ∈ (s.removeChild id).2) :
    (s.removeChild id).1.deferredCursorParentByChild.keys.length
      < s.deferredCursorParentByChild.keys.length := by
  have hparent := (h.mem_waited_iff id parent).mp ((h.mem_removeChild_iff parent).mp hready).1
  obtain ⟨children, hchildren⟩ := h.exists_childrenOf hparent
  have hmem : id ∈ s.deferredCursorParentByChild.keys := by
    rw [← AList.mem_keys, ← AList.lookup_isSome]
    exact isSome_iff_exists.mpr ⟨parent, hparent⟩
  have hpos := length_pos_of_mem hmem
  rw [removeChild_of_some hparent hchildren]
  change (s.deferredCursorParentByChild.erase id).keys.length < _
  rw [AList.keys_erase, length_erase_of_mem hmem]
  omega

variable (children : List ℕ)

lemma lookup_foldl_insert (parent : ℕ) (parents : AList fun _ : ℕ => ℕ) (child : ℕ) :
    (children.foldl (fun parents child => parents.insert child parent) parents).lookup child
      = if child ∈ children then some parent else parents.lookup child := by
  induction children generalizing parents with
  | nil => simp
  | cons first children ih =>
    rw [foldl_cons, ih]
    by_cases hmem : child ∈ children
    · rw [if_pos hmem, if_pos (mem_cons_of_mem _ hmem)]
    · rw [if_neg hmem]
      by_cases heq : child = first
      · rw [if_pos (by rw [heq]; exact mem_cons_self), heq, AList.lookup_insert]
      · rw [if_neg (by simp [heq, hmem]), AList.lookup_insert_ne heq]

lemma parentOf_deferClose (child : ℕ) : (s.deferClose id children).parentOf child
      = if child ∈ children then some id else s.parentOf child :=
  lookup_foldl_insert children id s.deferredCursorParentByChild child

lemma childrenOf_deferClose (parent : ℕ) : (s.deferClose id children).childrenOf parent
      = if parent = id then some children.toFinset else s.childrenOf parent := by
  split_ifs with heq
  · rw [heq]
    exact AList.lookup_insert _
  · exact AList.lookup_insert_ne heq

lemma waited_deferClose (parent : ℕ) : (s.deferClose id children).waited parent
      = if parent = id then children.toFinset else s.waited parent := by
  rw [waited, childrenOf_deferClose]
  split_ifs
  · rw [getD_some]
  · rfl

/-- A cursor that waits for none gets children that have no parent and wait for none. -/
lemma Linked.deferClose (h : s.Linked) (hid : s.waited id = ∅) {children : List ℕ}
    (hne : children ≠ [])
    (hchildren : ∀ child ∈ children, child ≠ id ∧ s.parentOf child = none ∧ s.waited child = ∅) :
    (s.deferClose id children).Linked where
  mem_waited_iff child parent := by
    rw [waited_deferClose, parentOf_deferClose]
    by_cases heq : parent = id <;> by_cases hmem : child ∈ children
    · simp [heq, hmem]
    · have hnot : s.parentOf child ≠ some id := by
        rw [ne_eq, ← h.mem_waited_iff, hid]
        exact notMem_empty child
      simp [heq, hmem, hnot]
    · have hnot : child ∉ s.waited parent := by
        rw [h.mem_waited_iff, (hchildren child hmem).2.1]
        simp
      simp [heq, hmem, hnot, Ne.symm heq]
    · rw [if_neg heq, if_neg hmem, h.mem_waited_iff]
  ne_empty parent := by
    rw [childrenOf_deferClose]
    split_ifs
    · simpa using hne
    · exact h.ne_empty parent
  ranked := by
    -- the children go below all others
    obtain ⟨rank, hrank⟩ := h.ranked
    refine ⟨fun other => if other ∈ children then 0 else rank other + 1, ?_⟩
    intro child parent hparent
    rw [parentOf_deferClose] at hparent
    split_ifs at hparent with hmem
    · obtain rfl := some.inj hparent
      have hid : id ∉ children := fun hid => (hchildren id hid).1 rfl
      simp [hmem, hid]
    · have hparent' : parent ∉ children := by
        intro hin
        have hwaited := (h.mem_waited_iff child parent).mpr hparent
        rw [(hchildren parent hin).2.2] at hwaited
        exact notMem_empty child hwaited
      simpa [hmem, hparent'] using hrank child parent hparent

end Maps

/-! ### The invariant -/

/-- The cursors a deferred one waits for, directly or through others. -/
def Descends (s : CursorCloses) : ℕ → ℕ → Prop :=
  Relation.TransGen fun parent child => s.parentOf child = some parent

/-- Where a cursor is: a deferred one waits for others, and a closing one is about to enter the
list. -/
inductive Phase
  | unused | opened | deferred | closing | listed
  deriving DecidableEq

/-- What holds of the cursors, each of them in its phase. A number that is opened again stands for a
cursor without a history. -/
structure Inv (phase : ℕ → Phase) (s : CursorCloses) : Prop where
  linked : s.Linked
  noDrcp : s.drcpEstablishSession = false
  opened : ∀ id, id ∈ s.opened ↔ phase id = .opened
  handed : ∀ id, id ∈ s.handed ↔ phase id ≠ .unused ∧ phase id ≠ .opened
  deferred : ∀ id, (s.waited id).Nonempty ↔ phase id = .deferred
  listed : ∀ id, id ∈ s.pendingCursorCloses ∨ id ∈ s.drained ↔ phase id = .listed
  entered : ∀ id, s.cursor id ∈ s.entered ↔ phase id = .listed
  child : ∀ parent, ∀ child ∈ s.waited parent, phase child ≠ .unused ∧ phase child ≠ .listed
  nonzero : ∀ id, phase id ≠ .unused → id ≠ 0
  awaited : ∀ parent, ∀ child ∈ s.awaited (s.cursor parent),
    child ∈ s.entered ∨ ∃ id ∈ s.waited parent, child = s.cursor id
  past : ∀ cursor, s.openings cursor.1 < cursor.2 → cursor ∉ s.entered ∧ s.awaited cursor = ∅
  nodup : s.entered.Nodup
  behind : ∀ parent ∈ s.entered, ∀ child ∈ s.awaited parent, [child, parent] <+ s.entered

/-- No cursor is in the middle of being closed. -/
def Settled (s : CursorCloses) : Prop := ∃ phase, Inv phase s ∧ ∀ id, phase id ≠ .closing

lemma mem_normalizeCursorIds {id : ℕ} {ids : List ℕ} :
    id ∈ normalizeCursorIds ids ↔ id ∈ ids ∧ id ≠ 0 := by
  rw [normalizeCursorIds]
  simp

namespace Inv

variable {s : CursorCloses} {id : ℕ} {phase : ℕ → Phase} (h : Inv phase s)

include h

lemma waited_eq_empty (hid : phase id ≠ .deferred) : s.waited id = ∅ := by
  rwa [ne_eq, ← h.deferred, Finset.not_nonempty_iff_eq_empty] at hid

/-- A cursor that is handed over is about to enter the list. -/
lemma hand (hid : phase id = .opened) : Inv (update phase id .closing) (s.hand id) := by
  have hupdate : ∀ other, update phase id .closing other
      = if other = id then .closing else phase other := fun other => update_apply ..
  have := h.opened
  have := h.handed
  refine
    { h with
      linked := h.linked.congr rfl rfl
      opened := fun other => ?_
      handed := fun other => ?_
      deferred := fun other => (h.deferred other).trans ?_
      listed := fun other => (h.listed other).trans ?_
      entered := fun other => (h.entered other).trans ?_
      child := fun parent child hchild => ?_
      nonzero := fun other hother => h.nonzero other ?_ }
  · rw [hupdate, CursorCloses.hand, mem_erase]
    grind
  · rw [hupdate, CursorCloses.hand, mem_insert]
    grind
  · grind
  · grind
  · grind
  · have := h.child parent child hchild
    grind
  · grind

/-- What a round of closing makes of the phases: the cursor is on the list, and its parent is about
to be if it waited for no other one. -/
def roundPhase (phase : ℕ → Phase) (id : ℕ) (ready : Option ℕ) (other : ℕ) : Phase :=
  if other = id then .listed else if other ∈ ready then .closing else phase other

/-- What a parent waited for has entered the list, or it waits for it still. -/
lemma awaited_round (parent : ℕ) :
    ∀ child ∈ s.awaited (s.cursor parent), child ∈ s.entered ++ [s.cursor id] ∨
      ∃ other ∈ (s.waited parent).erase id, child = s.cursor other := by
  intro child hchild
  obtain hmem | ⟨other, hother, rfl⟩ := h.awaited parent child hchild
  · exact .inl (mem_append_left _ hmem)
  · by_cases hlast : other = id
    · exact .inl (by simp [hlast])
    · exact .inr ⟨other, mem_erase.mpr ⟨hlast, hother⟩, rfl⟩

lemma behind_round (hid : phase id = .closing) :
    ∀ parent ∈ s.entered ++ [s.cursor id], ∀ child ∈ s.awaited parent,
      [child, parent] <+ s.entered ++ [s.cursor id] := by
  intro parent hparent child hchild
  obtain hparent | hparent := mem_append.mp hparent
  · exact (h.behind parent hparent child hchild).trans (sublist_append_left _ _)
  · -- the cursor waits for none any more
    rw [mem_singleton.mp hparent] at hchild ⊢
    have hmem := (h.awaited id child hchild).resolve_right fun ⟨other, hother, _⟩ => by
      rw [h.waited_eq_empty (by simp [hid])] at hother
      exact notMem_empty other hother
    exact (singleton_sublist.mpr hmem).append (Sublist.refl _)

lemma past_round (cursor : ℕ × ℕ) (hlt : s.openings cursor.1 < cursor.2) :
    cursor ∉ s.entered ++ [s.cursor id] ∧ s.awaited cursor = ∅ := by
  refine (h.past cursor hlt).imp_left fun hmem hin => ?_
  obtain hin | hin := mem_append.mp hin
  · exact hmem hin
  · rw [mem_singleton.mp hin] at hlt
    exact lt_irrefl _ hlt

/-- A round of closing. -/
lemma round (hid : phase id = .closing) :
    Inv (roundPhase phase id ((s.push id).removeChild id).2) ((s.push id).removeChild id).1 := by
  have hlinked : (s.push id).Linked := h.linked.congr rfl rfl
  have hwaited : ∀ other, ((s.push id).removeChild id).1.waited other
      = (s.waited other).erase id := hlinked.waited_removeChild
  have hready : ∀ other, other ∈ ((s.push id).removeChild id).2 ↔
      id ∈ s.waited other ∧ (s.waited other).erase id = ∅ := hlinked.mem_removeChild_iff
  have hparent : ∀ other, other ∈ ((s.push id).removeChild id).2 → phase other = .deferred :=
    fun other hother => (h.deferred other).mp ⟨id, ((hready other).mp hother).1⟩
  have hnext : ((s.push id).removeChild id).1.Linked := hlinked.removeChild
  have hnone : s.waited id = ∅ := h.waited_eq_empty (by simp [hid])
  have hcursor : ∀ other, s.cursor other = s.cursor id ↔ other = id :=
    fun other => ⟨congrArg Prod.fst, congrArg s.cursor⟩
  obtain ⟨parents, closes, heq⟩ := removeChild_eq (s.push id) id
  rw [heq] at hwaited hnext ⊢
  refine
    { linked := hnext
      noDrcp := h.noDrcp
      opened := fun other => (h.opened other).trans ?_
      handed := fun other => (h.handed other).trans ?_
      deferred := fun other => ?_
      listed := fun other => ?_
      entered := fun other => ?_
      child := fun parent child hchild => ?_
      nonzero := fun other hother => h.nonzero other ?_
      awaited := fun parent => hwaited parent ▸ h.awaited_round parent
      past := h.past_round
      nodup := h.nodup.append (nodup_singleton _) ?_
      behind := h.behind_round hid }
  · grind [roundPhase]
  · grind [roundPhase]
  · -- a set that the cursor was in is empty exactly when its parent is ready
    rw [hwaited]
    have hdeferred := h.deferred other
    by_cases hin : id ∈ s.waited other
    · grind [roundPhase]
    · rw [Finset.erase_eq_of_notMem hin]
      grind [roundPhase]
  · have hlisted := h.listed other
    change other ∈ s.pendingCursorCloses ++ [id] ∨ other ∈ s.drained ↔ _
    rw [mem_append, mem_singleton]
    grind [roundPhase]
  · have hentered := h.entered other
    change s.cursor other ∈ s.entered ++ [s.cursor id] ↔ _
    rw [mem_append, mem_singleton, hcursor]
    grind [roundPhase]
  · rw [hwaited, mem_erase] at hchild
    have := h.child parent child hchild.2
    grind [roundPhase]
  · grind [roundPhase]
  · have := h.entered id
    simpa [hid] using this

open CursorCloses (closeLater)

/-- The chain of parents that a closed cursor releases. -/
lemma closeLater {fuel : ℕ} (hid : ∀ other, phase other = .closing ↔ other = id)
    (hfuel : s.deferredCursorParentByChild.keys.length < fuel) :
    (closeLater fuel s id).Settled ∧ (closeLater fuel s id).opened = s.opened := by
  induction fuel generalizing s id phase with
  | zero => omega
  | succ fuel ih =>
    have hround := h.round ((hid id).mpr rfl)
    have hlinked : (s.push id).Linked := h.linked.congr rfl rfl
    have hkeys := @keys_removeChild_lt (s.push id) id hlinked
    have hready : ∀ parent, parent ∈ ((s.push id).removeChild id).2 ↔ _ :=
      hlinked.mem_removeChild_iff
    have hopened : ((s.push id).removeChild id).1.opened = s.opened := by
      obtain ⟨parents, closes, heq⟩ := removeChild_eq (s.push id) id
      rw [heq]
      rfl
    rw [closeLater]
    rcases hrun : (s.push id).removeChild id with ⟨t, parent⟩
    rw [hrun] at hround hopened hkeys hready
    cases parent with
    | none =>
      refine ⟨⟨_, hround, fun other => ?_⟩, hopened⟩
      have := hid other
      grind [roundPhase]
    | some parent =>
      have hne : parent ≠ id := by
        rintro rfl
        have hin := ((hready parent).mp rfl).1
        have := (h.deferred parent).mp ⟨parent, hin⟩
        simp [(hid parent).mpr rfl] at this
      have hlt : _ < s.deferredCursorParentByChild.keys.length := hkeys rfl
      have hclosing : ∀ other, roundPhase phase id (some parent) other = .closing ↔
          other = parent := by
        intro other
        have := hid other
        grind [roundPhase]
      obtain ⟨hsettled, hopened'⟩ := ih hround hclosing (by omega)
      exact ⟨hsettled, hopened'.trans hopened⟩

/-- A cursor is deferred until the open cursors of its rows are closed. -/
lemma deferClose (hid : phase id = .opened) {children : List ℕ}
    (hne : children ≠ []) (hchildren : ∀ child ∈ children,
      phase child = .opened ∧ child ≠ id ∧ s.parentOf child = none) :
    Inv (update phase id .deferred) (s.deferClose id children) := by
  have hupdate : ∀ other, update phase id .deferred other
      = if other = id then .deferred else phase other := fun other => update_apply ..
  have hwaited := @waited_deferClose s id children
  have hself : (s.deferClose id children).awaited (s.cursor id)
      = children.toFinset.image s.cursor :=
    update_self ..
  have hother : ∀ cursor, cursor ≠ s.cursor id →
      (s.deferClose id children).awaited cursor = s.awaited cursor :=
    fun cursor hcursor => update_of_ne hcursor ..
  refine
    { linked := h.linked.deferClose (h.waited_eq_empty (by simp [hid])) hne fun child hchild =>
        ⟨(hchildren child hchild).2.1, (hchildren child hchild).2.2,
          h.waited_eq_empty (by simp [(hchildren child hchild).1])⟩
      noDrcp := h.noDrcp
      opened := fun other => ?_
      handed := fun other => ?_
      deferred := fun other => ?_
      listed := fun other => (h.listed other).trans ?_
      entered := fun other => (h.entered other).trans ?_
      child := fun parent child hchild => ?_
      nonzero := fun other hother => h.nonzero other ?_
      awaited := fun parent child hchild => ?_
      past := fun cursor hlt => (h.past cursor hlt).imp_right fun hempty => ?_
      nodup := h.nodup
      behind := fun parent hparent child hchild => h.behind parent hparent child ?_ }
  · have := h.opened other
    rw [hupdate, CursorCloses.deferClose, CursorCloses.hand, mem_erase]
    grind
  · have := h.handed other
    rw [hupdate, CursorCloses.deferClose, CursorCloses.hand, mem_insert]
    grind
  · have := h.deferred other
    rw [hupdate, hwaited]
    split_ifs with heq
    · simpa [Finset.nonempty_iff_ne_empty] using hne
    · exact this
  · grind
  · grind
  · rw [hwaited] at hchild
    rw [hupdate]
    split_ifs at hchild with heq
    · have := (hchildren child (mem_toFinset.mp hchild)).1
      grind
    · have := h.child parent child hchild
      grind
  · grind
  · change child ∈ (s.deferClose id children).awaited (s.cursor parent) at hchild
    rw [hwaited]
    split_ifs with heq
    · rw [heq, hself] at hchild
      obtain ⟨other, hmem, rfl⟩ := Finset.mem_image.mp hchild
      exact .inr ⟨other, hmem, rfl⟩
    · rw [hother _ fun hsame => heq (congrArg Prod.fst hsame)] at hchild
      exact h.awaited parent child hchild
  · rw [hother, hempty]
    rintro rfl
    exact lt_irrefl _ hlt
  · rwa [hother] at hchild
    rintro rfl
    have := (h.entered id).mp hparent
    simp [hid] at this

/-- A cursor is opened under a number that is not in use. -/
lemma openCursor (hzero : id ≠ 0) (hpend : id ∉ s.pendingCursorCloses)
    (hid : phase id = .unused ∨ phase id = .listed) :
    Inv (update phase id .opened) (s.openCursor id) := by
  have hupdate : ∀ other, update phase id .opened other
      = if other = id then .opened else phase other := fun other => update_apply ..
  have hcursor : ∀ other, other ≠ id → (s.openCursor id).cursor other = s.cursor other :=
    fun other hother => congrArg (Prod.mk other) (update_of_ne hother _ _)
  have hnew : (s.openCursor id).cursor id ∉ s.entered ∧
      s.awaited ((s.openCursor id).cursor id) = ∅ := by
    refine h.past _ ?_
    simp [cursor, CursorCloses.openCursor]
  refine
    { linked := h.linked.congr rfl rfl
      noDrcp := h.noDrcp
      opened := fun other => ?_
      handed := fun other => ?_
      deferred := fun other => (h.deferred other).trans ?_
      listed := fun other => ?_
      entered := fun other => ?_
      child := fun parent child hchild => ?_
      nonzero := fun other hother => ?_
      awaited := fun parent child hchild => ?_
      past := fun cursor hlt => h.past cursor (lt_of_le_of_lt ?_ hlt)
      nodup := h.nodup
      behind := h.behind }
  · have := h.opened other
    rw [hupdate, CursorCloses.openCursor, mem_insert]
    grind
  · have := h.handed other
    rw [hupdate, CursorCloses.openCursor, mem_erase]
    grind
  · grind
  · have := h.listed other
    simp only [hupdate, CursorCloses.openCursor, mem_erase]
    grind
  · change (s.openCursor id).cursor other ∈ s.entered ↔ _
    rw [hupdate]
    split_ifs with heq
    · simp [heq, hnew.1]
    · rw [hcursor other heq, h.entered]
  · have := h.child parent child hchild
    grind
  · by_cases heq : other = id
    · rwa [heq]
    · exact h.nonzero other (by rwa [hupdate, if_neg heq] at hother)
  · by_cases heq : parent = id
    · rw [heq] at hchild
      exact absurd (hnew.2 ▸ hchild) (notMem_empty child)
    · rw [hcursor parent heq] at hchild
      refine (h.awaited parent child hchild).imp_right ?_
      rintro ⟨other, hother, rfl⟩
      refine ⟨other, hother, (hcursor other ?_).symm⟩
      -- what is waited for has a number that is in use
      rintro rfl
      have := h.child parent other hother
      grind
  · simp only [CursorCloses.openCursor, update_apply]
    split_ifs with heq
    · rw [heq]
      exact Nat.le_succ _
    · exact le_rfl

/-- The list is emptied. -/
lemma drain : Inv phase s.drainPendingCursorCloses.2 where
  __ := h
  linked := h.linked.congr rfl rfl
  listed other := by
    have hlisted := h.listed other
    have hzero := h.nonzero other
    simp only [drainPendingCursorCloses, not_mem_nil, false_or, mem_union, mem_toFinset,
      mem_normalizeCursorIds]
    grind

/-- Drained cursors are put back. -/
lemma requeue {ids : List ℕ} (hids : ∀ id ∈ ids, id ∈ s.drained) :
    Inv phase (s.requeuePendingCursorCloses ids) := by
  rw [requeuePendingCursorCloses]
  split_ifs with hempty
  · exact h
  refine { h with linked := h.linked.congr rfl rfl, listed := fun other => ?_ }
  have hlisted := h.listed other
  have hzero := h.nonzero other
  have hdrained := hids other
  simp only [mem_normalizeCursorIds, mem_append, Finset.mem_sdiff, mem_toFinset]
  grind

lemma flush (written : Bool) : Inv phase (s.flushPendingCursorCloses written) := by
  have hdrain : s.drainPendingCursorClosesForWrite = s.drainPendingCursorCloses := by
    rw [drainPendingCursorClosesForWrite, h.noDrcp, if_neg (by simp)]
  rw [flushPendingCursorCloses, hdrain]
  split_ifs
  · exact h.drain
  · refine h.drain.requeue fun other hother => ?_
    exact Finset.mem_union_right _ (mem_toFinset.mpr hother)

/-- **A deferred cursor waits for one that is still open**: going from a cursor to one it waits for
comes to an end. -/
theorem exists_opened (hsettled : ∀ id, phase id ≠ .closing)
    (hid : (s.waited id).Nonempty) : ∃ descendant ∈ s.opened, s.Descends id descendant := by
  obtain ⟨rank, hrank⟩ := h.linked.ranked
  induction hn : rank id using Nat.strong_induction_on generalizing id with
  | _ n ih =>
    obtain ⟨child, hmem⟩ := hid
    have hparent := (h.linked.mem_waited_iff child id).mp hmem
    by_cases hdeferred : (s.waited child).Nonempty
    · obtain ⟨descendant, hopen, hdescends⟩ := ih _ (hn ▸ hrank child id hparent) hdeferred rfl
      exact ⟨descendant, hopen, .head hparent hdescends⟩
    · refine ⟨child, (h.opened child).mpr ?_, .single hparent⟩
      obtain ⟨hunused, hlisted⟩ := h.child id child hmem
      have hclosing := hsettled child
      rw [h.deferred] at hdeferred
      cases hphase : phase child with
      | opened => rfl
      | _ => contradiction

end Inv

/-! ### Calls -/

namespace Settled

lemma empty : Settled {} := by
  refine ⟨fun _ => .unused, ?_, by simp⟩
  constructor <;> try simp [waited, childrenOf]
  exact ⟨by simp [waited, parentOf, childrenOf], by simp [childrenOf],
    fun _ => 0, by simp [parentOf]⟩

variable {s : CursorCloses} {id : ℕ} (h : s.Settled)

include h

lemma closeCursorLater (hid : id ∈ s.opened) : (s.closeCursorLater (some id)).Settled ∧
      (s.closeCursorLater (some id)).opened = s.opened.erase id := by
  obtain ⟨phase, h, hsettled⟩ := h
  refine (h.hand ((h.opened id).mp hid)).closeLater (fun other => ?_) (Nat.lt_succ_self _)
  rw [update_apply]
  split_ifs with heq
  · simp [heq]
  · simp [heq, hsettled other]

/-- The cursors of the rows are closed one after the other, while the others stay open. -/
lemma closeChildren {children : List ℕ} (hnodup : children.Nodup)
    (hopened : ∀ child ∈ children, child ∈ s.opened ∧ child ≠ id) (hid : id ∈ s.opened) :
    (children.foldl (fun s child => s.closeCursorLater (some child)) s).Settled ∧
      id ∈ (children.foldl (fun s child => s.closeCursorLater (some child)) s).opened := by
  induction children generalizing s with
  | nil => exact ⟨h, hid⟩
  | cons child children ih =>
    rw [forall_mem_cons] at hopened
    rw [nodup_cons] at hnodup
    obtain ⟨⟨hchild, hne⟩, hrest⟩ := hopened
    obtain ⟨hsettled, heq⟩ := h.closeCursorLater hchild
    refine ih hsettled hnodup.2 (fun other hother => ⟨?_, (hrest other hother).2⟩) ?_
    · rw [heq, mem_erase]
      exact ⟨fun hsame => hnodup.1 (hsame ▸ hother), (hrest other hother).1⟩
    · rw [heq, mem_erase]
      exact ⟨hne.symm, hid⟩

lemma flush (written : Bool) : (s.flushPendingCursorCloses written).Settled :=
  h.imp fun _ h => h.imp_left fun h => h.flush written

lemma openCursor (hzero : id ≠ 0) (hopened : id ∉ s.opened)
    (hpend : id ∉ s.pendingCursorCloses) (hnone : s.childrenOf id = none) :
    (s.openCursor id).Settled := by
  obtain ⟨phase, h, hsettled⟩ := h
  have hunused : phase id = .unused ∨ phase id = .listed := by
    have hclosing := hsettled id
    have hdeferred := (h.deferred id).mpr
    rw [h.linked.nonempty_iff, hnone] at hdeferred
    rw [h.opened] at hopened
    cases hphase : phase id <;> simp_all
  refine ⟨_, h.openCursor hzero hpend hunused, fun other => ?_⟩
  rw [update_apply]
  split_ifs
  · simp
  · exact hsettled other

lemma deferClose (hid : id ∈ s.opened) {children : List ℕ} (hne : children ≠ [])
    (hchildren : ∀ child ∈ children, child ∈ s.opened ∧ child ≠ id ∧ s.parentOf child = none) :
    (s.deferClose id children).Settled := by
  obtain ⟨phase, h, hsettled⟩ := h
  refine ⟨_, h.deferClose ((h.opened id).mp hid) hne fun child hchild =>
    (hchildren child hchild).imp_left (h.opened child).mp, fun other => ?_⟩
  rw [update_apply]
  split_ifs
  · simp
  · exact hsettled other

/-- **Every allowed call keeps the invariant.** -/
theorem step {e : Event} (hallowed : s.Allowed e) : (s.step e).Settled := by
  obtain ⟨honce, hallowed⟩ := hallowed
  cases e with
  | openCursor id =>
    obtain ⟨hzero, hopened, hpend, hnone⟩ := honce
    exact h.openCursor hzero hopened hpend hnone
  | closeLater cursorId =>
    cases cursorId with
    | none => exact h
    | some id => exact (h.closeCursorLater (honce id rfl)).1
  | closeFullyFetched id rows order may written =>
    obtain ⟨hid, hrows⟩ := honce
    rw [CursorCloses.step, closeFullyFetchedCursor]
    split_ifs with hdefer
    · rw [Bool.and_eq_true] at hdefer
      refine h.deferClose hid (by simpa using hdefer.2) fun child hchild => ?_
      exact ⟨hallowed hdefer.1 child hchild, ((hrows hdefer.1).child child hchild).2⟩
    · exact (h.closeCursorLater hid).1.flush written
  | closeAfterPartialRows id rows order may =>
    obtain ⟨hid, hrows⟩ := honce
    cases may with
    | false => exact (h.closeCursorLater hid).1
    | true =>
      obtain ⟨honce, hopen⟩ := hrows rfl
      obtain ⟨hsettled, hmem⟩ := h.closeChildren honce.nodup
        (fun child hchild => ⟨hopen child hchild, (honce.child child hchild).2.1⟩) hid
      exact (hsettled.closeCursorLater hmem).1
  | drain => exact h.imp fun _ h => h.imp_left Inv.drain
  | requeue ids => exact h.imp fun _ h => h.imp_left fun h => h.requeue hallowed

end Settled

/-! ### Runs -/

/-- The maps are inverse to each other without an empty set; a cursor enters the list at most once,
and one that was deferred enters it behind those of its rows; one that was handed over has entered
the list, and is on it or was drained, or it is deferred and waits for one that is open. -/
structure Safe (s : CursorCloses) : Prop where
  inverse : ∀ child parent, s.parentOf child = some parent ↔
    ∃ children, s.childrenOf parent = some children ∧ child ∈ children
  nonempty : ∀ parent children, s.childrenOf parent = some children → children.Nonempty
  once : s.entered.Nodup
  behind : ∀ parent ∈ s.entered, ∀ child ∈ s.awaited parent, [child, parent] <+ s.entered
  deferred : ∀ id, (s.childrenOf id).isSome → s.cursor id ∉ s.entered
  notLost : ∀ id ∈ s.handed,
    s.cursor id ∈ s.entered ∧ (id ∈ s.pendingCursorCloses ∨ id ∈ s.drained) ∨
      (s.childrenOf id).isSome ∧ ∃ descendant ∈ s.opened, s.Descends id descendant

lemma Settled.safe {s : CursorCloses} (h : s.Settled) : s.Safe := by
  obtain ⟨phase, h, hsettled⟩ := h
  refine
    { inverse := fun child parent => ?_
      nonempty := fun parent children hchildren => ?_
      once := h.nodup
      behind := h.behind
      deferred := fun id hid hmem => ?_
      notLost := fun id hid => ?_ }
  · rw [← h.linked.mem_waited_iff, waited]
    cases s.childrenOf parent <;> simp
  · rw [← waited_of_childrenOf hchildren, h.linked.nonempty_iff, hchildren]
    rfl
  · rw [← h.linked.nonempty_iff, h.deferred, (h.entered id).mp hmem] at hid
    simp at hid
  · obtain ⟨hunused, hopened⟩ := (h.handed id).mp hid
    have hclosing := hsettled id
    cases hphase : phase id with
    | deferred =>
      have hwaited := (h.deferred id).mpr hphase
      exact .inr ⟨(h.linked.nonempty_iff id).mp hwaited, h.exists_opened hsettled hwaited⟩
    | listed => exact .inl ⟨(h.entered id).mpr hphase, (h.listed id).mpr hphase⟩
    | _ => contradiction

/-- **In every run of allowed calls, the maps stay inverse to each other, a deferred cursor enters
the list once and after the cursors of its rows, and no closed cursor is lost.** -/
theorem closes_safe (es : List Event) (hallowed : ∀ v ∈ visits step {} es, Allowed v.1 v.2) :
    (run step {} es).Safe ∧ ∀ v ∈ visits step {} es, v.1.Safe := by
  obtain ⟨hrun, hvisits⟩ := visits_invariant_of (P := Settled) (Q := Allowed)
    (fun _ _ hallowed h => h.step hallowed) Settled.empty hallowed
  exact ⟨hrun.safe, fun v hv => (hvisits v hv).safe⟩

/-- A cursor with two cursors in its rows, and the rows of one of them hold a third. -/
def nestedRun : List Event :=
  [.openCursor 10, .openCursor 11, .openCursor 12,
    .closeFullyFetched 10 [[.cursor 11, .other], [.cursor 12, .other]] [12, 11] true true,
    .openCursor 13, .closeFullyFetched 11 [[.cursor 13]] [13] true true, .closeLater (some 12),
    .drain, .closeLater (some 13), .drain, .requeue [10, 11]]

theorem closes_safe_nested : (run step {} nestedRun).Safe ∧
      (run step {} nestedRun).entered = [(12, 1), (13, 1), (11, 1), (10, 1)] ∧
      (run step {} nestedRun).pendingCursorCloses = [10, 11] :=
  ⟨(closes_safe nestedRun (by decide +kernel)).1, by decide +kernel, by decide +kernel⟩

/-- A cursor of the rows is closed before the cursor they belong to: no cursor is handed over
twice, but the second one waits for good. -/
theorem closed_child_loses_parent :
    let es := [.openCursor 10, .openCursor 11, .closeLater (some 11),
      .closeFullyFetched 10 [[.cursor 11]] [11] true true]
    (∀ v ∈ visits step {} es, HandedOnce v.1 v.2) ∧ ¬ (run step {} es).Safe := by
  refine ⟨by decide +kernel, fun h => ?_⟩
  obtain ⟨-, hpend | hdrained⟩ | ⟨-, descendant, hopen, -⟩ := h.notLost 10 (by decide +kernel)
  · exact absurd hpend (by decide +kernel)
  · exact absurd hdrained (by decide +kernel)
  · have hnone : ∀ id ∈ (run step {} [.openCursor 10, .openCursor 11, .closeLater (some 11),
        .closeFullyFetched 10 [[.cursor 11]] [11] true true]).opened, False := by decide +kernel
    exact hnone descendant hopen

end CursorCloses

end SpaceQuery.Thin
