import SpaceQuery.Editor.ChunkedText
import SpaceQuery.Lib.RustText

/-!
The undo and redo history of the editor, `WordUndoRedoState` of `undo_history.rs`.

The state is passed explicitly, and the texts it builds are allocated in `Alloc`.  The
loops are recursions on what they consume: the deltas that are dropped, the index that is
lowered, the deltas that are redone.  Byte counts are natural numbers.
-/

namespace SpaceQuery.Editor

open Utf8

/-- What groups edits. -/
inductive EditGranularity
  | word | other
  deriving DecidableEq

/-- The kinds of edits. -/
inductive EditOperation
  | insert | delete | replace | other
  deriving DecidableEq

/-- What the edits of a group have in common. -/
structure EditGroup where
  granularity : EditGranularity
  operation : EditOperation
  deriving DecidableEq

/-- An edit of the buffer, before it is recorded. -/
structure BufferEdit where
  start : ℕ
  deletedLen : ℕ
  insertedText : Arc Str

def remoteEditCursorDistance : ℕ := 5

def maxWordUndoHistory : ℕ := 500

def maxWordUndoHistoryBytes : ℕ := 64 * 1024 * 1024

/-- A text with the cursor in it. -/
structure UndoSnapshot where
  text : ChunkedText
  cursorPos : ℕ

def UndoSnapshot.new (text : Str) (cursorPos : ℕ) : Alloc UndoSnapshot := do
  return ⟨← ChunkedText.fromString text, cursorPos⟩

/-- An edit, as it is recorded. -/
structure UndoDelta where
  start : ℕ
  deletedText : ChunkedText
  insertedText : Arc Str
  beforeCursor : ℕ
  afterCursor : ℕ
  groupId : ℕ

/-- The bytes that a delta holds. -/
def UndoDelta.size (delta : UndoDelta) : ℕ := delta.deletedText.len + delta.insertedText.val.len

def deltaChangesText (delta : UndoDelta) : Bool :=
  !delta.deletedText.isEmpty || !(delta.insertedText.val.len = 0 : Bool)

/-- The history of a buffer. -/
structure WordUndoRedoState where
  anchor : UndoSnapshot
  current : UndoSnapshot
  deltas : List UndoDelta
  historyTotalBytes : ℕ
  index : ℕ
  activeGroup : Option (EditGroup × ℕ)
  nextGroupId : ℕ
  applyingHistory : Bool
  suppressNextRemoteCursorMove : Bool
  finishGroupAfterNextEdit : Bool
  completionEditGroupId : Option ℕ
  pendingHistoryTextSnapshots : List ChunkedText

/-! ### Edits of a snapshot -/

def clampToCharBoundary (text : Str) (idx : ℕ) : ℕ := floorBoundary text.bytes (min idx text.len)

def clampChunkedBoundary (text : ChunkedText) (idx : ℕ) : ℕ := text.clampBoundary idx

def normalizedReplaceRange (text : ChunkedText) (edit : BufferEdit) : ℕ × ℕ :=
  let replaceStart := clampChunkedBoundary text edit.start
  let deleteEnd := min (replaceStart + edit.deletedLen) text.len
  let replaceEnd := max (clampChunkedBoundary text deleteEnd) replaceStart
  (replaceStart, replaceEnd)

def applyEditToSnapshot (snapshot : UndoSnapshot) (edit : BufferEdit) : Alloc UndoSnapshot := do
  let (replaceStart, replaceEnd) := normalizedReplaceRange snapshot.text edit
  let (text, _) ← snapshot.text.replaceRangeShared replaceStart replaceEnd edit.insertedText
  let cursor := min (replaceStart + edit.insertedText.val.len) text.len
  return ⟨text, clampChunkedBoundary text cursor⟩

def applyDeltaToSnapshot (snapshot : UndoSnapshot) (delta : UndoDelta) (reverse : Bool) :
    Alloc UndoSnapshot := do
  let start := clampChunkedBoundary snapshot.text delta.start
  let deleteLen := if reverse then delta.insertedText.val.len else delta.deletedText.len
  let stop :=
    max (clampChunkedBoundary snapshot.text (min (start + deleteLen) snapshot.text.len)) start
  let (text, _) ←
    if reverse then snapshot.text.replaceRangeChunked start stop delta.deletedText
    else snapshot.text.replaceRangeShared start stop delta.insertedText
  let cursor := if reverse then delta.beforeCursor else delta.afterCursor
  return ⟨text, clampChunkedBoundary text cursor⟩

section Words

-- `char::is_alphanumeric`, a table of Unicode
variable (isAlphanumeric : Char → Bool)

def isWordEditChar (ch : Char) : Bool := isAlphanumeric ch || ch == '_'

variable (text : Str)

/-- `str::chars`. -/
def chars : List Char := ((RustText.fromUtf8 text.bytes).map String.toList).getD []

/-- The first character of `text.get(start..)`. -/
def firstChar (start : ℕ) : Option Char := do
  (chars (← text.get start text.len)).head?

/-- The last character of `text.get(..stop)` and its start. -/
def lastChar (stop : ℕ) : Option (ℕ × Char) := do
  let ch ← (chars (← text.get 0 stop)).getLast?
  return (stop - ch.utf8Size, ch)

/-- `while start > 0`; each round lowers `start`. -/
def wordStart (text : Str) : ℕ → ℕ → ℕ
  | 0, start => start
  | rounds + 1, start =>
    if 0 < start then
      match lastChar text start with
      | none => start
      | some (prevStart, ch) =>
        if isWordEditChar isAlphanumeric ch then wordStart text rounds prevStart else start
    else start

/-- `while end < text.len()`; each round raises `end`. -/
def wordEnd (text : Str) : ℕ → ℕ → ℕ
  | 0, stop => stop
  | rounds + 1, stop =>
    if stop < text.len then
      match firstChar text stop with
      | none => stop
      | some ch =>
        if isWordEditChar isAlphanumeric ch then wordEnd text rounds (stop + ch.utf8Size) else stop
    else stop

def wordSpanTouchingOffset (pos : ℕ) : Option (ℕ × ℕ) := do
  if text.len = 0 then none
  let pos := clampToCharBoundary text (min pos text.len)
  let here ←
    if pos < text.len then do
      let ch ← firstChar text pos
      pure (if isWordEditChar isAlphanumeric ch then some pos else none)
    else pure none
  let anchor ← here <|> do
    if pos = 0 then none
    let (start, ch) ← lastChar text pos
    if isWordEditChar isAlphanumeric ch then some start else none
  return (wordStart isAlphanumeric text anchor anchor,
    wordEnd isAlphanumeric text text.len anchor)

def editTouchesWordSpan (editStart editEnd wordStart wordEnd : ℕ) : Bool :=
  if editStart = editEnd then wordStart ≤ editStart && editStart ≤ wordEnd
  else editStart < wordEnd && wordStart < editEnd

variable (text : ChunkedText) (left right : ℕ)

/-- The two positions of a text, clamped and in order. -/
def orderedRange : ℕ × ℕ :=
  let left := text.clampBoundary (min left text.len)
  let right := text.clampBoundary (min right text.len)
  if left ≤ right then (left, right) else (right, left)

def isSameLineChunked : Bool :=
  let (start, stop) := orderedRange text left right
  !((text.rangeString start stop).getD Str.empty).bytes.contains LineBreaks.lf

def cursorDistanceCharsChunked : ℕ :=
  let (start, stop) := orderedRange text left right
  -- a range this wide is remote, whatever its characters are
  if remoteEditCursorDistance * 4 ≤ stop - start then remoteEditCursorDistance
  else ((text.rangeString start stop).map fun range => (chars range).length).getD (stop - start)

end Words

namespace WordUndoRedoState

variable (s : WordUndoRedoState)

def new (initialText : Str) : Alloc WordUndoRedoState := do
  let initialSnapshot ← UndoSnapshot.new initialText initialText.len
  return {
    anchor := initialSnapshot
    current := initialSnapshot
    deltas := []
    historyTotalBytes := 0
    index := 0
    activeGroup := none
    nextGroupId := 1
    applyingHistory := false
    suppressNextRemoteCursorMove := false
    finishGroupAfterNextEdit := false
    completionEditGroupId := none
    pendingHistoryTextSnapshots := [] }

def normalizeIndex : WordUndoRedoState :=
  let s :=
    if s.deltas.length < s.index then { s with index := s.deltas.length, activeGroup := none }
    else s
  { s with
    current := { s.current with
      cursorPos := clampChunkedBoundary s.current.text s.current.cursorPos } }

variable (isAlphanumeric : Char → Bool)

def shouldMergeIntoActiveGroup (editGroup : EditGroup) (edit : BufferEdit) : Bool :=
  match s.activeGroup with
  | none => false
  | some (activeGroup, _) =>
    if activeGroup.granularity ≠ .word ∨ editGroup.granularity ≠ .word ∨
        activeGroup.operation = .other ∨ editGroup.operation = .other then false
    else if edit.insertedText.val.bytes.contains LineBreaks.lf then false
    else
      let currentCursor := s.current.cursorPos
      let (editStart, editEnd) := normalizedReplaceRange s.current.text edit
      if remoteEditCursorDistance ≤
          cursorDistanceCharsChunked s.current.text currentCursor editStart then false
      else
        let nearCurrentCursor := editStart ≤ currentCursor + 12 ∧ currentCursor ≤ editEnd + 12
        let smallEdit := edit.deletedLen ≤ 24 ∧ edit.insertedText.val.len ≤ 48
        if ¬ nearCurrentCursor ∨ ¬ smallEdit then false
        else if ¬ isSameLineChunked s.current.text currentCursor editStart ∨
            ¬ isSameLineChunked s.current.text currentCursor editEnd then false
        else
          let windowStart := s.current.text.clampBoundary (s.current.cursorPos - 256)
          let windowEnd := min (s.current.cursorPos + 256) s.current.text.len
          let currentText := (s.current.text.rangeString windowStart windowEnd).getD Str.empty
          match wordSpanTouchingOffset isAlphanumeric currentText (currentCursor - windowStart) with
          | none => editStart = currentCursor
          | some (wordStart, wordEnd) =>
            editTouchesWordSpan editStart editEnd (windowStart + wordStart) (windowStart + wordEnd)

/-! ### The limits of the history -/

def truncateRedoHistory : WordUndoRedoState :=
  if s.deltas.length ≤ s.index then s
  else
    let removedBytes := ((s.deltas.drop s.index).map UndoDelta.size).sum
    { s with
      deltas := s.deltas.take s.index
      historyTotalBytes := s.historyTotalBytes - removedBytes
      activeGroup := none }

def effectiveHistoryByteLimit : ℕ := max maxWordUndoHistoryBytes (s.current.text.len * 2)

/-- The loop of `trim_history_if_needed`, on the deltas of the state. -/
def trimLoop (byteLimit : ℕ) : List UndoDelta → WordUndoRedoState → Alloc WordUndoRedoState
  | [], s => return s
  | removed :: rest, s => do
    if 1 < s.deltas.length ∧
        (maxWordUndoHistory < s.deltas.length ∨ byteLimit < s.historyTotalBytes) then
      let s := { s with
        deltas := rest
        historyTotalBytes := s.historyTotalBytes - removed.size }
      if 0 < s.index then
        let anchor ← applyDeltaToSnapshot s.anchor removed false
        trimLoop byteLimit rest { s with anchor := anchor, index := s.index - 1 }
      else trimLoop byteLimit rest s
    else return s

def trimHistoryIfNeeded : Alloc WordUndoRedoState := do
  let s ← trimLoop s.effectiveHistoryByteLimit s.deltas s
  let s := if s.deltas.length < s.index then { s with index := s.deltas.length } else s
  return if s.index = 0 then { s with activeGroup := none } else s

/-! ### Recording -/

/-- The start of the calls that record an edit or take a group. -/
def beginCall : WordUndoRedoState :=
  { s.normalizeIndex with pendingHistoryTextSnapshots := [] }

/-- `next_group_id`: the id, and the counter behind it, a `u64`. -/
def takeGroupId : ℕ × WordUndoRedoState :=
  (s.nextGroupId, { s with nextGroupId := min (s.nextGroupId + 1) (2 ^ 64 - 1) })

/-- The id of an edit: that of the active group, or the next one. -/
def editGroupId (mergeGroup : Bool) : ℕ × WordUndoRedoState :=
  match mergeGroup, s.activeGroup with
  | true, some (_, id) => (id, s)
  | _, _ => s.takeGroupId

/-- The end of the two recordings of a cursor move. -/
def pushCursorMove (currentCursor nextCursor : ℕ) : Alloc WordUndoRedoState := do
  let (groupId, s) := s.takeGroupId
  let delta : UndoDelta := {
    start := nextCursor
    deletedText := .default
    insertedText := ← Arc.new Str.empty
    beforeCursor := currentCursor
    afterCursor := nextCursor
    groupId := groupId }
  let current ← applyDeltaToSnapshot s.current delta false
  trimHistoryIfNeeded { s with
    current := current
    deltas := s.deltas ++ [delta]
    index := s.deltas.length + 1
    activeGroup := none }

/-- The clamped cursors are equal or near each other. -/
def nearCursors (currentCursor nextCursor : ℕ) : Bool :=
  currentCursor = nextCursor ∨
    cursorDistanceCharsChunked s.current.text currentCursor nextCursor < remoteEditCursorDistance

def recordCursorMoveIfRemote (replaceStart : ℕ) (mergeGroup : Bool) (editGroup : EditGroup) :
    Alloc WordUndoRedoState := do
  let suppressRemoteCursorMove := s.suppressNextRemoteCursorMove
  let s := { s with suppressNextRemoteCursorMove := false }
  if suppressRemoteCursorMove then return s
  else if mergeGroup ∨ editGroup.operation = .other then return s
  else
    let currentCursor :=
      clampChunkedBoundary s.current.text (min s.current.cursorPos s.current.text.len)
    let nextCursor := clampChunkedBoundary s.current.text (min replaceStart s.current.text.len)
    if s.nearCursors currentCursor nextCursor then return s
    else s.pushCursorMove currentCursor nextCursor

def recordCursorMoveToIfRemote (cursorPos : ℕ) : Alloc WordUndoRedoState := do
  let s := s.normalizeIndex
  let currentCursor :=
    clampChunkedBoundary s.current.text (min s.current.cursorPos s.current.text.len)
  let nextCursor := clampChunkedBoundary s.current.text (min cursorPos s.current.text.len)
  if s.nearCursors currentCursor nextCursor then return s
  else s.truncateRedoHistory.pushCursorMove currentCursor nextCursor

/-- The end of the recordings of an edit: the delta is counted and pushed. -/
def pushEdit (delta : UndoDelta) (activeGroup : Option (EditGroup × ℕ)) :
    Alloc (ChunkedText × WordUndoRedoState) := do
  let s ← trimHistoryIfNeeded { s with
    historyTotalBytes := s.historyTotalBytes + delta.size
    deltas := s.deltas ++ [delta]
    index := s.deltas.length + 1
    activeGroup := activeGroup }
  return (s.current.text, s)

/-- `record_edit` from the truncation on. -/
def recordNormalizedEdit (normalizedEdit : BufferEdit)
    (deletedText : ChunkedText) (editGroup : EditGroup) :
    Alloc (ChunkedText × WordUndoRedoState) := do
  let s := s.truncateRedoHistory
  let finishGroupAfterEdit := s.finishGroupAfterNextEdit
  let s := { s with finishGroupAfterNextEdit := false }
  let mergeGroup := s.shouldMergeIntoActiveGroup isAlphanumeric editGroup normalizedEdit
  let s ← s.recordCursorMoveIfRemote normalizedEdit.start mergeGroup editGroup
  let beforeCursor := s.current.cursorPos
  let (groupId, s) := s.editGroupId mergeGroup
  let s :=
    if finishGroupAfterEdit then { s with completionEditGroupId := some groupId } else s
  let current ← applyEditToSnapshot s.current normalizedEdit
  let delta : UndoDelta := {
    start := normalizedEdit.start
    deletedText := deletedText
    insertedText := normalizedEdit.insertedText
    beforeCursor := beforeCursor
    afterCursor := current.cursorPos
    groupId := groupId }
  pushEdit { s with current := current } delta
    (if finishGroupAfterEdit then none else some (editGroup, groupId))

def recordEdit (edit : BufferEdit) (editGroup : EditGroup) :
    Alloc (ChunkedText × WordUndoRedoState) := do
  let s := s.beginCall
  let (replaceStart, replaceEnd) := normalizedReplaceRange s.current.text edit
  let deletedText := (s.current.text.slice replaceStart replaceEnd).getD .default
  let normalizedEdit : BufferEdit := {
    start := replaceStart
    deletedLen := replaceEnd - replaceStart
    insertedText := edit.insertedText }
  if deletedText.matchesStr normalizedEdit.insertedText.val then
    let s := { s with
      suppressNextRemoteCursorMove := false
      finishGroupAfterNextEdit := false
      completionEditGroupId := none }
    return (s.current.text, s)
  else s.recordNormalizedEdit isAlphanumeric normalizedEdit deletedText editGroup

/-- The group of the programmatic edits. -/
def programmaticGroup : EditGroup := ⟨.other, .replace⟩

def recordProgrammaticEdit (edit : BufferEdit) (beforeCursor afterCursor : ℕ) :
    Alloc (ChunkedText × WordUndoRedoState) := do
  let s := s.beginCall.truncateRedoHistory
  let (replaceStart, replaceEnd) := normalizedReplaceRange s.current.text edit
  let deletedText := (s.current.text.slice replaceStart replaceEnd).getD .default
  let normalizedEdit : BufferEdit := {
    start := replaceStart
    deletedLen := replaceEnd - replaceStart
    insertedText := edit.insertedText }
  let beforeCursor :=
    clampChunkedBoundary s.current.text (min beforeCursor s.current.text.len)
  let (groupId, s) := s.takeGroupId
  let current ← applyEditToSnapshot s.current normalizedEdit
  let afterCursor := clampChunkedBoundary current.text (min afterCursor current.text.len)
  let delta : UndoDelta := {
    start := replaceStart
    deletedText := deletedText
    insertedText := normalizedEdit.insertedText
    beforeCursor := beforeCursor
    afterCursor := afterCursor
    groupId := groupId }
  pushEdit { s with current := { current with cursorPos := afterCursor } } delta
    (some (programmaticGroup, groupId))

def recordFullBufferProgrammaticReplace (insertedText : Arc Str) (beforeCursor afterCursor : ℕ) :
    Alloc (ChunkedText × WordUndoRedoState) := do
  let s := s.beginCall.truncateRedoHistory
  let beforeCursor :=
    clampChunkedBoundary s.current.text (min beforeCursor s.current.text.len)
  let deletedText := s.current.text
  let (groupId, s) := s.takeGroupId
  let text ← ChunkedText.fromSharedString insertedText
  let afterCursor := clampChunkedBoundary text (min afterCursor text.len)
  let delta : UndoDelta := {
    start := 0
    deletedText := deletedText
    insertedText := insertedText
    beforeCursor := beforeCursor
    afterCursor := afterCursor
    groupId := groupId }
  pushEdit { s with current := ⟨text, afterCursor⟩ } delta (some (programmaticGroup, groupId))

/-! ### Completions and the cursor -/

def finishActiveGroup : WordUndoRedoState :=
  { s with
    activeGroup := none
    suppressNextRemoteCursorMove := false
    finishGroupAfterNextEdit := false
    completionEditGroupId := none }

def syncCurrentCursor (cursorPos : ℕ) : WordUndoRedoState :=
  { s with
    current := { s.current with
      cursorPos := clampChunkedBoundary s.current.text (min cursorPos s.current.text.len) } }

def prepareCompletionEdit : WordUndoRedoState :=
  { s with
    activeGroup := none
    suppressNextRemoteCursorMove := true
    finishGroupAfterNextEdit := true
    completionEditGroupId := none }

def finishCompletionEditCursor (cursorPos : ℕ) (changedText : Bool) : WordUndoRedoState :=
  let cursor := clampChunkedBoundary s.current.text (min cursorPos s.current.text.len)
  let completionGroupId := s.completionEditGroupId
  let s := { s with
    current := { s.current with cursorPos := cursor }
    completionEditGroupId := none
    suppressNextRemoteCursorMove := false
    finishGroupAfterNextEdit := false }
  if changedText ∧ completionGroupId.isSome ∧ s.index = s.deltas.length then
    { s with
      deltas := s.deltas.modifyLast fun delta =>
        if some delta.groupId = completionGroupId then { delta with afterCursor := cursor }
        else delta }
  else s

/-! ### Undo and redo -/

/-- The loop of `take_undo_group`, on the index of the state. -/
def undoLoop (targetGroupId : ℕ) :
    ℕ → WordUndoRedoState → List UndoDelta → Alloc (List UndoDelta × WordUndoRedoState)
  | 0, s, group => return (group, s)
  | index + 1, s, group => do
    match s.deltas[index]? with
    | none => return (group, { s with index := s.deltas.length, activeGroup := none })
    | some delta =>
      if delta.groupId ≠ targetGroupId then return (group, s)
      else
        let current ← applyDeltaToSnapshot s.current delta true
        undoLoop targetGroupId index { s with index := index, current := current }
          (group ++ [delta])

/-- The loop of `take_redo_group`, on the deltas behind the index of the state. -/
def redoLoop (targetGroupId : ℕ) :
    List UndoDelta → WordUndoRedoState → List UndoDelta → Alloc (List UndoDelta × WordUndoRedoState)
  | [], s, group => return (group, s)
  | delta :: rest, s, group => do
    if delta.groupId ≠ targetGroupId then return (group, s)
    else
      let current ← applyDeltaToSnapshot s.current delta false
      redoLoop targetGroupId rest { s with index := s.index + 1, current := current }
        (group ++ [delta])

/-- The end of `take_undo_group` and `take_redo_group`. -/
def finishGroup (group : List UndoDelta) : WordUndoRedoState :=
  if group = [] then s
  else
    { s with
      pendingHistoryTextSnapshots :=
        if group.any deltaChangesText then s.pendingHistoryTextSnapshots ++ [s.current.text]
        else s.pendingHistoryTextSnapshots
      activeGroup := none
      applyingHistory := true }

def takeUndoGroup : Alloc (List UndoDelta × WordUndoRedoState) := do
  let s := s.beginCall
  if s.index = 0 then return ([], s)
  else
    match s.deltas[s.index - 1]? with
    | none => return ([], s)
    | some delta =>
      let (group, s) ← undoLoop delta.groupId s.index s []
      return (group, s.finishGroup group)

def takeRedoGroup : Alloc (List UndoDelta × WordUndoRedoState) := do
  let s := s.beginCall
  if s.deltas.length ≤ s.index then return ([], s)
  else
    match s.deltas[s.index]? with
    | none => return ([], s)
    | some delta =>
      let (group, s) ← redoLoop delta.groupId (s.deltas.drop s.index) s []
      return (group, s.finishGroup group)

end WordUndoRedoState

/-! ### Runs -/

/-- The calls that change a history. -/
inductive HistoryCall
  | recordEdit (edit : BufferEdit) (editGroup : EditGroup)
  | recordProgrammaticEdit (edit : BufferEdit) (beforeCursor afterCursor : ℕ)
  | recordFullBufferProgrammaticReplace (insertedText : Arc Str) (beforeCursor afterCursor : ℕ)
  | recordCursorMoveToIfRemote (cursorPos : ℕ)
  | syncCurrentCursor (cursorPos : ℕ)
  | finishActiveGroup
  | prepareCompletionEdit
  | finishCompletionEditCursor (cursorPos : ℕ) (changedText : Bool)
  | takeUndoGroup
  | takeRedoGroup
  /-- `undo` and `redo` have applied the group to the buffer. -/
  | historyApplied

namespace WordUndoRedoState

variable (isAlphanumeric : Char → Bool)

def call (s : WordUndoRedoState) : HistoryCall → Alloc WordUndoRedoState
  | .recordEdit edit editGroup => do return (← s.recordEdit isAlphanumeric edit editGroup).2
  | .recordProgrammaticEdit edit beforeCursor afterCursor => do
    return (← s.recordProgrammaticEdit edit beforeCursor afterCursor).2
  | .recordFullBufferProgrammaticReplace insertedText beforeCursor afterCursor => do
    return (← s.recordFullBufferProgrammaticReplace insertedText beforeCursor afterCursor).2
  | .recordCursorMoveToIfRemote cursorPos => s.recordCursorMoveToIfRemote cursorPos
  | .syncCurrentCursor cursorPos => return s.syncCurrentCursor cursorPos
  | .finishActiveGroup => return s.finishActiveGroup
  | .prepareCompletionEdit => return s.prepareCompletionEdit
  | .finishCompletionEditCursor cursorPos changedText =>
    return s.finishCompletionEditCursor cursorPos changedText
  | .takeUndoGroup => do return (← s.takeUndoGroup).2
  | .takeRedoGroup => do return (← s.takeRedoGroup).2
  | .historyApplied =>
    return { s with applyingHistory := false, pendingHistoryTextSnapshots := [] }

/-- A history of an editor: its text at the start, and the calls since. -/
def run (initialText : Str) (calls : List HistoryCall) : Alloc WordUndoRedoState := do
  calls.foldlM (call isAlphanumeric) (← new initialText)

end WordUndoRedoState

end SpaceQuery.Editor
