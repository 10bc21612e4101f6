import Mathlib.Data.List.ModifyLast
import SpaceQuery.Editor.ChunkedTextInvariant
import SpaceQuery.Editor.UndoHistory
import SpaceQuery.Lib.EditLog
import SpaceQuery.Lib.Simulation

/-!
The undo history keeps a log of splices that accounts for the current text.
-/

namespace SpaceQuery.Editor

open List Utf8 EditLog

variable {t : ChunkedText}

/-! ### Splices of chunked texts -/

variable {d : Splice}

namespace ChunkedText

lemma default_inv : default.Inv := ⟨SequenceNode.wellFormed_none, chunks_nil⟩

lemma fromString_ensures (text : Str) :
    Ensures (fromString text) fun t => t.Inv ∧ t.text = text.bytes := by
  intro next
  obtain ⟨hchunks, hclean, htext⟩ := splitTextChunksFromString_spec text next
  obtain ⟨hinv, -, htext'⟩ := fromLeaves_inv hchunks hclean
  exact ⟨hinv, htext'.trans htext⟩

lemma fromSharedString_ensures (text : Arc Str) :
    Ensures (fromSharedString text) fun t => t.Inv ∧ t.text = text.val.bytes := by
  intro next
  obtain ⟨hchunks, hclean, htext⟩ := splitTextChunksFromStorage_spec text next
  obtain ⟨hinv, -, htext'⟩ := fromLeaves_inv hchunks hclean
  exact ⟨hinv, htext'.trans htext⟩

open Splice (Fits apply)

/-- A replacement of the range of a splice does the splice. -/
lemma Replaces.splice {clean : Prop} {result : ChunkedText × Bool}
    (h : Replaces t d.start (d.start + d.deleted.length) d.inserted clean result)
    (hfits : Fits t.text d) : result.1.Inv ∧ result.1.text = apply t.text d := by
  obtain ⟨hstart, hstop⟩ := hfits.isCharBoundary
  refine ⟨h.inv, ?_⟩
  have htext := h.text
  rw [floorBoundary_eq hstart, floorBoundary_eq hstop] at htext
  exact (htext (Nat.le_add_right _ _)).2

lemma replaceRangeShared_ensures (h : t.Inv) (hfits : Fits t.text d)
    {inserted : Arc Str} (hins : d.inserted = inserted.val.bytes) :
    Ensures (t.replaceRangeShared d.start (d.start + d.deleted.length) inserted) fun result =>
      result.1.Inv ∧ result.1.text = apply t.text d := by
  intro next
  have hreplaces := h.replaceRangeShared d.start (d.start + d.deleted.length) inserted next
  rw [← hins] at hreplaces
  exact hreplaces.splice hfits

lemma replaceRangeChunked_ensures (h : t.Inv) (hfits : Fits t.text d)
    {inserted : ChunkedText} (hinv : inserted.Inv) (hins : d.inserted = inserted.text) :
    Ensures (t.replaceRangeChunked d.start (d.start + d.deleted.length) inserted) fun result =>
      result.1.Inv ∧ result.1.text = apply t.text d := by
  intro next
  have hreplaces := h.replaceRangeChunked hinv d.start (d.start + d.deleted.length) next
  rw [← hins] at hreplaces
  exact hreplaces.splice hfits

end ChunkedText

open ChunkedText

/-- The range of a splice that fits is clamped to itself. -/
lemma clampRange_eq (h : t.Inv) (hfits : Splice.Fits t.text d) :
    clampChunkedBoundary t d.start = d.start ∧
      max (clampChunkedBoundary t (min (d.start + d.deleted.length) t.len)) d.start
        = d.start + d.deleted.length := by
  obtain ⟨hstart, hstop⟩ := hfits.isCharBoundary
  rw [clampChunkedBoundary, clampChunkedBoundary, h.clampBoundary_min, h.clampBoundary_eq,
    floorBoundary_eq hstart, floorBoundary_eq hstop]
  exact ⟨rfl, max_eq_left (Nat.le_add_right _ _)⟩

/-- The range of an edit is normalized to the range of a splice that fits, and the slice
of this range is the text that the splice deletes. -/
lemma normalizedReplaceRange_spec (h : t.Inv) (edit : BufferEdit) :
    ∃ d : Splice, normalizedReplaceRange t edit = (d.start, d.start + d.deleted.length) ∧
      d.inserted = edit.insertedText.val.bytes ∧ Splice.Fits t.text d ∧
      ∃ deleted, t.slice d.start (d.start + d.deleted.length) = some deleted ∧ deleted.Inv ∧
        deleted.text = d.deleted := by
  obtain ⟨start, stop, hrange, hle, hstart, hstop⟩ : ∃ start stop,
      normalizedReplaceRange t edit = (start, stop) ∧ start ≤ stop ∧
        Utf8.isCharBoundary t.text start ∧ Utf8.isCharBoundary t.text stop := by
    refine ⟨_, _, rfl, le_max_right _ _, ?_, ?_⟩
    · rw [clampChunkedBoundary, h.clampBoundary_eq]
      exact isCharBoundary_floorBoundary _ _
    · simp only [clampChunkedBoundary, h.clampBoundary_eq]
      rcases max_choice (floorBoundary t.text (min (floorBoundary t.text edit.start
        + edit.deletedLen) t.len)) (floorBoundary t.text edit.start) with hmax | hmax
      all_goals
        rw [hmax]
        exact isCharBoundary_floorBoundary _ _
  have hlen : start + ((t.text.take stop).drop start).length = stop := by
    have hstoplen := le_length_of_isCharBoundary hstop
    rw [length_drop, length_take]
    omega
  obtain ⟨deleted, hslice, hinv, htext, -⟩ := h.slice_spec (floorBoundary_mono t.text hle)
  rw [floorBoundary_eq hstart, floorBoundary_eq hstop] at htext
  refine ⟨⟨start, (t.text.take stop).drop start, edit.insertedText.val.bytes⟩, ?_, rfl,
    Splice.fits_of_isCharBoundary (valid_textOf t.chunks) hle hstart hstop
      edit.insertedText.val.valid, deleted, ?_, hinv, htext⟩
  · rw [hrange, hlen]
  · rw [hlen]
    exact hslice

variable {snapshot : UndoSnapshot} {edit : BufferEdit}

/-- A normalized edit is done as a splice. -/
lemma applyEditToSnapshot_spec (h : snapshot.text.Inv)
    (hfits : Splice.Fits snapshot.text.text d) (hstart : edit.start = d.start)
    (hlen : edit.deletedLen = d.deleted.length) (hins : d.inserted = edit.insertedText.val.bytes) :
    Ensures (applyEditToSnapshot snapshot edit) fun s =>
      s.text.Inv ∧ s.text.text = Splice.apply snapshot.text.text d := by
  have hrange : normalizedReplaceRange snapshot.text edit
      = (d.start, d.start + d.deleted.length) := by
    obtain ⟨hclamp, hclamp'⟩ := clampRange_eq h hfits
    rw [normalizedReplaceRange]
    simp only [hstart, hlen, hclamp, hclamp']
  rw [applyEditToSnapshot, hrange]
  exact (replaceRangeShared_ensures h hfits hins).bind fun result hres => .pure hres

/-! ### Deltas -/

open UndoDelta

/-- The splice of a delta. -/
def UndoDelta.splice (delta : UndoDelta) : Splice :=
  ⟨delta.start, delta.deletedText.text, delta.insertedText.val.bytes⟩

/-- The splice that is done when a delta is applied. -/
def UndoDelta.directed (delta : UndoDelta) (reverse : Bool) : Splice :=
  if reverse then delta.splice.inverse else delta.splice

variable {delta : UndoDelta}

/-- A delta that fits is applied as its splice. -/
lemma applyDeltaToSnapshot_spec {reverse : Bool}
    (h : snapshot.text.Inv) (hdel : delta.deletedText.Inv)
    (hfits : Splice.Fits snapshot.text.text (delta.directed reverse)) :
    Ensures (applyDeltaToSnapshot snapshot delta reverse) fun s =>
      s.text.Inv ∧ s.text.text = Splice.apply snapshot.text.text (delta.directed reverse) := by
  obtain ⟨hclamp, hclamp'⟩ := clampRange_eq h hfits
  cases reverse with
  | true =>
    rw [applyDeltaToSnapshot]
    have hlen : delta.insertedText.val.len = (delta.directed true).deleted.length := rfl
    have hstart : delta.start = (delta.directed true).start := rfl
    simp only [if_true, hlen, hstart, hclamp, hclamp']
    exact replaceRangeChunked_ensures h hfits hdel rfl
  | false =>
    rw [applyDeltaToSnapshot]
    have hlen : delta.deletedText.len = (delta.directed false).deleted.length := hdel.len_eq
    have hstart : delta.start = (delta.directed false).start := rfl
    simp only [Bool.false_eq_true, if_false, hlen, hstart, hclamp, hclamp']
    exact replaceRangeShared_ensures h hfits rfl

lemma applyDeltaToSnapshot_forward (h : snapshot.text.Inv) (hdel : delta.deletedText.Inv)
    (hfits : splices.Fits snapshot.text.text delta.splice) :
    Ensures (applyDeltaToSnapshot snapshot delta false) fun s =>
      s.text.Inv ∧ s.text.text = splices.apply snapshot.text.text delta.splice :=
  applyDeltaToSnapshot_spec h hdel hfits

/-- A delta that was applied is taken back. -/
lemma applyDeltaToSnapshot_back
    {before : List UInt8} (h : snapshot.text.Inv) (hdel : delta.deletedText.Inv)
    (hfits : splices.Fits before delta.splice)
    (happly : splices.apply before delta.splice = snapshot.text.text) :
    Ensures (applyDeltaToSnapshot snapshot delta true) fun s =>
      s.text.Inv ∧ s.text.text = before := by
  obtain ⟨hfits', hinverse⟩ := Splice.Fits.inverse hfits
  refine (applyDeltaToSnapshot_spec h hdel ?_).mono fun s hs => ⟨hs.1, hs.2.trans ?_⟩
  · rw [← happly]
    exact hfits'
  · rw [← happly]
    exact hinverse

/-! ### The log of a state -/

/-- The deltas up to the index lead from the anchor to the current text, and the sizes of
the deltas are counted. -/
structure Recorded (anchor current : ChunkedText) (deltas : List UndoDelta) (total index : ℕ) :
    Prop where
  anchorInv : anchor.Inv
  currentInv : current.Inv
  deletedInv : ∀ delta ∈ deltas, delta.deletedText.Inv
  log : splices.Holds anchor.text (deltas.map splice) index current.text
  total_eq : total = (deltas.map size).sum

namespace WordUndoRedoState

variable {s s' : WordUndoRedoState}

/-- The log of a state accounts for its text. -/
def Logged (s : WordUndoRedoState) : Prop :=
  Recorded s.anchor.text s.current.text s.deltas s.historyTotalBytes s.index

/-- The log accounts for the text, and nothing is undone. -/
def LoggedAtEnd (s : WordUndoRedoState) : Prop := s.Logged ∧ s.index = s.deltas.length

def groupIds (s : WordUndoRedoState) : List ℕ := s.deltas.map groupId

/-- The invariant: between two calls, no group is half undone. -/
def Inv (s : WordUndoRedoState) : Prop := s.Logged ∧ BetweenGroups s.groupIds s.index

lemma Logged.index_le (h : s.Logged) : s.index ≤ s.deltas.length := by
  have hle := h.log.le
  rwa [length_map] at hle

lemma LoggedAtEnd.inv (h : s.LoggedAtEnd) : s.Inv := by
  refine ⟨h.1, ?_⟩
  have hlen : s.index = s.groupIds.length := by rw [h.2, groupIds, length_map]
  rw [hlen]
  exact betweenGroups_length

/-- Only the cursor is changed when the index is in range. -/
lemma Logged.normalizeIndex_eq (h : s.Logged) : s.normalizeIndex =
    { s with current := { s.current with
        cursorPos := clampChunkedBoundary s.current.text s.current.cursorPos } } := by
  rw [normalizeIndex, if_neg (not_lt.2 h.index_le)]

lemma Inv.normalizeIndex (h : s.Inv) : s.normalizeIndex.Inv := by
  rw [h.1.normalizeIndex_eq]
  exact h

lemma Inv.beginCall (h : s.Inv) : s.beginCall.Inv := h.normalizeIndex

lemma Logged.truncateRedoHistory (h : s.Logged) :
    s.truncateRedoHistory.LoggedAtEnd ∧ s.truncateRedoHistory.current = s.current := by
  rw [WordUndoRedoState.truncateRedoHistory]
  split_ifs with hle
  · exact ⟨⟨h, le_antisymm h.index_le hle⟩, rfl⟩
  · refine ⟨⟨⟨h.anchorInv, h.currentInv, fun d hd => h.deletedInv d (mem_of_mem_take hd),
      ?_, ?_⟩, ?_⟩, rfl⟩
    · rw [map_take]
      exact h.log.truncate
    · have hsum : s.historyTotalBytes = ((s.deltas.take s.index).map size).sum
          + ((s.deltas.drop s.index).map size).sum := by
        rw [← sum_append, ← map_append, take_append_drop]
        exact h.total_eq
      exact Nat.sub_eq_of_eq_add hsum
    · exact (length_take_of_le h.index_le).symm

variable {deltas : List UndoDelta}

/-- An evicted delta is applied to the anchor. -/
lemma trimLoop_spec (byteLimit : ℕ) (hdeltas : s.deltas = deltas) (h : s.LoggedAtEnd) :
    Ensures (trimLoop byteLimit deltas s) fun s' => s'.LoggedAtEnd ∧ s'.current = s.current := by
  induction deltas generalizing s with
  | nil => exact .pure ⟨h, rfl⟩
  | cons removed rest ih =>
    obtain ⟨hlog, hidx⟩ := h
    rw [hdeltas, length_cons] at hidx
    rw [trimLoop]
    split_ifs with hfull
    · have hholds := hlog.log
      rw [hdeltas, hidx] at hholds
      have hdel := hlog.deletedInv
      rw [hdeltas, forall_mem_cons] at hdel
      have htotal := hlog.total_eq
      rw [hdeltas] at htotal
      have hpos : 0 < s.index := by omega
      obtain ⟨hfits, hholds⟩ := hholds.evict
      rw [if_pos hpos]
      refine (applyDeltaToSnapshot_forward hlog.anchorInv hdel.1 hfits).bind
        fun anchor ⟨hinv, htext⟩ => ?_
      refine ih rfl ⟨⟨hinv, hlog.currentInv, hdel.2, ?_, ?_⟩, ?_⟩
      · rw [htext, hidx]
        exact hholds
      · exact Nat.sub_eq_of_eq_add (htotal.trans (add_comm _ _))
      · dsimp only
        omega
    · refine .pure ⟨⟨hlog, ?_⟩, rfl⟩
      rw [hidx, hdeltas, length_cons]

lemma trimHistoryIfNeeded_spec (h : s.LoggedAtEnd) :
    Ensures s.trimHistoryIfNeeded fun s' => s'.LoggedAtEnd ∧ s'.current = s.current := by
  refine (trimLoop_spec _ rfl h).bind fun s' ⟨h', hcur⟩ => .pure ?_
  rw [if_neg (not_lt.2 h'.1.index_le)]
  split_ifs
  · exact ⟨h', hcur⟩
  · exact ⟨h', hcur⟩

/-! ### Recording -/

/-- A delta that was done is pushed. -/
lemma LoggedAtEnd.push (h : s.LoggedAtEnd) {current : ChunkedText}
    (hdel : delta.deletedText.Inv) (hfits : splices.Fits s.current.text.text delta.splice)
    (hinv : current.Inv) (htext : current.text = splices.apply s.current.text.text delta.splice) :
    Recorded s.anchor.text current (s.deltas ++ [delta]) (s.historyTotalBytes + delta.size)
      (s.deltas.length + 1) := by
  obtain ⟨hlog, hidx⟩ := h
  refine ⟨hlog.anchorInv, hinv, ?_, ?_, ?_⟩
  · rw [forall_mem_append, forall_mem_singleton]
    exact ⟨hlog.deletedInv, hdel⟩
  · have hholds := hlog.log
    rw [hidx, ← length_map splice] at hholds
    have happ := hholds.append hfits
    rw [htext, map_append]
    rwa [length_append, length_map] at happ
  · rw [hlog.total_eq]
    simp

lemma pushEdit_spec {s : WordUndoRedoState} {activeGroup : Option (EditGroup × ℕ)}
    (h : Recorded s.anchor.text s.current.text (s.deltas ++ [delta])
      (s.historyTotalBytes + delta.size) (s.deltas.length + 1)) :
    Ensures (s.pushEdit delta activeGroup) fun r => r.2.LoggedAtEnd := by
  refine (trimHistoryIfNeeded_spec ?_).bind fun s' h' => .pure h'.1
  exact ⟨h, by simp⟩

open UndoDelta (splice)

/-- A cursor move is pushed as the empty splice, which leaves the text as it is. -/
lemma pushCursorMove_spec (h : s.LoggedAtEnd) (currentCursor : ℕ) {nextCursor : ℕ}
    (hnext : Utf8.isCharBoundary s.current.text.text nextCursor) :
    Ensures (s.pushCursorMove currentCursor nextCursor) fun s' =>
      s'.LoggedAtEnd ∧ s'.current.text.text = s.current.text.text := by
  obtain ⟨hfits, happly⟩ := Splice.fits_nil (valid_textOf s.current.text.chunks) hnext
  refine Ensures.bind (P := fun a => a.val = Str.empty) (fun _ => rfl) fun inserted hins => ?_
  generalize hdelta : UndoDelta.mk _ _ _ _ _ _ = delta
  have hdel : delta.deletedText = .default := by rw [← hdelta]
  have hsplice : delta.splice = ⟨nextCursor, [], []⟩ := by
    rw [← hdelta, splice, hins]
    rfl
  have hsize : delta.size = 0 := by
    rw [← hdelta, size, hins]
    rfl
  rw [← hsplice] at hfits happly
  have hinv : delta.deletedText.Inv := hdel ▸ default_inv
  refine (applyDeltaToSnapshot_forward h.1.currentInv hinv hfits).bind
    fun current ⟨hcur, htext⟩ => ?_
  have hpush := h.push hinv hfits hcur htext
  rw [hsize] at hpush
  refine (trimHistoryIfNeeded_spec ?_).mono fun s' ⟨h', heq⟩ => ⟨h', ?_⟩
  · exact ⟨hpush, by simp⟩
  · rw [heq]
    exact htext.trans happly

lemma isCharBoundary_clamp (h : t.Inv) (position : ℕ) :
    Utf8.isCharBoundary t.text (clampChunkedBoundary t position) := by
  rw [clampChunkedBoundary, h.clampBoundary_eq]
  exact isCharBoundary_floorBoundary _ _

lemma recordCursorMoveIfRemote_spec (h : s.LoggedAtEnd) (replaceStart : ℕ) (mergeGroup : Bool)
    (editGroup : EditGroup) :
    Ensures (s.recordCursorMoveIfRemote replaceStart mergeGroup editGroup) fun s' =>
      s'.LoggedAtEnd ∧ s'.current.text.text = s.current.text.text := by
  have h' : LoggedAtEnd { s with suppressNextRemoteCursorMove := false } := h
  rw [recordCursorMoveIfRemote]
  split_ifs
  · exact .pure ⟨h', rfl⟩
  · exact .pure ⟨h', rfl⟩
  · dsimp only
    split_ifs
    · exact .pure ⟨h', rfl⟩
    · exact pushCursorMove_spec h' _ (isCharBoundary_clamp h'.1.currentInv _)

lemma recordCursorMoveToIfRemote_inv (h : s.Inv) (cursorPos : ℕ) :
    Ensures (s.recordCursorMoveToIfRemote cursorPos) Inv := by
  have h' := h.normalizeIndex
  rw [recordCursorMoveToIfRemote]
  split_ifs
  · exact .pure h'
  · obtain ⟨hend, hcur⟩ := h'.1.truncateRedoHistory
    refine (pushCursorMove_spec hend _ ?_).mono fun s'' hs => hs.1.inv
    rw [hcur]
    exact isCharBoundary_clamp h'.1.currentInv _

lemma LoggedAtEnd.editGroupId (h : s.LoggedAtEnd) (mergeGroup : Bool) :
    (s.editGroupId mergeGroup).2.LoggedAtEnd ∧
      (s.editGroupId mergeGroup).2.current = s.current := by
  unfold WordUndoRedoState.editGroupId
  split
  · exact ⟨h, rfl⟩
  · exact ⟨h, rfl⟩

/-- An edit is done and its delta pushed; where the cursor is put does not matter. -/
lemma applyEdit_pushEdit (h : s.LoggedAtEnd)
    (hfits : Splice.Fits s.current.text.text d) (hstart : edit.start = d.start)
    (hlen : edit.deletedLen = d.deleted.length)
    (hins : d.inserted = edit.insertedText.val.bytes) {deleted : ChunkedText}
    (hdel : deleted.Inv) (htext : deleted.text = d.deleted) {before groupId : ℕ}
    {after : UndoSnapshot → ℕ} {activeGroup : Option (EditGroup × ℕ)} :
    Ensures (do
      let current ← applyEditToSnapshot s.current edit
      pushEdit { s with current := ⟨current.text, after current⟩ }
        ⟨edit.start, deleted, edit.insertedText, before, after current, groupId⟩ activeGroup)
      fun r => r.2.Inv := by
  refine (applyEditToSnapshot_spec h.1.currentInv hfits hstart hlen hins).bind
    fun current ⟨hinv, hcur⟩ => ?_
  generalize hdelta : UndoDelta.mk _ _ _ _ _ _ = delta
  have hsplice : delta.splice = d := by
    rw [← hdelta, splice, hstart, htext, ← hins]
  have hdel' : delta.deletedText.Inv := by
    rw [← hdelta]
    exact hdel
  rw [← hsplice] at hfits hcur
  refine (pushEdit_spec ?_).mono fun _ hr => hr.inv
  exact h.push hdel' hfits hinv hcur

variable (isAlphanumeric : Char → Bool)

lemma recordNormalizedEdit_inv (h : s.Logged)
    (hfits : Splice.Fits s.current.text.text d) (hstart : edit.start = d.start)
    (hlen : edit.deletedLen = d.deleted.length)
    (hins : d.inserted = edit.insertedText.val.bytes) {deleted : ChunkedText}
    (hdel : deleted.Inv) (htext : deleted.text = d.deleted) (editGroup : EditGroup) :
    Ensures (s.recordNormalizedEdit isAlphanumeric edit deleted editGroup) fun r => r.2.Inv := by
  obtain ⟨hend, hcur⟩ := h.truncateRedoHistory
  rw [recordNormalizedEdit]
  rw [← hcur] at hfits
  generalize s.truncateRedoHistory = s₁ at hend hfits ⊢
  have hend' : LoggedAtEnd { s₁ with finishGroupAfterNextEdit := false } := hend
  refine (recordCursorMoveIfRemote_spec hend' _ _ _).bind fun s₂ ⟨h₂, htext₂⟩ => ?_
  rw [← htext₂] at hfits
  obtain ⟨h₃, hcurrent₃⟩ := h₂.editGroupId (shouldMergeIntoActiveGroup
    { s₁ with finishGroupAfterNextEdit := false } isAlphanumeric editGroup edit)
  rw [← hcurrent₃] at hfits
  generalize s₂.editGroupId _ = r at h₃ hfits ⊢
  obtain ⟨groupId, s₃⟩ := r
  split_ifs
  · have h₄ : LoggedAtEnd { s₃ with completionEditGroupId := some groupId } := h₃
    exact applyEdit_pushEdit h₄ hfits hstart hlen hins hdel htext
  · exact applyEdit_pushEdit h₃ hfits hstart hlen hins hdel htext

lemma recordEdit_inv (h : s.Inv) (edit : BufferEdit) (editGroup : EditGroup) :
    Ensures (s.recordEdit isAlphanumeric edit editGroup) fun r => r.2.Inv := by
  have h' := h.beginCall
  rw [recordEdit]
  obtain ⟨d, hrange, hins, hfits, deleted, hslice, hdel, htext⟩ :=
    normalizedReplaceRange_spec h'.1.currentInv edit
  rw [hrange]
  dsimp only
  rw [hslice]
  split_ifs
  · exact .pure h'
  · refine recordNormalizedEdit_inv isAlphanumeric h'.1 hfits rfl ?_ ?_ hdel htext editGroup
    · exact Nat.add_sub_cancel_left _ _
    · exact hins

lemma recordProgrammaticEdit_inv (h : s.Inv) (edit : BufferEdit) (beforeCursor afterCursor : ℕ) :
    Ensures (s.recordProgrammaticEdit edit beforeCursor afterCursor) fun r => r.2.Inv := by
  obtain ⟨hend, -⟩ := h.beginCall.1.truncateRedoHistory
  rw [recordProgrammaticEdit]
  generalize s.beginCall.truncateRedoHistory = s₁ at hend ⊢
  obtain ⟨d, hrange, hins, hfits, deleted, hslice, hdel, htext⟩ :=
    normalizedReplaceRange_spec hend.1.currentInv edit
  rw [hrange]
  dsimp only
  rw [hslice]
  have hid : s₁.takeGroupId.2.LoggedAtEnd := hend
  refine applyEdit_pushEdit hid hfits rfl ?_ ?_ hdel htext
  · exact Nat.add_sub_cancel_left _ _
  · exact hins

lemma recordFullBufferProgrammaticReplace_inv (h : s.Inv) (insertedText : Arc Str)
    (beforeCursor afterCursor : ℕ) :
    Ensures (s.recordFullBufferProgrammaticReplace insertedText beforeCursor afterCursor)
      fun r => r.2.Inv := by
  obtain ⟨hend, -⟩ := h.beginCall.1.truncateRedoHistory
  rw [recordFullBufferProgrammaticReplace]
  generalize s.beginCall.truncateRedoHistory = s₁ at hend ⊢
  refine (fromSharedString_ensures insertedText).bind fun text ⟨hinv, htext⟩ => ?_
  dsimp only [takeGroupId]
  generalize hdelta : UndoDelta.mk _ _ _ _ _ _ = delta
  have hsplice : delta.splice = ⟨0, s₁.current.text.text, insertedText.val.bytes⟩ := by
    rw [← hdelta]
    rfl
  have hdel : delta.deletedText.Inv := by
    rw [← hdelta]
    exact hend.1.currentInv
  have hfits : splices.Fits s₁.current.text.text delta.splice := by
    rw [hsplice]
    exact ⟨[], [], by simp, rfl, valid_nil, valid_nil, valid_textOf _, insertedText.val.valid⟩
  have happly : text.text = splices.apply s₁.current.text.text delta.splice := by
    rw [hsplice, htext]
    simp [splices, Splice.apply]
  refine (pushEdit_spec ?_).mono fun _ hr => hr.inv
  exact hend.push hdel hfits hinv happly

/-! ### Completions -/

/-- What a change of the last element keeps is kept of the whole list. -/
lemma map_modifyLast {α β : Type} {f : α → α} {g : α → β} (h : ∀ a, g (f a) = g a)
    (as : List α) : (as.modifyLast f).map g = as.map g := by
  obtain rfl | ⟨as, a, rfl⟩ := as.eq_nil_or_concat'
  · rfl
  · rw [modifyLast_concat, map_append, map_append, map_singleton, map_singleton, h]

/-- A completion moves the cursor behind the last delta, which is not part of the log. -/
lemma finishCompletionEditCursor_inv (h : s.Inv) (cursorPos : ℕ) (changedText : Bool) :
    (s.finishCompletionEditCursor cursorPos changedText).Inv := by
  rw [finishCompletionEditCursor]
  split_ifs
  · have hmap : ∀ {β : Type} (g : UndoDelta → β) (cursor : ℕ),
        (∀ delta : UndoDelta, g { delta with afterCursor := cursor } = g delta) →
        (s.deltas.modifyLast fun delta =>
          if some delta.groupId = s.completionEditGroupId then { delta with afterCursor := cursor }
          else delta).map g = s.deltas.map g := by
      intro β g cursor hg
      refine map_modifyLast (fun delta => ?_) s.deltas
      split_ifs
      · exact hg delta
      · rfl
    obtain ⟨hlog, hbetween⟩ := h
    refine ⟨⟨hlog.anchorInv, hlog.currentInv, ?_, ?_, ?_⟩, ?_⟩
    · have hdel := forall_mem_map.2 hlog.deletedInv
      rw [← hmap UndoDelta.deletedText _ fun _ => rfl] at hdel
      exact forall_mem_map.1 hdel
    · rw [hmap splice _ fun _ => rfl]
      exact hlog.log
    · rw [hmap size _ fun _ => rfl]
      exact hlog.total_eq
    · rw [groupIds]
      rw [hmap groupId _ fun _ => rfl]
      exact hbetween
  · exact h

/-! ### Undo and redo -/

/-- A group of deltas, in the order in which they are applied, leads from one text to another. -/
structure Leads (reverse : Bool) (before : List UInt8) (group : List UndoDelta)
    (after : List UInt8) : Prop where
  deletedInv : ∀ delta ∈ group, delta.deletedText.Inv
  consistent : splices.Consistent before (group.map (·.directed reverse))
  replay : splices.replay before (group.map (·.directed reverse)) = after

lemma Leads.nil (reverse : Bool) (before : List UInt8) : Leads reverse before [] before :=
  ⟨nofun, trivial, rfl⟩

variable {before : List UInt8} {group : List UndoDelta}

lemma Leads.concat {reverse : Bool} {after after' : List UInt8}
    (h : Leads reverse before group after) (hdel : delta.deletedText.Inv)
    (hfits : Splice.Fits after (delta.directed reverse))
    (hafter : after' = Splice.apply after (delta.directed reverse)) :
    Leads reverse before (group ++ [delta]) after' := by
  refine ⟨fun d hd => ?_, ?_, ?_⟩
  · obtain hd | hd := mem_append.1 hd
    · exact h.deletedInv d hd
    · rwa [mem_singleton.1 hd]
  · rw [map_append, Edits.consistent_append, h.replay]
    exact ⟨h.consistent, hfits, trivial⟩
  · rw [map_append, map_singleton, Edits.replay_concat, h.replay, hafter]
    rfl

/-- The log is that of another state, with another index. -/
structure SameLog (s s' : WordUndoRedoState) : Prop where
  deltas : s'.deltas = s.deltas
  anchor : s'.anchor = s.anchor

lemma SameLog.groupIds (h : s.SameLog s') : s'.groupIds = s.groupIds := by
  rw [WordUndoRedoState.groupIds, h.deltas, WordUndoRedoState.groupIds]

lemma SameLog.trans {s'' : WordUndoRedoState} (h : s.SameLog s') (h' : s'.SameLog s'') :
    s.SameLog s'' := ⟨h'.deltas.trans h.deltas, h'.anchor.trans h.anchor⟩

lemma exists_delta {i : ℕ} (h : i < s.deltas.length) :
    ∃ delta, s.deltas[i]? = some delta ∧ s.groupIds[i]? = some delta.groupId := by
  refine ⟨_, getElem?_eq_getElem h, ?_⟩
  rw [groupIds, getElem?_map, getElem?_eq_getElem h]
  rfl

lemma undoLoop_spec (target : ℕ) {index : ℕ}
    (h : s.Logged) (hidx : s.index = index) (hgroup : Leads true before group s.current.text.text) :
    Ensures (undoLoop target index s group) fun r => r.2.Logged ∧ r.2.deltas = s.deltas ∧
      r.2.anchor = s.anchor ∧ r.2.index = groupStart s.groupIds target index ∧
      r.1.length + r.2.index = group.length + index ∧
      Leads true before r.1 r.2.current.text.text := by
  induction index generalizing s group with
  | zero => exact .pure ⟨h, rfl, rfl, hidx, by rw [hidx], hgroup⟩
  | succ index ih =>
    have hlt : index < s.deltas.length := by
      have := h.index_le
      omega
    obtain ⟨delta, hget, hid⟩ := exists_delta hlt
    have hsplice : (s.deltas.map splice)[index]? = some delta.splice := by
      rw [getElem?_map, hget]
      rfl
    rw [undoLoop, groupStart, hid, hget]
    dsimp only
    by_cases hid' : delta.groupId = target
    · have hholds := h.log
      rw [hidx] at hholds
      obtain ⟨hfits, happly, hback⟩ := hholds.back hsplice
      have hdel := h.deletedInv delta (mem_of_getElem? hget)
      rw [if_neg (not_not.2 hid'), if_pos (congrArg some hid')]
      refine (applyDeltaToSnapshot_back h.currentInv hdel hfits happly).bind
        fun current hcur => ?_
      obtain ⟨hinv, htext⟩ := hcur
      have h' : Logged { s with index := index, current := current } :=
        ⟨h.anchorInv, hinv, h.deletedInv, htext ▸ hback, h.total_eq⟩
      have hfits' : Splice.Fits s.current.text.text (delta.directed true) := by
        rw [← happly]
        exact hfits.inverse.1
      have hlead := hgroup.concat hdel hfits' htext
      refine (ih h' rfl hlead).mono fun r hr => ?_
      obtain ⟨hr, hd, ha, hi, hl, hlead⟩ := hr
      refine ⟨hr, hd, ha, hi, ?_, hlead⟩
      rw [hl, length_append, length_singleton]
      omega
    · rw [if_pos hid', if_neg fun heq => hid' (Option.some.inj heq)]
      exact .pure ⟨h, rfl, rfl, hidx, by rw [hidx], hgroup⟩

lemma redoLoop_spec (target : ℕ) {rest : List UndoDelta}
    (h : s.Logged) (hrest : s.deltas.drop s.index = rest)
    (hgroup : Leads false before group s.current.text.text) :
    Ensures (redoLoop target rest s group) fun r => r.2.Logged ∧ r.2.deltas = s.deltas ∧
      r.2.anchor = s.anchor ∧ r.2.index = groupStop s.groupIds target s.index ∧
      Leads false before r.1 r.2.current.text.text := by
  have hid : s.groupIds[s.index]? = rest.head?.map groupId := by
    rw [groupIds, getElem?_map, ← hrest, head?_drop]
  induction rest generalizing s group with
  | nil =>
    refine .pure ⟨h, rfl, rfl, ?_, hgroup⟩
    rw [groupStop_of_ne]
    rw [hid]
    exact nofun
  | cons delta rest ih =>
    rw [redoLoop]
    by_cases hid' : delta.groupId = target
    · have hget : s.deltas[s.index]? = some delta := by
        rw [← head?_drop, hrest]
        rfl
      have hsplice : (s.deltas.map splice)[s.index]? = some delta.splice := by
        rw [getElem?_map, hget]
        rfl
      obtain ⟨hfits, hforward⟩ := h.log.forward hsplice
      have hdel := h.deletedInv delta (mem_of_getElem? hget)
      rw [if_neg (not_not.2 hid')]
      refine (applyDeltaToSnapshot_forward h.currentInv hdel hfits).bind
        fun current ⟨hinv, htext⟩ => ?_
      have h' : Logged { s with index := s.index + 1, current := current } :=
        ⟨h.anchorInv, hinv, h.deletedInv, htext ▸ hforward, h.total_eq⟩
      have hrest' : s.deltas.drop (s.index + 1) = rest := by
        rw [← tail_drop, hrest]
        rfl
      rw [groupStop_of_eq (hid.trans (congrArg some hid'))]
      refine ih h' hrest' (hgroup.concat hdel hfits htext) ?_
      rw [groupIds, getElem?_map, ← hrest', head?_drop]
    · rw [if_pos hid']
      refine .pure ⟨h, rfl, rfl, ?_, hgroup⟩
      rw [groupStop_of_ne]
      rw [hid]
      exact fun heq => hid' (Option.some.inj heq)

lemma Inv.beginCall_spec (h : s.Inv) : ∃ s', s.beginCall = s' ∧ s'.Inv ∧ s.SameLog s' ∧
    s'.index = s.index ∧ s'.current.text = s.current.text := by
  refine ⟨_, rfl, h.beginCall, ?_⟩
  rw [WordUndoRedoState.beginCall, h.1.normalizeIndex_eq]
  exact ⟨⟨rfl, rfl⟩, rfl, rfl⟩

/-- With the same log, the index determines the text. -/
lemma Logged.text_eq (h : s.Logged) (h' : s'.Logged) (hsame : s.SameLog s')
    (hidx : s'.index = s.index) : s'.current.text.text = s.current.text.text := by
  have hreplay := h'.log.replay_eq
  rw [hsame.deltas, hsame.anchor, hidx, h.log.replay_eq] at hreplay
  exact hreplay.symm

lemma finishGroup_core (group : List UndoDelta) (h : s'.Logged) (hsame : s.SameLog s') :
    (s'.finishGroup group).Logged ∧ s.SameLog (s'.finishGroup group) ∧
      (s'.finishGroup group).index = s'.index ∧ (s'.finishGroup group).current = s'.current := by
  by_cases hnil : group = []
  · rw [finishGroup, if_pos hnil]
    exact ⟨h, hsame, rfl, rfl⟩
  · rw [finishGroup, if_neg hnil]
    exact ⟨h, ⟨hsame.deltas, hsame.anchor⟩, rfl, rfl⟩

/-- An undo with nothing left changes no text; every other one goes back to the start of
the last group. -/
lemma takeUndoGroup_spec (h : s.Inv) : Ensures s.takeUndoGroup fun r => r.2.Inv ∧ s.SameLog r.2 ∧
      (s.index = 0 ∧ r.1 = [] ∧ r.2.index = 0 ∨
        ∃ target, s.groupIds[s.index - 1]? = some target ∧ r.1 ≠ [] ∧
          r.2.index = groupStart s.groupIds target s.index ∧ r.2.index < s.index) ∧
      Leads true s.current.text.text r.1 r.2.current.text.text := by
  obtain ⟨s₁, hs₁, h₁, hsame, hidx, htext⟩ := h.beginCall_spec
  rw [takeUndoGroup, hs₁, ← htext, ← hsame.groupIds, ← hidx]
  split_ifs with hzero
  · exact .pure ⟨h₁, hsame, .inl ⟨hzero, rfl, hzero⟩, .nil _ _⟩
  · obtain ⟨index, hsucc⟩ := Nat.exists_eq_succ_of_ne_zero hzero
    have hlt : index < s₁.deltas.length := by
      have := h₁.1.index_le
      omega
    obtain ⟨delta, hget, hid⟩ := exists_delta hlt
    rw [hsucc, Nat.succ_eq_add_one, Nat.add_sub_cancel, hget]
    refine (undoLoop_spec delta.groupId h₁.1 hsucc (.nil _ _)).bind
      fun r hspec => .pure ?_
    obtain ⟨hlog, hdeltas, hanchor, hr, hlen, hlead⟩ := hspec
    obtain ⟨hlog', hsame', hr', hcur⟩ := finishGroup_core r.1 hlog ⟨hdeltas, hanchor⟩
    have hstart : groupStart s₁.groupIds delta.groupId (index + 1) < index + 1 := by
      rw [groupStart, if_pos hid]
      exact Nat.lt_succ_of_le (groupStart_le index)
    refine ⟨⟨hlog', ?_⟩, hsame.trans hsame', .inr ⟨delta.groupId, hid, ?_, hr'.trans hr, ?_⟩,
      hcur ▸ hlead⟩
    · rw [hr', hr, hsame'.groupIds]
      exact (betweenGroups_groupStart hid).1
    · intro hnil
      rw [hnil, hr, Nat.succ_eq_add_one] at hlen
      omega
    · rw [hr', hr]
      exact hstart

/-- A redo with nothing left changes no text; every other one goes on to the end of the
next group. -/
lemma takeRedoGroup_spec (h : s.Inv) : Ensures s.takeRedoGroup fun r => r.2.Inv ∧ s.SameLog r.2 ∧
      (∀ target, s.groupIds[s.index]? = some target →
        r.2.index = groupStop s.groupIds target s.index) ∧
      Leads false s.current.text.text r.1 r.2.current.text.text := by
  obtain ⟨s₁, hs₁, h₁, hsame, hidx, htext⟩ := h.beginCall_spec
  rw [takeRedoGroup, hs₁, ← htext, ← hsame.groupIds, ← hidx]
  split_ifs with hle
  · refine .pure ⟨h₁, hsame, fun target htarget => ?_, .nil _ _⟩
    rw [groupIds, getElem?_map, getElem?_eq_none hle] at htarget
    cases htarget
  · obtain ⟨delta, hget, hid⟩ := exists_delta (Nat.lt_of_not_le hle)
    rw [hget]
    refine (redoLoop_spec delta.groupId h₁.1 rfl (.nil _ _)).bind
      fun r ⟨hlog, hdeltas, hanchor, hr, hlead⟩ => .pure ?_
    obtain ⟨hlog', hsame', hr', hcur⟩ := finishGroup_core r.1 hlog ⟨hdeltas, hanchor⟩
    refine ⟨⟨hlog', ?_⟩, hsame.trans hsame', ?_, hcur ▸ hlead⟩
    · rw [hr', hr, hsame'.groupIds]
      exact betweenGroups_groupStop hid
    · intro target htarget
      rw [hid, Option.some.injEq] at htarget
      rw [hr', hr, htarget]

/-! ### Runs -/

/-- Every call keeps the invariant. -/
lemma call_inv (h : s.Inv) (c : HistoryCall) : Ensures (s.call isAlphanumeric c) Inv := by
  cases c with
  | recordEdit edit editGroup =>
    exact (recordEdit_inv isAlphanumeric h edit editGroup).bind fun r hr => .pure hr
  | recordProgrammaticEdit edit beforeCursor afterCursor =>
    exact (recordProgrammaticEdit_inv h edit beforeCursor afterCursor).bind
      fun r hr => .pure hr
  | recordFullBufferProgrammaticReplace insertedText beforeCursor afterCursor =>
    exact (recordFullBufferProgrammaticReplace_inv h insertedText beforeCursor afterCursor).bind
      fun r hr => .pure hr
  | recordCursorMoveToIfRemote cursorPos => exact recordCursorMoveToIfRemote_inv h cursorPos
  | syncCurrentCursor cursorPos | finishActiveGroup | prepareCompletionEdit => exact .pure h
  | finishCompletionEditCursor cursorPos changedText =>
    exact .pure (finishCompletionEditCursor_inv h cursorPos changedText)
  | takeUndoGroup => exact (takeUndoGroup_spec h).bind fun r hr => .pure hr.1
  | takeRedoGroup => exact (takeRedoGroup_spec h).bind fun r hr => .pure hr.1
  | historyApplied => exact .pure h

lemma new_inv (initialText : Str) : Ensures (new initialText) Inv := by
  refine Ensures.bind (P := fun snapshot => snapshot.text.Inv) ?_ fun snapshot hsnap => ?_
  · exact (fromString_ensures initialText).bind fun text htext => .pure htext.1
  · exact .pure ⟨⟨hsnap, hsnap, nofun, ⟨trivial, le_rfl, rfl⟩, rfl⟩, .inl rfl⟩

lemma run_inv (initialText : Str) (calls : List HistoryCall) :
    Ensures (run isAlphanumeric initialText calls) Inv :=
  (new_inv initialText).bind fun _ h =>
    .foldlM (fun _ c hs => call_inv isAlphanumeric hs c) h calls

/-- The deltas up to the index, applied to the anchor as the history applies them. -/
def replayDeltas (s : WordUndoRedoState) : Alloc UndoSnapshot :=
  (s.deltas.take s.index).foldlM (fun snapshot delta => applyDeltaToSnapshot snapshot delta false)
    s.anchor

/-- Undo the given number of times. -/
def undoTimes : ℕ → WordUndoRedoState → Alloc WordUndoRedoState
  | 0, s => return s
  | n + 1, s => do undoTimes n (← s.takeUndoGroup).2

/-- What a history is good for. -/
structure Sound (s : WordUndoRedoState) : Prop where
  index_le : s.index ≤ s.deltas.length
  replay : Ensures s.replayDeltas fun snapshot => snapshot.text.text = s.current.text.text
  total : s.historyTotalBytes = (s.deltas.map size).sum
  undo_redo : Ensures (do
      let (group, s) ← s.takeUndoGroup
      return (group, (← s.takeRedoGroup).2))
    fun r => r.1 ≠ [] → r.2.current.text.text = s.current.text.text
  undo_nil : Ensures s.takeUndoGroup fun r => r.1 = [] → r.2.current.text.text = s.anchor.text.text
  undo_all : ∀ n, s.index ≤ n → Ensures (undoTimes n s) fun s' =>
    s'.index = 0 ∧ s'.current.text.text = s.anchor.text.text

lemma replay_spec {snapshot : UndoSnapshot} (hsnap : snapshot.text.Inv)
    (hdel : ∀ delta ∈ deltas, delta.deletedText.Inv)
    (hlog : splices.Consistent snapshot.text.text (deltas.map splice)) :
    Ensures (deltas.foldlM (fun snapshot delta => applyDeltaToSnapshot snapshot delta false)
      snapshot) fun s =>
        s.text.text = splices.replay snapshot.text.text (deltas.map splice) := by
  induction deltas generalizing snapshot with
  | nil => exact .pure rfl
  | cons delta deltas ih =>
    rw [forall_mem_cons] at hdel
    refine (applyDeltaToSnapshot_forward hsnap hdel.1 hlog.1).bind
      fun next ⟨hinv, htext⟩ => ?_
    rw [map_cons, Edits.replay_cons, ← htext]
    refine ih hinv hdel.2 ?_
    rw [htext]
    exact hlog.2

lemma undoTimes_spec (h : s.Inv) {n : ℕ} (hn : s.index ≤ n) : Ensures (undoTimes n s) fun s' =>
      s'.index = 0 ∧ s'.current.text.text = s.anchor.text.text := by
  induction n generalizing s with
  | zero =>
    have hzero : s.index = 0 := Nat.le_zero.1 hn
    refine .pure ⟨hzero, ?_⟩
    have hlog := h.1.log
    rw [hzero] at hlog
    exact hlog.current_eq
  | succ n ih =>
    refine (takeUndoGroup_spec h).bind fun r ⟨hinv, hsame, hr, _⟩ => ?_
    rw [← hsame.anchor]
    refine ih hinv ?_
    obtain ⟨-, -, hzero⟩ | ⟨-, -, -, -, hlt⟩ := hr
    · omega
    · omega

lemma Inv.sound (h : s.Inv) : s.Sound := by
  constructor
  case index_le => exact h.1.index_le
  case replay =>
    have hlog := h.1.log.truncate.consistent
    rw [← map_take] at hlog
    refine (replay_spec h.1.anchorInv (fun delta hdelta =>
      h.1.deletedInv delta (mem_of_mem_take hdelta)) hlog).mono fun snapshot htext => ?_
    rw [htext, map_take, h.1.log.replay_eq]
  case total => exact h.1.total_eq
  case undo_redo =>
    refine (takeUndoGroup_spec h).bind fun r ⟨hinv, hsame, hr, _⟩ => ?_
    refine (takeRedoGroup_spec hinv).bind fun r' ⟨hinv', hsame', hr', _⟩ => .pure fun hne => ?_
    obtain ⟨-, hnil, -⟩ | ⟨target, htarget, -, hstart, hlt⟩ := hr
    · exact absurd hnil hne
    · -- the redo finds the group that was undone, and it ends where the undo began
      obtain ⟨index, hidx⟩ := Nat.exists_eq_add_one_of_ne_zero (Nat.ne_zero_of_lt hlt)
      rw [hidx, Nat.add_sub_cancel] at htarget
      rw [hidx] at hstart
      have hredo := hr' target
      rw [hsame.groupIds, hstart] at hredo
      have hend : s.groupIds[index + 1]? ≠ some target := by
        obtain hzero | hne := h.2
        · omega
        · rwa [hidx, Nat.add_sub_cancel, htarget] at hne
      have hidx' := hredo (betweenGroups_groupStart htarget).2
      rw [groupStop_groupStart hend, ← hidx] at hidx'
      exact h.1.text_eq hinv'.1 (hsame.trans hsame') hidx'
  case undo_nil =>
    refine (takeUndoGroup_spec h).mono fun r ⟨hinv, hsame, hr, _⟩ hnil => ?_
    obtain ⟨-, -, hzero⟩ | ⟨-, -, hne, -, -⟩ := hr
    · have hlog := hinv.1.log
      rw [hzero] at hlog
      rw [← hsame.anchor]
      exact hlog.current_eq
    · exact absurd hnil hne
  case undo_all => exact fun n hn => undoTimes_spec h hn

/-- In every run the history accounts for the text: the index is in range, the deltas up
to the index lead from the anchor to the current text, and the bytes are counted; an undo
that undoes something is taken back by a redo, and undoing everything leads back to the
anchor. -/
theorem run_sound (isAlphanumeric : Char → Bool) (initialText : Str) (calls : List HistoryCall) :
    Ensures (run isAlphanumeric initialText calls) Sound :=
  (run_inv isAlphanumeric initialText calls).mono fun _ h => h.sound

/-! ### The limit of the history -/

/-- The history is within its limit. -/
def Bounded (s : WordUndoRedoState) : Prop := s.deltas.length ≤ maxWordUndoHistory

lemma trimLoop_bounded (byteLimit : ℕ) (h : s.deltas = deltas) :
    Ensures (trimLoop byteLimit deltas s) Bounded := by
  induction deltas generalizing s with
  | nil => exact .pure (by simp [Bounded, h])
  | cons removed rest ih =>
    rw [trimLoop]
    split_ifs with hlong
    · intro next
      dsimp only
      split_ifs <;> exact ih rfl _
    · refine .pure ?_
      rw [Bounded, maxWordUndoHistory] at *
      omega

lemma trimHistoryIfNeeded_bounded (s : WordUndoRedoState) :
    Ensures s.trimHistoryIfNeeded Bounded := by
  refine (trimLoop_bounded _ rfl).bind fun s h => .pure ?_
  split_ifs <;> exact h

lemma call_bounded (hinv : s.Inv) (h : s.Bounded) (c : HistoryCall) :
    Ensures (s.call isAlphanumeric c) Bounded := by
  have hbegin : s.normalizeIndex.Bounded := by rwa [hinv.1.normalizeIndex_eq]
  have hsame {s'} (hlog : s.SameLog s') : s'.Bounded := by rwa [Bounded, hlog.deltas]
  cases c with
  | recordEdit edit editGroup =>
    refine Ensures.bind (P := fun r => r.2.Bounded) ?_ fun _ => .pure
    rw [recordEdit]
    dsimp only
    split_ifs
    · exact .pure hbegin
    · exact fun _ => trimHistoryIfNeeded_bounded _ _
  | recordProgrammaticEdit | recordFullBufferProgrammaticReplace =>
    exact fun _ => trimHistoryIfNeeded_bounded _ _
  | recordCursorMoveToIfRemote cursorPos =>
    rw [call, recordCursorMoveToIfRemote]
    split_ifs
    · exact .pure hbegin
    · exact fun _ => trimHistoryIfNeeded_bounded _ _
  | finishCompletionEditCursor cursorPos changedText =>
    refine .pure ?_
    rw [finishCompletionEditCursor]
    split_ifs
    · rw [Bounded, ← length_map fun _ => (), map_modifyLast, length_map]
      · exact h
      · exact fun _ => rfl
    · exact h
  | takeUndoGroup => exact (takeUndoGroup_spec hinv).bind fun _ hr => .pure (hsame hr.2.1)
  | takeRedoGroup => exact (takeRedoGroup_spec hinv).bind fun _ hr => .pure (hsame hr.2.1)
  | _ => exact .pure h

/-- In every run the history holds at most `MAX_WORD_UNDO_HISTORY` deltas. -/
theorem run_bounded (initialText : Str) (calls : List HistoryCall) :
    Ensures (run isAlphanumeric initialText calls) Bounded := by
  refine fun next => (Ensures.foldlM (P := fun s => Inv s ∧ Bounded s) (fun _ c hs next => ?_)
    ⟨new_inv initialText next, Nat.zero_le _⟩ calls _).2
  exact ⟨call_inv isAlphanumeric hs.1 c next, call_bounded isAlphanumeric hs.1 hs.2 c next⟩

end WordUndoRedoState

end SpaceQuery.Editor
