import SpaceQuery.Editor.ChunkedTextInvariant

/-!
The line queries of `ChunkedText`, against the line breaks of the flat text.

The tree counts and finds line breaks in the chunks. Where no chunk ends inside a CR LF pair, these
are the breaks of the text of the chunk, and put one behind the other those of the whole text.
-/

namespace SpaceQuery.Editor

open Bool Function Utf8 SequenceNode LineBreaks

open List hiding count

/-! ### The queries -/

namespace SequenceNode

variable {L : Type} [SequenceLeaf L]

def secondaryCountBeforeNode : SequenceNode L → ℕ → ℕ
  | leaf l, position => SequenceLeaf.secondaryCountBefore l (min position (SequenceLeaf.len l))
  | branch left right _ _ _ _, position =>
    if position ≤ left.len then left.secondaryCountBeforeNode position
    else left.secondaryLen + right.secondaryCountBeforeNode (position - left.len)

def nthSecondaryInNode : SequenceNode L → ℕ → ℕ → Option ℕ
  | leaf l, ordinal, nodeStart => (SequenceLeaf.secondaryPosition l ordinal).map (nodeStart + ·)
  | branch left right _ _ _ _, ordinal, nodeStart =>
    if ordinal < left.secondaryLen then left.nthSecondaryInNode ordinal nodeStart
    else right.nthSecondaryInNode (ordinal - left.secondaryLen) (nodeStart + left.len)

end SequenceNode

namespace PersistentSequence

variable {L : Type} [SequenceLeaf L] (s : PersistentSequence L)

def secondaryLen : ℕ := s.root.elim 0 SequenceNode.secondaryLen

def secondaryCountBefore (position : ℕ) : ℕ :=
  s.root.elim 0 fun root => root.secondaryCountBeforeNode (min position root.len)

def nthSecondary (ordinal : ℕ) : Option ℕ :=
  s.root.bind fun root =>
    if root.secondaryLen ≤ ordinal then none else root.nthSecondaryInNode ordinal 0

end PersistentSequence

namespace ChunkedText

variable (t : ChunkedText)

def lineCount : ℕ := if t.isEmpty then 0 else t.tree.secondaryLen + 1

variable (position : ℕ)

def lineIndexForPosition : ℕ := t.tree.secondaryCountBefore (min position t.len)

def nthLineBreak (ordinal : ℕ) : Option ℕ := t.tree.nthSecondary ordinal

def lineStartForIndex (lineIndex : ℕ) : ℕ :=
  if lineIndex = 0 then 0 else ((t.nthLineBreak (lineIndex - 1)).map (· + 1)).getD t.len

def lineStart : ℕ := t.lineStartForIndex (t.lineIndexForPosition position)

def lineEnd : ℕ :=
  (t.nthLineBreak (t.lineIndexForPosition position)).getD t.len

/-- The visitor of `collect_line_ends_in_range`: the ends so far, and where the next part of a
chunk starts. -/
def collectPart (state : List ℕ × ℕ) (visit : TextChunk × ℕ × ℕ) : List ℕ × ℕ :=
  let (chunk, localStart, localEnd) := visit
  let absoluteStart := chunk.start + localStart
  let absoluteEnd := min (chunk.start + localEnd) chunk.stop
  let first := partitionPoint chunk.lineBreaks (· < absoluteStart)
  let last := partitionPoint chunk.lineBreaks (· < absoluteEnd)
  -- `get(first..last)`
  let lineBreaks :=
    if first ≤ last ∧ last ≤ chunk.lineBreaks.length then (chunk.lineBreaks.take last).drop first
    else []
  (state.1 ++ lineBreaks.map fun position => state.2 + (position - absoluteStart) + 1,
    state.2 + (localEnd - localStart))

def collectLineEndsInRange (start stop : ℕ) : List ℕ :=
  let start := min start t.len
  let stop := max (min stop t.len) start
  let output := ((t.tree.visitRange start stop).foldl collectPart ([], start)).1
  if output.getLast?.getD start < stop then output ++ [stop] else output

end ChunkedText

/-! ### The breaks of a chunk -/

namespace TextChunk

variable {c : TextChunk} (h : c.Ok) (hend : c.EndsClean)

include h hend

/-- The breaks that a chunk has are those of its text, if it ends clean. -/
lemma Ok.lineBreaks_eq : c.lineBreaks = (positions c.text).map (c.start + ·) := by
  have hle : c.stop ≤ c.storage.val.bytes.length := h.le
  have hlt := h.lt
  have hsorted := pairwise_positions c.storage.val.bytes
  have hbounds : c.lineBreakStart ≤ c.lineBreakEnd ∧
      c.lineBreakEnd ≤ c.storageLineBreaks.val.length := by
    rw [h.breakStart, h.breakEnd, h.breaks, partitionPoint, partitionPoint,
      takeWhile_lt_eq_filter hsorted, takeWhile_lt_eq_filter hsorted]
    refine ⟨List.Sublist.length_le (monotone_filter_right _ fun i hi => ?_), length_filter_le _ _⟩
    rw [decide_eq_true_eq] at hi ⊢
    omega
  rw [lineBreaks, if_pos hbounds, h.breakStart, h.breakEnd, h.breaks, partitionPoint,
    partitionPoint, drop_take_takeWhile hsorted hlt.le, h.text_eq,
    positions_slice hlt.le hle hend]

/-- The breaks that a chunk has below a position of its string. -/
lemma Ok.partitionPoint_lineBreaks (position : ℕ) :
    partitionPoint c.lineBreaks (· < c.start + position)
      = ((positions c.text).filter (· < position)).length := by
  rw [h.lineBreaks_eq hend, partitionPoint, takeWhile_map, length_map,
    ← takeWhile_lt_eq_filter (pairwise_positions _)]
  congr 2
  funext i
  simp

lemma Ok.secondaryCountBefore_eq (position : ℕ) :
    c.secondaryCountBefore position = ((positions c.text).filter (· < position)).length := by
  rw [secondaryCountBefore, h.partitionPoint_lineBreaks hend, ← h.length_text]
  congr 1
  refine filter_congr fun i hi => ?_
  have hlt := lt_length_of_mem_positions hi
  simp [hlt]

lemma Ok.secondaryPosition_eq (ordinal : ℕ) :
    c.secondaryPosition ordinal = (positions c.text)[ordinal]? := by
  rw [secondaryPosition, h.lineBreaks_eq hend]
  simp [comp_def]

end TextChunk

/-! ### The breaks of a tree -/

/-- Chunks that end clean and cut no pair. -/
structure CleanChunks (cs : List TextChunk) : Prop extends Chunks cs where
  clean : ∀ c ∈ cs, c.EndsClean

lemma cleanChunks_append {cs cs' : List TextChunk} (h : CleanChunks (cs ++ cs')) :
    CleanChunks cs ∧ CleanChunks cs' ∧ positions (textOf cs ++ textOf cs') = positions (textOf cs)
          ++ (positions (textOf cs')).map ((textOf cs).length + ·) := by
  obtain ⟨hcs, hcs', hseam⟩ := chunks_append.1 h.toChunks
  refine ⟨⟨hcs, fun c hc => h.clean c (mem_append_left _ hc)⟩,
    ⟨hcs', fun c hc => h.clean c (mem_append_right _ hc)⟩, ?_⟩
  rw [← cutsCrLf_append] at hseam
  exact positions_append hseam

namespace SequenceNode

variable {n : SequenceNode TextChunk}

/-- The cached count of breaks of a node. -/
lemma secondaryLen_eq (hacc : n.Accurate) (h : CleanChunks n.leaves) :
    n.secondaryLen = (positions (textOf n.leaves)).length := by
  have hcounts : ∀ c ∈ n.leaves, SequenceLeaf.secondaryLen c = count c.text :=
    fun c hc => (h.ok c hc).secondaryLen_eq (h.clean c hc)
  have hflat := count_flatten h.seamless
  rw [map_map] at hflat
  rw [hacc.secondaryLen_eq, map_congr_left hcounts]
  exact hflat.symm

/-- The breaks below a position are counted. -/
lemma secondaryCountBeforeNode_eq (hacc : n.Accurate) (h : CleanChunks n.leaves) (position : ℕ) :
    n.secondaryCountBeforeNode position
      = ((positions (textOf n.leaves)).filter (· < position)).length := by
  induction n generalizing position with
  | leaf c =>
    have hc : c.Ok := h.ok c (mem_singleton_self c)
    have hlen : SequenceLeaf.len c = c.text.length := hc.length_text.symm
    have hcnt := hc.secondaryCountBefore_eq (h.clean c (mem_singleton_self c))
      (min position c.text.length)
    have htext : textOf [c] = c.text := by simp
    rw [secondaryCountBeforeNode, hlen, leaves_leaf, htext]
    refine hcnt.trans (congrArg _ (filter_congr fun i hi => ?_))
    have hlt := lt_length_of_mem_positions hi
    simp [hlt]
  | branch left right len secondaryLen leafCount height ihl ihr =>
    obtain ⟨-, hl, hr⟩ := hacc
    rw [leaves_branch] at h
    obtain ⟨hleft, hright, happ⟩ := cleanChunks_append h
    have hlen : left.len = (textOf left.leaves).length := hl.len_eq.trans (lenOf_eq hleft.ok)
    rw [secondaryCountBeforeNode, leaves_branch, textOf_append, happ, filter_append,
      length_append, ihl hl hleft, ihr hr hright, secondaryLen_eq hl hleft]
    split_ifs with hle
    · -- the breaks of the right child are behind the position
      have hnone : ((positions (textOf right.leaves)).map
          ((textOf left.leaves).length + ·)).filter (· < position) = [] := by
        refine filter_eq_nil_iff.2 fun i hi => ?_
        obtain ⟨j, -, rfl⟩ := mem_map.1 hi
        rw [decide_eq_true_eq]
        omega
      rw [hnone, length_nil, add_zero]
    · -- those of the left child are in front of it
      have hall : (positions (textOf left.leaves)).filter (· < position)
          = positions (textOf left.leaves) := by
        refine filter_eq_self.2 fun i hi => ?_
        have := lt_length_of_mem_positions hi
        rw [decide_eq_true_eq]
        omega
      rw [hall, filter_map, length_map]
      congr 2
      refine filter_congr fun i _ => ?_
      rw [comp_apply, decide_eq_decide]
      omega

/-- The break with a number is found. -/
lemma nthSecondaryInNode_eq (hacc : n.Accurate) (h : CleanChunks n.leaves) (ordinal nodeStart : ℕ) :
    n.nthSecondaryInNode ordinal nodeStart
      = ((positions (textOf n.leaves))[ordinal]?).map (nodeStart + ·) := by
  induction n generalizing ordinal nodeStart with
  | leaf c =>
    have hc : c.Ok := h.ok c (mem_singleton_self c)
    have hpos := hc.secondaryPosition_eq (h.clean c (mem_singleton_self c)) ordinal
    have htext : textOf [c] = c.text := by simp
    rw [leaves_leaf, htext, ← hpos]
    rfl
  | branch left right len secondaryLen leafCount height ihl ihr =>
    obtain ⟨-, hl, hr⟩ := hacc
    rw [leaves_branch] at h
    obtain ⟨hleft, hright, happ⟩ := cleanChunks_append h
    have hlen : left.len = (textOf left.leaves).length := hl.len_eq.trans (lenOf_eq hleft.ok)
    rw [nthSecondaryInNode, leaves_branch, textOf_append, happ, ihl hl hleft,
      ihr hr hright, secondaryLen_eq hl hleft, hlen]
    split_ifs with hlt
    · rw [getElem?_append_left hlt]
    · rw [getElem?_append_right (Nat.le_of_not_lt hlt), getElem?_map, Option.map_map]
      simp only [comp_def, Nat.add_assoc]

end SequenceNode

/-! ### The ends of the lines of a range -/

namespace ChunkedText

/-- The ends of the lines of a part of a chunk. -/
lemma collectPart_eq {c : TextChunk} (hc : c.Ok) (hend : c.EndsClean) (state : List ℕ × ℕ)
    {localStart localEnd : ℕ} (hlt : localStart < localEnd) (hlen : localEnd ≤ c.text.length) :
    collectPart state (c, localStart, localEnd) = (state.1 ++ ((positions c.text).filter
            fun i => localStart ≤ i && i < localEnd).map fun i => state.2 + (i - localStart) + 1,
        state.2 + (localEnd - localStart)) := by
  have hstop : min (c.start + localEnd) c.stop = c.start + localEnd := by
    have hlength := hc.length_text
    rw [TextChunk.len] at hlength
    omega
  have hsorted := pairwise_positions c.text
  have hbounds : partitionPoint c.lineBreaks (· < c.start + localStart)
        ≤ partitionPoint c.lineBreaks (· < c.start + localEnd) ∧
      partitionPoint c.lineBreaks (· < c.start + localEnd) ≤ c.lineBreaks.length := by
    refine ⟨?_, (takeWhile_sublist _).length_le⟩
    rw [hc.partitionPoint_lineBreaks hend, hc.partitionPoint_lineBreaks hend]
    refine List.Sublist.length_le (monotone_filter_right _ fun i hi => ?_)
    rw [decide_eq_true_eq] at hi ⊢
    omega
  have hrange : (c.lineBreaks.take (partitionPoint c.lineBreaks (· < c.start + localEnd))).drop
        (partitionPoint c.lineBreaks (· < c.start + localStart))
      = ((positions c.text).filter fun i => localStart ≤ i && i < localEnd).map (c.start + ·) := by
    rw [hc.partitionPoint_lineBreaks hend, hc.partitionPoint_lineBreaks hend,
      ← takeWhile_lt_eq_filter hsorted, ← takeWhile_lt_eq_filter hsorted,
      hc.lineBreaks_eq hend, ← map_take, ← map_drop,
      drop_take_takeWhile hsorted hlt.le]
  simp only [collectPart, hstop, if_pos hbounds, hrange, map_map]
  congr 2
  refine map_congr_left fun i _ => ?_
  simp only [comp_apply]
  omega

/-- The visit of a chunk that starts at a position collects the ends of its lines in the range. -/
lemma visit_collect {c : TextChunk} (hc : c.Ok) (hend : c.EndsClean) {nodeStart start stop : ℕ}
    (hle : start ≤ stop) (output : List ℕ) :
    ((leaf c).visitNodeRange nodeStart start stop).foldl collectPart
        (output, max start (min stop nodeStart))
      = (output ++ (((positions c.text).map (nodeStart + ·)).filter
            fun i => start ≤ i && i < stop).map (· + 1),
        max start (min stop (nodeStart + c.text.length))) := by
  have hlen : SequenceLeaf.len c = c.text.length := hc.length_text.symm
  have hpos : 0 < c.text.length := hc.length_text.symm ▸ hc.len_pos
  rw [visitNodeRange, hlen, filter_map, map_map]
  by_cases hvisit : start < nodeStart + c.text.length ∧ nodeStart < stop ∧ start < stop
  · rw [if_neg (by omega), if_pos (by omega), foldl_cons, foldl_nil,
      collectPart_eq hc hend _ (by omega) (min_le_right _ _)]
    have hfilter : (positions c.text).filter (fun i =>
          min (start - nodeStart) c.text.length ≤ i && i < min (stop - nodeStart) c.text.length)
        = (positions c.text).filter
          ((fun i => decide (start ≤ i) && decide (i < stop)) ∘ (nodeStart + ·)) := by
      refine filter_congr fun i hi => ?_
      have := lt_length_of_mem_positions hi
      rw [comp_apply, Bool.eq_iff_iff]
      simp only [and_eq_true, decide_eq_true_eq]
      omega
    rw [hfilter, Prod.mk.injEq]
    refine ⟨congrArg _ (map_congr_left fun i hi => ?_), by omega⟩
    have hi' := (mem_filter.1 hi).2
    simp only [comp_apply, and_eq_true, decide_eq_true_eq] at hi' ⊢
    omega
  · have hnone : (positions c.text).filter
        ((fun i => decide (start ≤ i) && decide (i < stop)) ∘ (nodeStart + ·)) = [] := by
      refine filter_eq_nil_iff.2 fun i hi => ?_
      have := lt_length_of_mem_positions hi
      simp only [comp_apply, and_eq_true, decide_eq_true_eq]
      omega
    have hnil : (if nodeStart + c.text.length ≤ start ∨ stop ≤ nodeStart then []
        else if min (start - nodeStart) c.text.length < min (stop - nodeStart) c.text.length then
          [(c, min (start - nodeStart) c.text.length, min (stop - nodeStart) c.text.length)]
        else []) = [] := by
      split_ifs
      · rfl
      · omega
      · rfl
    rw [hnil, hnone, foldl_nil, map_nil, append_nil, Prod.mk.injEq]
    exact ⟨rfl, by omega⟩

/-- The visits of the chunks behind a position collect the ends of their lines in the range. -/
lemma collectLineEnds_eq {cs : List TextChunk} (h : CleanChunks cs) (nodeStart : ℕ)
    {start stop : ℕ} (hle : start ≤ stop) (output : List ℕ) :
    (visitLeaves cs nodeStart start stop).foldl collectPart (output, max start (min stop nodeStart))
      = (output ++ (((positions (textOf cs)).map (nodeStart + ·)).filter
            fun i => start ≤ i && i < stop).map (· + 1),
        max start (min stop (nodeStart + (textOf cs).length))) := by
  induction cs generalizing nodeStart output with
  | nil => simp [visitLeaves]
  | cons c cs ih =>
    obtain ⟨-, hcs, happ⟩ := cleanChunks_append (show CleanChunks ([c] ++ cs) from h)
    have hc : c.Ok := h.ok c mem_cons_self
    have hlen : SequenceLeaf.len c = c.text.length := hc.length_text.symm
    have htext : textOf [c] = c.text := by simp
    rw [htext] at happ
    rw [visitLeaves, foldl_append,
      visit_collect hc (h.clean c mem_cons_self) hle, hlen, ih hcs, textOf_cons, happ,
      map_append, filter_append, map_append, append_assoc, map_map,
      length_append]
    simp only [comp_def, Nat.add_assoc]

/-! ### The queries of a text -/

variable (bytes : List UInt8)

/-- The line breaks of the flat text, by the rule of `text_storage_metadata`. -/
def flatBreaks : List ℕ := (textStorageMetadata bytes).1

/-- The ends of the lines of a range of the flat text: behind each break in it, and at its end if
there is something behind the last break. -/
def flatLineEnds (start stop : ℕ) : List ℕ :=
  let ends := ((flatBreaks bytes).filter fun i => start ≤ i && i < stop).map (· + 1)
  if ends.getLast?.getD start < stop then ends ++ [stop] else ends

/-- The line queries give the answers of the flat text. -/
structure LinesAgree (t : ChunkedText) : Prop where
  lineCount : t.lineCount = if t.text = [] then 0 else (flatBreaks t.text).length + 1
  lineIndex : ∀ position, t.lineIndexForPosition position
    = ((flatBreaks t.text).filter (· < position)).length
  lineStart : ∀ position, t.lineStart position
    = (((flatBreaks t.text).filter (· < position)).getLast?.map (· + 1)).getD 0
  lineEnd : ∀ position, t.lineEnd position
    = ((flatBreaks t.text).find? (min position t.text.length ≤ ·)).getD t.text.length
  collectLineEnds : ∀ start stop, t.collectLineEndsInRange start stop
    = flatLineEnds t.text (min start t.text.length)
      (max (min stop t.text.length) (min start t.text.length))

variable {t : ChunkedText}

lemma Inv.cleanChunks (h : t.Inv) (hclean : t.EndsClean) : CleanChunks t.chunks :=
  ⟨h.ranges, hclean⟩

/-- The queries of the tree. -/
lemma Inv.tree_queries (h : t.Inv) (hclean : t.EndsClean) :
    t.tree.secondaryLen = (positions t.text).length ∧
      (∀ position, t.tree.secondaryCountBefore position
        = ((positions t.text).filter (· < position)).length) ∧
      ∀ ordinal, t.nthLineBreak ordinal = (positions t.text)[ordinal]? := by
  have hchunks := h.cleanChunks hclean
  have hlen := h.len_eq
  obtain ⟨⟨_ | root⟩⟩ := t
  · exact ⟨rfl, fun _ => rfl, fun _ => rfl⟩
  · have hacc := ((wellFormed_some root).1 h.root).1
    have hsecondary := SequenceNode.secondaryLen_eq hacc hchunks
    refine ⟨hsecondary, fun position => ?_, fun ordinal => ?_⟩
    · refine (secondaryCountBeforeNode_eq hacc hchunks _).trans
        (congrArg _ (filter_congr fun i hi => ?_))
      have hlt : i < root.len := lt_of_lt_of_eq (lt_length_of_mem_positions hi) hlen.symm
      simp [hlt]
    · show (if root.secondaryLen ≤ ordinal then none else root.nthSecondaryInNode ordinal 0) = _
      rw [hsecondary, nthSecondaryInNode_eq hacc hchunks]
      split_ifs with hle
      · exact (getElem?_eq_none hle).symm
      · simp only [zero_add, Option.map_id']
        rfl

lemma flatBreaks_eq : flatBreaks bytes = positions bytes :=
  textStorageMetadata_positions bytes

open PersistentSequence

/-- Where no chunk ends inside a CR LF pair, the queries are those of the flat text. -/
theorem Inv.linesAgree (h : t.Inv) (hclean : t.EndsClean) : t.LinesAgree := by
  obtain ⟨hcnt, hbefore, hnth⟩ := h.tree_queries hclean
  have hlen := h.len_eq
  have hsorted := pairwise_positions t.text
  have hidx : ∀ position, t.lineIndexForPosition position
      = ((positions t.text).filter (· < position)).length := by
    intro position
    rw [lineIndexForPosition, hbefore, hlen]
    refine congrArg _ (filter_congr fun i hi => ?_)
    have hlt := lt_length_of_mem_positions hi
    simp [hlt]
  constructor
  case lineCount =>
    rw [ChunkedText.lineCount, isEmpty, hlen, hcnt, flatBreaks_eq]
    simp [length_eq_zero_iff]
  case lineIndex =>
    intro position
    rw [hidx, flatBreaks_eq]
  case lineStart =>
    intro position
    rw [ChunkedText.lineStart, lineStartForIndex, hidx, hnth, flatBreaks_eq,
      ← takeWhile_lt_eq_filter hsorted]
    obtain hzero | hpos :=
      Nat.eq_zero_or_pos ((positions t.text).takeWhile (· < position)).length
    · rw [length_eq_zero_iff.1 hzero]
      rfl
    · rw [if_neg hpos.ne', getElem?_pred_length_takeWhile hpos]
      obtain ⟨i, hi⟩ := getLast?_isSome.2 (length_pos_iff.1 hpos) |> Option.isSome_iff_exists.1
      rw [hi]
      rfl
  case lineEnd =>
    intro position
    rw [ChunkedText.lineEnd, lineIndexForPosition, hbefore, hnth, flatBreaks_eq, hlen,
      ← takeWhile_lt_eq_filter hsorted, getElem?_length_takeWhile]
  case collectLineEnds =>
    intro start stop
    have hle : min start t.text.length ≤ max (min stop t.text.length) (min start t.text.length) :=
      le_max_right _ _
    have hends := collectLineEnds_eq (h.cleanChunks hclean) 0 hle []
    have hvisit := visitRange_eq h.wf hle (by
      have hlen' : t.tree.len = t.text.length := hlen
      omega)
    have hcursor : max (min start t.text.length) (min (max (min stop t.text.length)
        (min start t.text.length)) 0) = min start t.text.length := by omega
    rw [hcursor, nil_append] at hends
    rw [collectLineEndsInRange, flatLineEnds, flatBreaks_eq, hlen, hvisit]
    simp only [zero_add, map_id'] at hends
    rw [← chunks, hends, ← text]

/-- In every text that is reached without a cut inside a CR LF pair, the line queries give the
answers of the flat text. -/
theorem reachable_linesAgree (h : Reachable Uncut t) : t.LinesAgree :=
  h.inv.1.linesAgree (h.inv.2 fun _ _ hcut => hcut)

/-- The text `a\r\nb` with a line inserted behind its break. -/
theorem reachable_linesAgree_insert :
    ((fromString crLfText 0).1.replaceRange 3 3 crLfText 2).1.1.LinesAgree := by
  refine reachable_linesAgree (.replaceRange 3 3 crLfText 2 (.fromString crLfText 0) ?_)
  rw [fromString_crLfText]
  show ¬ cutsCrLf _ _
  decide

/-- The LF and what is behind it are deleted from `a\r\nb`. -/
lemma replaceRange_crLfText : ((fromString crLfText 0).1.replaceRange 2 4 Str.empty 2).1.1
      = ⟨⟨some (leaf (crLfChunk 2))⟩⟩ := by
  have hins : (do return .fromLeaves (← splitTextChunksFromString Str.empty) :
      Alloc (PersistentSequence TextChunk)) = fun next => (⟨none⟩, next + 1) := by
    funext next
    show (fromLeaves [], next + 1) = _
    rw [fromLeaves, buildBalancedNodes]
  rw [fromString_crLfText, replaceRange, hins]
  rfl

/-- If the LF of a pair is deleted, the line that the CR ends is not counted. -/
theorem not_linesAgree : ¬ ∀ t, Reachable Anywhere t → t.LinesAgree := by
  intro h
  have hreach : Reachable Anywhere ((fromString crLfText 0).1.replaceRange 2 4 Str.empty 2).1.1 :=
    .replaceRange 2 4 Str.empty 2 (.fromString crLfText 0) trivial
  have hcount := (h _ hreach).lineCount
  rw [replaceRange_crLfText] at hcount
  revert hcount
  decide

end ChunkedText

end SpaceQuery.Editor
