import SpaceQuery.Editor.TextChunks

/-!
The invariant of `ChunkedText` and its meaning: a text is the bytes of its chunks.
-/

namespace SpaceQuery.Editor

open List Utf8 SequenceNode

namespace ChunkedText

variable {t ins : ChunkedText}

/-- The chunks of a text, from the left. -/
def chunks (t : ChunkedText) : List TextChunk := t.tree.leaves

/-- The bytes of a text. -/
def text (t : ChunkedText) : List UInt8 := textOf t.chunks

/-- The invariant. -/
structure Inv (t : ChunkedText) : Prop where
  root : WellFormed t.tree.root
  ranges : Chunks t.chunks

/-- No chunk ends inside a CR LF pair of its string. -/
def EndsClean (t : ChunkedText) : Prop := ∀ c ∈ t.chunks, c.EndsClean

lemma Inv.wf (h : t.Inv) : t.tree.WF := ⟨h.root, fun c hc => (h.ranges.ok c hc).len_pos⟩

lemma Inv.len_eq (h : t.Inv) : t.len = t.text.length :=
  h.wf.len_eq.trans (lenOf_eq h.ranges.ok)

/-! ### Positions -/

open PersistentSequence

lemma Inv.byteAt_eq (h : t.Inv) (position : ℕ) : t.byteAt position = t.text[position]? := by
  by_cases hlt : position < t.len
  · obtain ⟨front, c, back, hleaves, hge, hlt', hloc⟩ := locate_spec h.wf hlt
    have hok : ∀ x ∈ front ++ c :: back, x.Ok := hleaves ▸ h.ranges.ok
    have hfront : lenOf front = (textOf front).length :=
      lenOf_eq fun x hx => hok x (mem_append_left _ hx)
    have hc : c.Ok := hok c (mem_append_right _ mem_cons_self)
    have hlen : SequenceLeaf.len c = c.text.length := hc.length_text.symm
    rw [byteAt, hloc, text, chunks, hleaves, textOf_append, textOf_cons,
      getElem?_append_right (by omega), getElem?_append_left (by omega), hfront]
    rfl
  · have hnone : t.text[position]? = none := by
      rw [getElem?_eq_none_iff, ← h.len_eq]
      omega
    have hle : t.tree.len ≤ position := Nat.le_of_not_lt hlt
    rw [byteAt, locate, if_pos hle, hnone]
    rfl

lemma Inv.isCharBoundary_eq (h : t.Inv) {position : ℕ} (hle : position ≤ t.len) :
    t.isCharBoundary position = Utf8.isCharBoundary t.text position := by
  rw [isCharBoundary, Utf8.isCharBoundary, h.byteAt_eq, h.len_eq]
  by_cases hzero : position = 0
  · simp [hzero]
  · rw [h.len_eq] at hle
    obtain hlt | heq := hle.lt_or_eq
    · have hb := getElem?_eq_getElem hlt
      rw [hb, if_neg (by omega), if_neg hzero]
      rfl
    · simp [heq]

lemma Inv.retreat_eq (h : t.Inv) {position : ℕ} (hle : position ≤ t.len) :
    t.retreat position = floorBoundary t.text position := by
  induction position with
  | zero => rfl
  | succ position ih =>
    rw [retreat, h.isCharBoundary_eq hle, floorBoundary_succ, ih (by omega)]

/-- Positions are clamped to the text and its character boundaries. -/
lemma Inv.clampBoundary_eq (h : t.Inv) (position : ℕ) :
    t.clampBoundary position = floorBoundary t.text position := by
  rw [clampBoundary, h.retreat_eq (min_le_right _ _), h.len_eq, floorBoundary_min]

lemma Inv.clampBoundary_min (h : t.Inv) (position : ℕ) :
    t.clampBoundary (min position t.len) = floorBoundary t.text position := by
  rw [h.clampBoundary_eq, h.len_eq, floorBoundary_min]

/-! ### Slices and replacements -/

/-- A split of the tree at a boundary. -/
lemma splitNode_spec' {root : Option (SequenceNode TextChunk)} (hroot : WellFormed root)
    (hchunks : Chunks (rootLeaves root)) {position : ℕ}
    (hbound : Utf8.isCharBoundary (textOf (rootLeaves root)) position) :
    WellFormed (splitNode root position).1 ∧ WellFormed (splitNode root position).2 ∧
      SplitsInto (rootLeaves root) position (rootLeaves (splitNode root position).1)
        (rootLeaves (splitNode root position).2) := by
  obtain ⟨hleft, hright, hsplit⟩ :=
    splitNode_spec hroot (fun c hc => (hchunks.ok c hc).len_pos) position
  have hinto := splitLeaves_spec hchunks hbound
  rw [← hsplit] at hinto
  exact ⟨hleft, hright, hinto⟩

variable {start : ℕ}

lemma Inv.slice_eq_none (h : t.Inv) {stop : ℕ}
    (hlt : floorBoundary t.text stop < floorBoundary t.text start) : t.slice start stop = none := by
  rw [slice]
  simp only [h.clampBoundary_min]
  exact if_pos hlt

open LineBreaks

/-- A slice in order is the part of the text between the clamped positions. -/
lemma Inv.slice_spec (h : t.Inv) {stop : ℕ}
    (hle : floorBoundary t.text start ≤ floorBoundary t.text stop) :
    ∃ t', t.slice start stop = some t' ∧ t'.Inv ∧
      t'.text = (t.text.take (floorBoundary t.text stop)).drop (floorBoundary t.text start) ∧
      (t.EndsClean → ¬ cutsCrLf t.text (floorBoundary t.text stop) → t'.EndsClean) := by
  have hstart := isCharBoundary_floorBoundary t.text start
  have hstop := isCharBoundary_floorBoundary t.text stop
  rw [slice]
  simp only [h.clampBoundary_min]
  generalize floorBoundary t.text start = s at hle hstart ⊢
  generalize floorBoundary t.text stop = e at hle hstop ⊢
  obtain ⟨-, htail, hsplit⟩ := splitNode_spec' h.root h.ranges hstart
  have hbound : Utf8.isCharBoundary (textOf (rootLeaves (splitNode t.tree.root s).2)) (e - s) := by
    rw [hsplit.textBack]
    exact isCharBoundary_drop hle hstop
  obtain ⟨hroot, -, hsplit'⟩ := splitNode_spec' htail hsplit.chunksBack hbound
  refine ⟨_, if_neg (not_lt.2 hle), ⟨hroot, hsplit'.chunksFront⟩, ?_, ?_⟩
  · calc textOf (rootLeaves (splitNode (splitNode t.tree.root s).2 (e - s)).1)
        = (t.text.drop s).take (e - s) := by rw [hsplit'.textFront, hsplit.textBack]; rfl
      _ = (t.text.take e).drop s := by rw [take_drop, Nat.add_sub_cancel' hle]
  · intro hclean hcut
    refine hsplit'.cleanFront (hsplit.cleanBack hclean) fun h => hcut ?_
    rw [hsplit.textBack] at h
    have hlen : (t.text.take s).length = s := by
      rw [length_take, Nat.min_eq_left (le_length_of_isCharBoundary hstart)]
    rw [← take_append_drop s t.text]
    refine cutsCrLf_append_right ?_
    rw [hlen]
    exact h

/-- A replacement in order puts the text of the inserted tree between the clamped
positions. -/
lemma Inv.replaceRange_spec (h : t.Inv) (hins : ins.Inv) {s e : ℕ} (hle : s ≤ e)
    (hs : Utf8.isCharBoundary t.text s) (he : Utf8.isCharBoundary t.text e) (next : ℕ) :
    let t' : ChunkedText := ⟨(t.tree.replaceRange s e ins.tree next).1⟩
    t'.Inv ∧ t'.text = t.text.take s ++ ins.text ++ t.text.drop e ∧
      (t.EndsClean → ins.EndsClean → ¬ cutsCrLf t.text s → t'.EndsClean) := by
  intro t'
  have hfirst := splitLeaves_spec h.ranges hs
  have hbound : Utf8.isCharBoundary (textOf (splitLeaves t.chunks s).2) (e - s) := by
    rw [hfirst.textBack]
    exact isCharBoundary_drop hle he
  have hsecond := splitLeaves_spec hfirst.chunksBack hbound
  have hlen : e ≤ t.tree.len := by
    have := le_length_of_isCharBoundary he
    rw [← h.len_eq] at this
    exact this
  obtain ⟨next', hroot, hleaves⟩ := PersistentSequence.replaceRange_spec h.wf hins.root hle hlen
    (fun c hc => (hfirst.chunksBack.ok c hc).len_pos) next
  obtain ⟨hfront, hfronttext, hfrontclean⟩ := joinLeaves_spec hfirst.chunksFront hins.ranges next
  obtain ⟨hall, halltext, hallclean⟩ := joinLeaves_spec hfront hsecond.chunksBack next'
  have hchunks : t'.chunks = joinLeaves (joinLeaves (splitLeaves t.chunks s).1 ins.chunks next)
        (splitLeaves (splitLeaves t.chunks s).2 (e - s)).2 next' := hleaves
  refine ⟨⟨hroot, by rw [hchunks]; exact hall⟩, ?_, ?_⟩
  · rw [text, hchunks, halltext, hfronttext, hfirst.textFront, hsecond.textBack, hfirst.textBack,
      drop_drop, Nat.add_sub_cancel' hle]
    rfl
  · intro hclean hinsclean hcut
    rw [EndsClean, hchunks]
    exact hallclean (hfrontclean (hfirst.cleanFront hclean hcut) hinsclean)
      (hsecond.cleanBack (hfirst.cleanBack hclean))

/-! ### Ranges -/

lemma slice_append {α : Type} (xs ys : List α) (start stop : ℕ) : ((xs ++ ys).take stop).drop start
      = (xs.take stop).drop start ++ (ys.take (stop - xs.length)).drop (start - xs.length) := by
  rw [take_append, drop_append, length_take]
  obtain hle | hlt := le_or_gt xs.length stop
  · rw [min_eq_right hle]
  · simp [Nat.sub_eq_zero_of_le hlt.le]

open Str

/-- The visits of one chunk push its part of the range. -/
lemma visit_push {c : TextChunk} (hc : c.Ok) {nodeStart stop : ℕ}
    (hstart : Utf8.isCharBoundary c.text (min (start - nodeStart) c.text.length))
    (hstop : Utf8.isCharBoundary c.text (min (stop - nodeStart) c.text.length))
    (state : Str × Bool) :
    ∃ part : Str, part.bytes = (c.text.take (stop - nodeStart)).drop (start - nodeStart) ∧
      ((leaf c).visitNodeRange nodeStart start stop).foldl pushPart state
        = (state.1.append part, state.2) := by
  have hlen : SequenceLeaf.len c = c.text.length := hc.length_text.symm
  have hempty : (state.1.append empty, state.2) = state := by
    simp [append, empty]
  rw [visitNodeRange, hlen]
  dsimp only
  split_ifs with hout hlt
  on_goal 2 =>
    obtain ⟨part, hget, hpart⟩ := c.asStr.exists_get_eq hlt.le hstart hstop
    refine ⟨part, ?_, by rw [foldl_cons, foldl_nil, pushPart, hget]⟩
    have hmin : min (start - nodeStart) c.text.length = start - nodeStart := by omega
    rw [hpart, hmin, ← take_take, ← TextChunk.text, take_length]
  all_goals
    refine ⟨empty, (drop_eq_nil_of_le ?_).symm, hempty.symm⟩
    rw [length_take]
    omega

/-- The visits of the chunks push the range of their text. -/
lemma visitLeaves_push {cs : List TextChunk} (hok : ∀ c ∈ cs, c.Ok) {nodeStart stop : ℕ}
    (hstart : Utf8.isCharBoundary (textOf cs) (min (start - nodeStart) (textOf cs).length))
    (hstop : Utf8.isCharBoundary (textOf cs) (min (stop - nodeStart) (textOf cs).length))
    (state : Str × Bool) :
    ∃ part : Str, part.bytes = ((textOf cs).take (stop - nodeStart)).drop (start - nodeStart) ∧
      (visitLeaves cs nodeStart start stop).foldl pushPart state
        = (state.1.append part, state.2) := by
  induction cs generalizing nodeStart state with
  | nil => exact ⟨empty, by simp [empty], by simp [visitLeaves, append, empty]⟩
  | cons c cs ih =>
    rw [forall_mem_cons] at hok
    have hlen : SequenceLeaf.len c = c.text.length := hok.1.length_text.symm
    obtain ⟨hcstart, hstart'⟩ := isCharBoundary_append_min hstart
    obtain ⟨hcstop, hstop'⟩ := isCharBoundary_append_min hstop
    rw [Nat.sub_sub, ← hlen] at hstart' hstop'
    obtain ⟨part, hpart, hvisit⟩ := visit_push hok.1 hcstart hcstop state
    obtain ⟨rest, hrest, hvisits⟩ := ih hok.2 hstart' hstop' (state.1.append part, state.2)
    refine ⟨part.append rest, ?_, ?_⟩
    · rw [textOf_cons, slice_append, Nat.sub_sub, Nat.sub_sub, ← hlen, ← hrest, ← hpart]
      rfl
    · rw [visitLeaves, foldl_append, hvisit, hvisits]
      simp [append]

/-- `range_string` returns the text between the clamped positions. -/
lemma Inv.rangeString_eq (h : t.Inv) (start stop : ℕ) : (t.rangeString start stop).map bytes
      = some ((t.text.take (floorBoundary t.text stop)).drop (floorBoundary t.text start)) := by
  have hs := isCharBoundary_floorBoundary t.text start
  have he := isCharBoundary_floorBoundary t.text stop
  rw [rangeString]
  simp only [h.clampBoundary_min]
  generalize floorBoundary t.text start = s at hs ⊢
  generalize floorBoundary t.text stop = e at he ⊢
  have helen := le_length_of_isCharBoundary he
  by_cases hlt : e < s
  · have hnil : (t.text.take e).length ≤ s := by
      rw [length_take]
      omega
    rw [if_pos hlt, drop_eq_nil_of_le hnil]
    rfl
  · have hbounds : ∀ p, Utf8.isCharBoundary t.text p →
        Utf8.isCharBoundary t.text (min (p - 0) t.text.length) := by
      intro p hp
      rw [Nat.sub_zero, Nat.min_eq_left (le_length_of_isCharBoundary hp)]
      exact hp
    obtain ⟨part, hpart, hvisits⟩ :=
      visitLeaves_push h.ranges.ok (hbounds s hs) (hbounds e he) (empty, true)
    have htree : e ≤ t.tree.len := by
      have hlen : t.tree.len = t.text.length := h.len_eq
      omega
    have hvisit : (t.tree.visitRange s e).foldl pushPart (empty, true) = (part, true) := by
      rw [visitRange_eq h.wf (Nat.le_of_not_lt hlt) htree, ← chunks, hvisits]
      simp [append, empty]
    have hlen : part.len = e - s := by
      rw [Str.len, hpart, length_drop, length_take]
      rw [← text] at *
      omega
    rw [if_neg hlt, hvisit]
    simp [hlen, hpart, text]

/-! ### Reachable texts -/

/-- The texts that the operations build from strings, where each operation cuts the text
at a position that is allowed: a replacement at its clamped start, a slice at its clamped
end.  The other end of a replaced or sliced range is not an end of a chunk that is kept. -/
inductive Reachable (allowed : ChunkedText → ℕ → Prop) : ChunkedText → Prop
  | fromString (text : Str) (next : ℕ) : Reachable allowed (fromString text next).1
  | replaceRange {t : ChunkedText} (start stop : ℕ) (inserted : Str) (next : ℕ) :
      Reachable allowed t → allowed t (t.clampBoundary start) →
      Reachable allowed (t.replaceRange start stop inserted next).1.1
  | replaceRangeShared {t : ChunkedText} (start stop : ℕ) (inserted : Arc Str) (next : ℕ) :
      Reachable allowed t → allowed t (t.clampBoundary start) →
      Reachable allowed (t.replaceRangeShared start stop inserted next).1.1
  | replaceRangeChunked {t inserted : ChunkedText} (start stop next : ℕ) :
      Reachable allowed t → Reachable allowed inserted → allowed t (t.clampBoundary start) →
      Reachable allowed (t.replaceRangeChunked start stop inserted next).1.1
  | slice {t t' : ChunkedText} (start stop : ℕ) :
      Reachable allowed t → allowed t (t.clampBoundary stop) → t.slice start stop = some t' →
      Reachable allowed t'

/-- Any position. -/
def Anywhere : ChunkedText → ℕ → Prop := fun _ _ => True

/-- The position does not lie between a CR and the LF of the same line break. -/
def Uncut : ChunkedText → ℕ → Prop := fun t position => ¬ cutsCrLf t.text position

/-- A tree of chunks that end clean, built from the chunks of a string. -/
lemma fromLeaves_inv {cs : List TextChunk} (h : Chunks cs) (hclean : ∀ c ∈ cs, c.EndsClean) :
    let t : ChunkedText := ⟨.fromLeaves cs⟩
    t.Inv ∧ t.EndsClean ∧ t.text = textOf cs := by
  intro t
  obtain ⟨hwf, hleaves⟩ := fromLeaves_spec (fun c hc => (h.ok c hc).len_pos)
  have hchunks : t.chunks = cs := hleaves
  exact ⟨⟨hwf.root, by rw [hchunks]; exact h⟩, by rw [EndsClean, hchunks]; exact hclean,
    by rw [text, hchunks]⟩

/-- What a replacement does: it keeps the invariant, and in order it puts the inserted
bytes between the clamped positions; the chunks end clean if they did before, and the
start divides no CR LF pair. -/
structure Replaces (t : ChunkedText) (start stop : ℕ) (inserted : List UInt8) (clean : Prop)
    (result : ChunkedText × Bool) : Prop where
  inv : result.1.Inv
  text : floorBoundary t.text start ≤ floorBoundary t.text stop →
    result.2 = true ∧ result.1.text = t.text.take (floorBoundary t.text start) ++ inserted
      ++ t.text.drop (floorBoundary t.text stop)
  endsClean : t.EndsClean → clean → Uncut t (t.clampBoundary start) → result.1.EndsClean

lemma Inv.replaceWith (h : t.Inv) (hins : ins.Inv)
    {inserted : Alloc (PersistentSequence TextChunk)} {next : ℕ}
    (hrun : (inserted next).1 = ins.tree) (start stop : ℕ) :
    Replaces t start stop ins.text ins.EndsClean (t.replaceWith start stop inserted next).1 := by
  have hs := isCharBoundary_floorBoundary t.text start
  have he := isCharBoundary_floorBoundary t.text stop
  have hrun' : (t.replaceWith start stop inserted next).1
      = if floorBoundary t.text stop < floorBoundary t.text start then (t, false)
        else (⟨(t.tree.replaceRange (floorBoundary t.text start) (floorBoundary t.text stop)
          ins.tree (inserted next).2).1⟩, true) := by
    rw [ChunkedText.replaceWith, ← hrun]
    simp only [h.clampBoundary_min]
    split_ifs <;> rfl
  rw [hrun']
  split_ifs with hlt
  · exact ⟨h, fun hle => absurd hlt (not_lt.2 hle), fun hclean _ _ => hclean⟩
  · obtain ⟨hinv, htext, hclean⟩ :=
      h.replaceRange_spec hins (Nat.le_of_not_lt hlt) hs he (inserted next).2
    refine ⟨hinv, fun _ => ⟨rfl, htext⟩, fun ht hc hcut => hclean ht hc ?_⟩
    rwa [h.clampBoundary_eq] at hcut

/-- The chunks of a string inserted. -/
lemma Inv.replaceWith_chunks (h : t.Inv) {chunks : Alloc (List TextChunk)} {next : ℕ}
    {bytes : List UInt8} (hspec : Chunks (chunks next).1 ∧ (∀ c ∈ (chunks next).1, c.EndsClean) ∧
      textOf (chunks next).1 = bytes) (start stop : ℕ) :
    Replaces t start stop bytes True
      (t.replaceWith start stop (do return .fromLeaves (← chunks)) next).1 := by
  obtain ⟨hchunks, hclean, htext⟩ := hspec
  obtain ⟨hinv, hclean', htext'⟩ := fromLeaves_inv hchunks hclean
  have hreplaces : Replaces t start stop _ _
      (t.replaceWith start stop (do return .fromLeaves (← chunks)) next).1 :=
    h.replaceWith hinv rfl start stop
  rw [htext', htext] at hreplaces
  exact ⟨hreplaces.inv, hreplaces.text, fun ht _ => hreplaces.endsClean ht hclean'⟩

lemma Inv.replaceRange (h : t.Inv) (start stop : ℕ) (inserted : Str) (next : ℕ) :
    Replaces t start stop inserted.bytes True (t.replaceRange start stop inserted next).1 :=
  h.replaceWith_chunks (splitTextChunksFromString_spec inserted next) start stop

lemma Inv.replaceRangeShared (h : t.Inv) (start stop : ℕ) (inserted : Arc Str) (next : ℕ) :
    Replaces t start stop inserted.val.bytes True
      (t.replaceRangeShared start stop inserted next).1 :=
  h.replaceWith_chunks (splitTextChunksFromStorage_spec inserted next) start stop

lemma Inv.replaceRangeChunked (h : t.Inv) (hins : ins.Inv) (start stop next : ℕ) :
    Replaces t start stop ins.text ins.EndsClean (t.replaceRangeChunked start stop ins next).1 :=
  h.replaceWith hins rfl start stop

/-- Every reachable text has the invariant, and its chunks end clean if no operation cut
a CR LF pair. -/
lemma Reachable.inv {allowed : ChunkedText → ℕ → Prop} (h : Reachable allowed t) :
    t.Inv ∧ ((∀ t position, allowed t position → Uncut t position) → t.EndsClean) := by
  induction h with
  | fromString text next =>
    obtain ⟨hchunks, hclean, -⟩ := splitTextChunksFromString_spec text next
    obtain ⟨hinv, hclean', -⟩ := fromLeaves_inv hchunks hclean
    exact ⟨hinv, fun _ => hclean'⟩
  | replaceRange start stop inserted next _ hcut ih =>
    have hreplaces := ih.1.replaceRange start stop inserted next
    exact ⟨hreplaces.inv,
      fun hall => hreplaces.endsClean (ih.2 hall) trivial (hall _ _ hcut)⟩
  | replaceRangeShared start stop inserted next _ hcut ih =>
    have hreplaces := ih.1.replaceRangeShared start stop inserted next
    exact ⟨hreplaces.inv,
      fun hall => hreplaces.endsClean (ih.2 hall) trivial (hall _ _ hcut)⟩
  | replaceRangeChunked start stop next _ _ hcut ih ihins =>
    have hreplaces := ih.1.replaceRangeChunked ihins.1 start stop next
    exact ⟨hreplaces.inv,
      fun hall => hreplaces.endsClean (ih.2 hall) (ihins.2 hall) (hall _ _ hcut)⟩
  | @slice t t' start stop _ hcut hslice ih =>
    have hle : floorBoundary t.text start ≤ floorBoundary t.text stop := by
      by_contra hlt
      rw [ih.1.slice_eq_none (Nat.lt_of_not_le hlt)] at hslice
      cases hslice
    obtain ⟨t'', hslice', hinv, -, hclean⟩ := ih.1.slice_spec hle
    obtain rfl := Option.some.inj (hslice.symm.trans hslice')
    refine ⟨hinv, fun hall => hclean (ih.2 hall) ?_⟩
    rw [← ih.1.clampBoundary_eq]
    exact hall _ _ hcut

/-! ### What holds of every reachable text -/

/-- The nodes of the tree of a text. -/
def nodes (t : ChunkedText) : List (SequenceNode TextChunk) :=
  t.tree.root.elim [] SequenceNode.nodes

/-- The cached lengths, counts of leaves and heights are the true ones, siblings differ in
height by at most one, and the leaves are nonempty and stand at character boundaries. -/
structure Sound (t : ChunkedText) : Prop where
  len : ∀ n ∈ t.nodes, n.len = (textOf n.leaves).length
  leafCount : ∀ n ∈ t.nodes, n.leafCount = n.leaves.length
  height : ∀ n ∈ t.nodes, n.height = n.erase.height
  balanced : ∀ n ∈ t.tree.root, n.erase.Balanced
  nonempty : ∀ c ∈ t.chunks, c.text ≠ []
  boundary : ∀ front back, t.chunks = front ++ back →
    Utf8.isCharBoundary t.text (textOf front).length = true

/-- The cached counts of line breaks are the true ones. -/
def LineBreaksTrue (t : ChunkedText) : Prop :=
  ∀ n ∈ t.nodes, n.secondaryLen = LineBreaks.count (textOf n.leaves)

/-- The operations act on the flat text: `floorBoundary` clamps a position to the text and
its character boundaries. -/
structure Agrees (t : ChunkedText) : Prop where
  flat : t.toFlatString.bytes = t.text
  byteAt : ∀ position, t.byteAt position = t.text[position]?
  rangeString : ∀ start stop, (t.rangeString start stop).map bytes
    = some ((t.text.take (floorBoundary t.text stop)).drop (floorBoundary t.text start))
  slice : ∀ start stop, (t.slice start stop).map text
    = if floorBoundary t.text start ≤ floorBoundary t.text stop then
        some ((t.text.take (floorBoundary t.text stop)).drop (floorBoundary t.text start))
      else none
  replaceRange : ∀ start stop inserted next, start ≤ stop →
    (t.replaceRange start stop inserted next).1.2 = true ∧
      (t.replaceRange start stop inserted next).1.1.text
        = t.text.take (floorBoundary t.text start) ++ inserted.bytes
          ++ t.text.drop (floorBoundary t.text stop)
  replaceRangeShared : ∀ start stop inserted next, start ≤ stop →
    (t.replaceRangeShared start stop inserted next).1.2 = true ∧
      (t.replaceRangeShared start stop inserted next).1.1.text
        = t.text.take (floorBoundary t.text start) ++ inserted.val.bytes
          ++ t.text.drop (floorBoundary t.text stop)
  replaceRangeChunked : ∀ start stop inserted next, Reachable Anywhere inserted → start ≤ stop →
    (t.replaceRangeChunked start stop inserted next).1.2 = true ∧
      (t.replaceRangeChunked start stop inserted next).1.1.text
        = t.text.take (floorBoundary t.text start) ++ inserted.text
          ++ t.text.drop (floorBoundary t.text stop)

lemma Inv.of_mem_nodes (h : t.Inv) {n : SequenceNode TextChunk} (hn : n ∈ t.nodes) :
    n.Accurate ∧ ∃ front back, t.chunks = front ++ n.leaves ++ back := by
  obtain ⟨⟨_ | root⟩⟩ := t
  · cases hn
  · exact ((wellFormed_some root).1 h.root).1.of_mem_nodes hn

lemma Inv.chunks_of_mem_nodes (h : t.Inv) {n : SequenceNode TextChunk} (hn : n ∈ t.nodes) :
    Chunks n.leaves := by
  obtain ⟨-, front, back, hchunks⟩ := h.of_mem_nodes hn
  have hranges := h.ranges
  rw [hchunks] at hranges
  exact (chunks_append.1 (chunks_append.1 hranges).1).2.1

lemma valid_textOf (cs : List TextChunk) : Valid (textOf cs) := by
  refine valid_flatten fun part hpart => ?_
  obtain ⟨c, -, rfl⟩ := mem_map.1 hpart
  exact c.asStr.valid

lemma Inv.sound (h : t.Inv) : t.Sound := by
  constructor
  case len =>
    intro n hn
    rw [(h.of_mem_nodes hn).1.len_eq, lenOf_eq (h.chunks_of_mem_nodes hn).ok]
  case leafCount => exact fun n hn => (h.of_mem_nodes hn).1.leafCount_eq
  case height => exact fun n hn => (h.of_mem_nodes hn).1.height_eq
  case balanced => exact fun n hn => (h.root n hn).2
  case nonempty => exact fun c hc => (h.ranges.ok c hc).text_ne_nil
  case boundary =>
    intro front back hchunks
    rw [text, hchunks, textOf_append]
    exact (valid_textOf back).isCharBoundary_append _

lemma Inv.lineBreaksTrue (h : t.Inv) (hclean : t.EndsClean) : t.LineBreaksTrue := by
  intro n hn
  have hn' := h.chunks_of_mem_nodes hn
  obtain ⟨hacc, front, back, hchunks⟩ := h.of_mem_nodes hn
  have hcounts : ∀ c ∈ n.leaves, SequenceLeaf.secondaryLen c = LineBreaks.count c.text := by
    intro c hc
    refine (hn'.ok c hc).secondaryLen_eq (hclean c ?_)
    rw [hchunks]
    exact mem_append_left _ (mem_append_right _ hc)
  rw [hacc.secondaryLen_eq, textOf, LineBreaks.count_flatten hn'.seamless, map_map,
    map_congr_left hcounts]
  rfl

lemma Inv.agrees (h : t.Inv) : t.Agrees := by
  have hmono : ∀ {start stop}, start ≤ stop →
      floorBoundary t.text start ≤ floorBoundary t.text stop := floorBoundary_mono t.text
  constructor
  case flat =>
    have hrange := h.rangeString_eq 0 t.len
    rw [h.len_eq, floorBoundary_eq (isCharBoundary_zero t.text),
      floorBoundary_eq (isCharBoundary_length t.text), take_length, drop_zero] at hrange
    obtain ⟨flat, hflat, hbytes⟩ := Option.map_eq_some_iff.1 hrange
    rw [toFlatString, h.len_eq, hflat, ← hbytes]
    rfl
  case byteAt => exact h.byteAt_eq
  case rangeString => exact h.rangeString_eq
  case slice =>
    intro start stop
    split_ifs with hle
    · obtain ⟨t', hslice, -, htext, -⟩ := h.slice_spec hle
      rw [hslice, ← htext]
      rfl
    · rw [h.slice_eq_none (Nat.lt_of_not_le hle)]
      rfl
  case replaceRange =>
    intro start stop inserted next hle
    exact (h.replaceRange start stop inserted next).text (hmono hle)
  case replaceRangeShared =>
    intro start stop inserted next hle
    exact (h.replaceRangeShared start stop inserted next).text (hmono hle)
  case replaceRangeChunked =>
    intro start stop inserted next hins hle
    exact (h.replaceRangeChunked hins.inv.1 start stop next).text (hmono hle)

/-- In every reachable text the tree is sound and the operations act on the flat text. -/
theorem reachable_agrees (h : Reachable Anywhere t) : t.Sound ∧ t.Agrees :=
  ⟨h.inv.1.sound, h.inv.1.agrees⟩

/-- In every text that is reached without a cut inside a CR LF pair, the cached line
breaks are the true ones, too. -/
theorem reachable_sound (h : Reachable Uncut t) : t.Sound ∧ t.LineBreaksTrue ∧ t.Agrees :=
  ⟨h.inv.1.sound, h.inv.1.lineBreaksTrue (h.inv.2 fun _ _ hcut => hcut), h.inv.1.agrees⟩

section CrLf

/-- The text `a\r\nb`. -/
def crLfText : Str := ⟨[97, 13, 10, 98], ['a', '\r', '\n', 'b'], rfl⟩

/-- The chunk of `crLfText` from its start to a position. -/
def crLfChunk (stop : ℕ) : TextChunk :=
  TextChunk.fromStorage ⟨0, crLfText⟩ ⟨1, [2]⟩ true 0 stop

lemma fromString_crLfText : (fromString crLfText 0).1 = ⟨⟨some (leaf (crLfChunk 4))⟩⟩ := by
  have hchunks : (splitTextChunksFromString crLfText 0).1 = [crLfChunk 4] := by decide
  have hrun : (fromString crLfText 0).1
      = ⟨⟨buildBalancedNodes (splitTextChunksFromString crLfText 0).1⟩⟩ := rfl
  rw [hrun, hchunks, buildBalancedNodes]

/-- A slice that ends between CR and LF has a line break that is not counted. -/
theorem not_lineBreaksTrue : ¬ ∀ t, Reachable Anywhere t → t.LineBreaksTrue := by
  intro h
  have hreach : Reachable Anywhere ⟨⟨some (leaf (crLfChunk 2))⟩⟩ := by
    refine .slice 0 2 (.fromString crLfText 0) trivial ?_
    rw [fromString_crLfText]
    rfl
  have hcount := h _ hreach (leaf (crLfChunk 2)) (by simp [nodes, SequenceNode.nodes])
  revert hcount
  decide

/-- The text `a\r\nb` with a line inserted behind its break. -/
theorem reachable_sound_insert :
    ((fromString crLfText 0).1.replaceRange 3 3 crLfText 2).1.1.LineBreaksTrue := by
  refine (reachable_sound (.replaceRange 3 3 crLfText 2 (.fromString crLfText 0) ?_)).2.1
  rw [fromString_crLfText]
  show ¬ cutsCrLf _ _
  decide

/-- An insertion between CR and LF. -/
theorem reachable_agrees_insert :
    ((fromString crLfText 0).1.replaceRange 2 2 crLfText 2).1.1.Agrees :=
  (reachable_agrees (.replaceRange 2 2 crLfText 2 (.fromString crLfText 0) trivial)).2

end CrLf

/-- The tree of a text has as many chunks as a Fibonacci tree of its height, and no more than
the text has bytes. -/
def LogHeight (t : ChunkedText) : Prop :=
  ∀ root ∈ t.tree.root, Nat.fib (root.height + 1) ≤ root.leafCount ∧ root.leafCount ≤ t.len

/-- **Paths stay logarithmic**, whatever is replaced and sliced. -/
theorem reachable_logHeight (h : Reachable Anywhere t) : t.LogHeight := by
  intro root hroot
  obtain ⟨hacc, hbal⟩ := h.inv.1.root root hroot
  have hchunks : t.tree.leaves = root.leaves := by
    rw [PersistentSequence.leaves, Option.mem_def.mp hroot]
    rfl
  have hwf := h.inv.1.wf
  rw [hacc.height_eq, hacc.leafCount_eq, len, hwf.len_eq, hchunks]
  refine ⟨hbal.fib_height_le, ?_⟩
  rw [lenOf, ← length_map SequenceLeaf.len]
  exact length_le_sum_of_one_le _ (forall_mem_map.mpr (hchunks ▸ hwf.pos))

theorem reachable_logHeight_insert :
    ((fromString crLfText 0).1.replaceRange 3 3 crLfText 2).1.1.LogHeight :=
  reachable_logHeight (.replaceRange 3 3 crLfText 2 (.fromString crLfText 0) trivial)

end ChunkedText

end SpaceQuery.Editor
