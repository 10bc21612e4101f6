import SpaceQuery.Editor.UndoHistoryInvariant

/-!
The edit of the buffer that stands for a group that is undone or redone,
`composite_buffer_edit` of `undo_history.rs`.
-/

namespace SpaceQuery.Editor

open List Utf8 EditLog

open Option hiding filter_map map map_map

/-- One edit that stands for several. -/
structure CompositeBufferEdit where
  start : ℕ
  deletedLen : ℕ
  insertedText : Str

def compositeHistoryContextBytes : ℕ := 64

/-! ### The edit -/

/-- The loop of `common_prefix_bytes`. -/
def commonChars : List Char → List Char → ℕ
  | leftChar :: left, rightChar :: right =>
    if leftChar ≠ rightChar then 0 else leftChar.utf8Size + commonChars left right
  | _, _ => 0

variable (left right : Str)

def commonPrefixBytes : ℕ := commonChars (chars left) (chars right)

/-- The loop of `common_suffix_bytes`, on the reversed texts. -/
def commonAvailable (leftAvailable rightAvailable : ℕ) : ℕ → List Char → List Char → ℕ
  | suffix, leftChar :: left, rightChar :: right =>
    if leftChar ≠ rightChar then suffix
    else if leftAvailable < suffix + leftChar.utf8Size ∨
        rightAvailable < suffix + leftChar.utf8Size then suffix
    else commonAvailable leftAvailable rightAvailable (suffix + leftChar.utf8Size) left right
  | suffix, _, _ => suffix

def commonSuffixBytes (commonPrefix : ℕ) : ℕ :=
  commonAvailable (left.len - commonPrefix) (right.len - commonPrefix) 0 (chars left).reverse
    (chars right).reverse

/-- `composite_buffer_edit` behind the window: the edit that turns one fragment into the other,
both of which start at a position. -/
def fragmentEdit (start : ℕ) (beforeFragment afterFragment : Str) : Option CompositeBufferEdit :=
  let commonPrefix := commonPrefixBytes beforeFragment afterFragment
  let commonSuffix := commonSuffixBytes beforeFragment afterFragment commonPrefix
  let replacementEnd := afterFragment.len - commonSuffix
  (afterFragment.get commonPrefix replacementEnd).map fun insertedText =>
    { start := start + commonPrefix
      deletedLen := beforeFragment.len - commonPrefix - commonSuffix
      insertedText := insertedText }

open UndoDelta (size directed splice)

def compositeBufferEdit (before after : ChunkedText) (group : List UndoDelta) (reverse : Bool) :
    Option CompositeBufferEdit :=
  match group.filter deltaChangesText with
  | [] => none
  | [first] =>
    some
      { start := first.start
        deletedLen := if reverse then first.insertedText.val.len else first.deletedText.len
        insertedText :=
          if reverse then first.deletedText.toFlatString else first.insertedText.val }
  | textDeltas => do
      let start ← (textDeltas.map UndoDelta.start).min?
      let maxStart := (textDeltas.map UndoDelta.start).max?.getD start
      let payloadBytes := (textDeltas.map size).sum
      let coverage := maxStart - start + payloadBytes + compositeHistoryContextBytes
      let beforeEnd := before.clampBoundary (min (start + coverage) before.len)
      let unchangedTail := before.len - beforeEnd
      let afterEnd := after.clampBoundary (min (max (after.len - unchangedTail) start) after.len)
      let beforeFragment ← before.rangeString start beforeEnd
      let afterFragment ← after.rangeString start afterEnd
      fragmentEdit start beforeFragment afterFragment

/-- `apply_composite_buffer_edit`: the bytes of the buffer with the edit done. -/
def applyCompositeBufferEdit (buffer : List UInt8) (edit : CompositeBufferEdit) : List UInt8 :=
  let start := min edit.start buffer.length
  let stop := min (start + edit.deletedLen) buffer.length
  buffer.take start ++ edit.insertedText.bytes ++ buffer.drop stop

/-! ### Common ends -/

lemma encode_chars (text : Str) : encode (chars text) = text.bytes := by
  obtain ⟨cs, hcs⟩ := text.valid
  have hbytes : text.bytes = RustText.asBytes (String.ofList cs) := by
    rw [RustText.asBytes_ofList, ← hcs]
    rfl
  rw [chars, hbytes, RustText.fromUtf8_asBytes, ← hbytes, ← hcs]
  simp

/-- The bytes of characters. -/
lemma length_encode_cons (c : Char) (cs : List Char) :
    (encode (c :: cs)).length = c.utf8Size + (encode cs).length := by
  rw [encode_cons, length_append, String.length_utf8EncodeChar]

lemma commonChars_spec (left right : List Char) :
    ∃ common left' right', left = common ++ left' ∧ right = common ++ right' ∧
      commonChars left right = (encode common).length := by
  fun_induction commonChars left right with
  | case1 leftChar left rightChar right hne => exact ⟨[], _, _, rfl, rfl, rfl⟩
  | case2 leftChar left rightChar right heq ih =>
    obtain ⟨common, left', right', rfl, rfl, hcnt⟩ := ih
    obtain rfl := not_not.1 heq
    exact ⟨leftChar :: common, left', right', rfl, rfl, by rw [hcnt, length_encode_cons]⟩
  | case3 => exact ⟨[], _, _, rfl, rfl, rfl⟩

lemma commonAvailable_spec (leftAvailable rightAvailable suffix : ℕ) (left right : List Char)
    (hleft : suffix ≤ leftAvailable) (hright : suffix ≤ rightAvailable) :
    ∃ common left' right', left = common ++ left' ∧ right = common ++ right' ∧
      commonAvailable leftAvailable rightAvailable suffix left right
        = suffix + (encode common).length ∧
      suffix + (encode common).length ≤ leftAvailable ∧
      suffix + (encode common).length ≤ rightAvailable := by
  fun_induction commonAvailable leftAvailable rightAvailable suffix left right with
  | case1 | case2 => exact ⟨[], _, _, rfl, rfl, rfl, hleft, hright⟩
  | case3 suffix leftChar left rightChar right heq havail ih =>
    obtain ⟨common, left', right', rfl, rfl, hcnt, hl, hr⟩ := ih (by omega) (by omega)
    obtain rfl := not_not.1 heq
    refine ⟨leftChar :: common, left', right', rfl, rfl, ?_, ?_, ?_⟩
    all_goals rw [length_encode_cons]
    all_goals omega
  | case4 => exact ⟨[], _, _, rfl, rfl, rfl, hleft, hright⟩

lemma length_encode_reverse (cs : List Char) : (encode cs.reverse).length = (encode cs).length := by
  induction cs with
  | nil => rfl
  | cons c cs ih =>
    rw [reverse_cons, encode_append, length_append, length_encode_cons,
      length_encode_cons, encode_nil, length_nil]
    omega

/-- A text and its common start with another one. -/
lemma commonPrefixBytes_spec :
    ∃ common, Valid common ∧ common.length = commonPrefixBytes left right ∧
      (∃ rest, Valid rest ∧ left.bytes = common ++ rest) ∧
      ∃ rest, Valid rest ∧ right.bytes = common ++ rest := by
  obtain ⟨common, left', right', hleft, hright, hcnt⟩ := commonChars_spec (chars left) (chars right)
  refine ⟨encode common, ⟨common, rfl⟩, hcnt.symm, ⟨encode left', ⟨left', rfl⟩, ?_⟩,
    ⟨encode right', ⟨right', rfl⟩, ?_⟩⟩
  · rw [← encode_append, ← hleft, encode_chars]
  · rw [← encode_append, ← hright, encode_chars]

/-- A text and its common end with another one, which does not reach into the common start. -/
lemma commonSuffixBytes_spec (commonPrefix : ℕ) :
    ∃ common, Valid common ∧ common.length = commonSuffixBytes left right commonPrefix ∧
      common.length ≤ left.len - commonPrefix ∧ common.length ≤ right.len - commonPrefix ∧
      (∃ rest, left.bytes = rest ++ common) ∧ ∃ rest, right.bytes = rest ++ common := by
  obtain ⟨common, left', right', hleft, hright, hcnt, hleftLen, hrightLen⟩ :=
    commonAvailable_spec (left.len - commonPrefix) (right.len - commonPrefix) 0
      (chars left).reverse (chars right).reverse (Nat.zero_le _) (Nat.zero_le _)
  rw [Nat.zero_add] at hcnt hleftLen hrightLen
  rw [reverse_eq_iff, reverse_append] at hleft hright
  refine ⟨encode common.reverse, ⟨_, rfl⟩, ?_, ?_, ?_, ⟨encode left'.reverse, ?_⟩,
    ⟨encode right'.reverse, ?_⟩⟩
  · rw [length_encode_reverse, commonSuffixBytes, hcnt]
  · rwa [length_encode_reverse]
  · rwa [length_encode_reverse]
  · rw [← encode_append, ← hleft, encode_chars]
  · rw [← encode_append, ← hright, encode_chars]

/-- The middle of a text between its start and its end. -/
lemma exists_middle {α : Type*} {text front rest back rest' : List α}
    (hfront : text = front ++ rest) (hback : text = rest' ++ back)
    (hle : back.length ≤ text.length - front.length) :
    ∃ middle, text = front ++ middle ++ back := by
  rw [hfront] at hback hle
  rw [length_append] at hle
  obtain ⟨middle, rfl, hrest⟩ | ⟨middle, rfl, hrest⟩ := append_eq_append_iff.1 hback
  · exact ⟨middle, by rw [hfront, hrest, append_assoc]⟩
  · -- the end does not reach into the start, so that nothing is left of it there
    rw [hrest, length_append] at hle
    obtain rfl : middle = [] := eq_nil_of_length_eq_zero (by omega)
    exact ⟨[], by rw [hfront, hrest]; simp⟩

lemma fragmentEdit_spec (start : ℕ) (beforeFragment afterFragment : Str) :
    ∃ front back deleted inserted, Valid (deleted ++ back) ∧ Valid back ∧
      beforeFragment.bytes = front ++ deleted ++ back ∧
      afterFragment.bytes = front ++ inserted ++ back ∧
      ∃ text : Str, text.bytes = inserted ∧ fragmentEdit start beforeFragment afterFragment
        = some ⟨start + front.length, deleted.length, text⟩ := by
  obtain ⟨front, -, hfrontLen, ⟨rest, hrest, hbefore⟩, rest', hrest', hafter⟩ :=
    commonPrefixBytes_spec beforeFragment afterFragment
  obtain ⟨back, hback, hbackLen, hle, hle', ⟨start', hbefore'⟩, start'', hafter'⟩ :=
    commonSuffixBytes_spec beforeFragment afterFragment front.length
  obtain ⟨deleted, hdel⟩ := exists_middle hbefore hbefore' hle
  obtain ⟨inserted, hins⟩ := exists_middle hafter hafter' hle'
  have hbeforeLen : beforeFragment.len = front.length + deleted.length + back.length := by
    rw [Str.len, hdel, length_append, length_append]
  have hafterLen : afterFragment.len - back.length = front.length + inserted.length := by
    rw [Str.len, hins, length_append, length_append, Nat.add_sub_cancel]
  -- the replacement stands between boundaries of the second fragment
  have hstart : isCharBoundary afterFragment.bytes front.length := by
    rw [hafter]
    exact hrest'.isCharBoundary_append _
  have hstop : isCharBoundary afterFragment.bytes (front.length + inserted.length) := by
    rw [hins, ← length_append]
    exact hback.isCharBoundary_append _
  obtain ⟨text, hget, htext⟩ := afterFragment.exists_get_eq (Nat.le_add_right _ _) hstart hstop
  have hdeletedBack : deleted ++ back = rest := by
    rw [hdel, append_assoc] at hbefore
    exact append_cancel_left hbefore
  refine ⟨front, back, deleted, inserted, hdeletedBack ▸ hrest, hback, hdel, hins, text, ?_, ?_⟩
  · rw [htext, hins, ← length_append, take_left, drop_left]
  · rw [fragmentEdit, ← hfrontLen, ← hbackLen, hafterLen, hget, map_some]
    congr 2
    omega

/-! ### The edit of a group -/

/-- The edit turns one text into the other, between boundaries of the first. -/
structure CompositeBufferEdit.Turns (edit : CompositeBufferEdit) (before after : List UInt8) :
    Prop where
  start : isCharBoundary before edit.start = true
  stop : isCharBoundary before (edit.start + edit.deletedLen) = true
  splice : before.take edit.start ++ edit.insertedText.bytes
    ++ before.drop (edit.start + edit.deletedLen) = after

/-- A buffer with the text in front of the edit has the other text behind it. -/
lemma CompositeBufferEdit.Turns.apply_eq {edit : CompositeBufferEdit} {before after : List UInt8}
    (h : edit.Turns before after) : applyCompositeBufferEdit before edit = after := by
  have hstart := le_length_of_isCharBoundary h.start
  have hstop := le_length_of_isCharBoundary h.stop
  rw [applyCompositeBufferEdit, min_eq_left hstart, min_eq_left hstop]
  exact h.splice

/-- Two texts that agree outside a window. -/
lemma turns_of_window (front : List UInt8) {back : List UInt8} (hback : Valid back)
    (beforeFragment afterFragment : Str) :
    ∃ edit, fragmentEdit front.length beforeFragment afterFragment = some edit ∧
      edit.Turns (front ++ beforeFragment.bytes ++ back)
        (front ++ afterFragment.bytes ++ back) := by
  obtain ⟨common, common', deleted, inserted, hdel, hcommon', hbefore, hafter, text, htext,
    hedit⟩ := fragmentEdit_spec front.length beforeFragment afterFragment
  have hsplit : front ++ beforeFragment.bytes ++ back
      = (front ++ common) ++ deleted ++ (common' ++ back) := by
    rw [hbefore]
    simp only [append_assoc]
  refine ⟨_, hedit, ?_, ?_, ?_⟩
  · rw [hsplit, ← length_append, append_assoc, ← append_assoc deleted]
    exact (hdel.append hback).isCharBoundary_append _
  · rw [hsplit, ← length_append, ← length_append]
    exact (hcommon'.append hback).isCharBoundary_append _
  · rw [hsplit, ← length_append, ← length_append, drop_left,
      append_assoc (front ++ common), take_left, htext, hafter]
    simp only [append_assoc]

namespace WordUndoRedoState

variable {before after : ChunkedText} {group : List UndoDelta} {reverse : Bool}

open Splice

/-- A delta changes the text if its splice does. -/
lemma deltaChangesText_eq {delta : UndoDelta} (h : delta.deletedText.Inv) (reverse : Bool) :
    deltaChangesText delta = decide (delta.directed reverse).Changes := by
  have hdel : delta.deletedText.isEmpty = decide (delta.deletedText.text = []) := by
    simp [ChunkedText.isEmpty, h.len_eq]
  have hins : (delta.insertedText.val.len = 0) = (delta.insertedText.val.bytes = []) := by
    rw [Str.len, length_eq_zero_iff]
  cases reverse with
  | false => simp [deltaChangesText, hdel, hins, Splice.Changes, directed,
      splice]
  | true => simp [deltaChangesText, hdel, hins, Splice.Changes, directed,
      splice, inverse, Bool.or_comm]

/-- The deltas of a group that change the text lead from the same text to the same text. -/
lemma Leads.filter (h : Leads reverse before.text group after.text) :
    Leads reverse before.text (group.filter deltaChangesText) after.text := by
  have hmap : (group.filter deltaChangesText).map (·.directed reverse)
      = (group.map (·.directed reverse)).filter Splice.Changes := by
    rw [filter_map]
    refine congrArg _ (filter_congr fun delta hdelta => ?_)
    exact deltaChangesText_eq (h.deletedInv delta hdelta) reverse
  obtain ⟨hconsistent, hreplay⟩ := consistent_filter h.consistent
  refine ⟨fun delta hdelta => h.deletedInv delta (mem_of_mem_filter hdelta), ?_, ?_⟩
  · rw [hmap]
    exact hconsistent
  · rw [hmap, hreplay, h.replay]

lemma directed_start (delta : UndoDelta) (reverse : Bool) :
    (delta.directed reverse).start = delta.start := by
  cases reverse <;> rfl

/-- A group of one delta. -/
lemma Leads.turns_of_singleton {delta : UndoDelta}
    (h : Leads reverse before.text [delta] after.text) :
    CompositeBufferEdit.Turns
      { start := delta.start
        deletedLen := if reverse then delta.insertedText.val.len else delta.deletedText.len
        insertedText :=
          if reverse then delta.deletedText.toFlatString else delta.insertedText.val }
      before.text after.text := by
  have hinv := h.deletedInv delta (mem_singleton_self delta)
  obtain ⟨hstart, hstop⟩ := h.consistent.1.isCharBoundary
  have hreplay := h.replay
  have hflat := hinv.agrees.flat
  cases reverse with
  | false =>
    refine ⟨hstart, ?_, ?_⟩
    · simp only [Bool.false_eq_true, if_false, hinv.len_eq]
      exact hstop
    · simp only [Bool.false_eq_true, if_false, hinv.len_eq]
      exact hreplay
  | true =>
    refine ⟨hstart, hstop, ?_⟩
    simp only [if_true, hflat]
    exact hreplay

/-- The bytes that the splices of deltas delete are among the bytes of the deltas. -/
lemma sum_deleted_le (group : List UndoDelta) (hinv : ∀ delta ∈ group, delta.deletedText.Inv)
    (reverse : Bool) :
    ((group.map (·.directed reverse)).map fun d => d.deleted.length).sum
      ≤ (group.map size).sum := by
  rw [map_map]
  refine sum_le_sum fun delta hdelta => ?_
  rw [size, (hinv delta hdelta).len_eq]
  cases reverse with
  | false => exact Nat.le_add_right _ _
  | true => exact Nat.le_add_left _ _

/-- The first start of the deltas is a boundary of both texts. -/
lemma Leads.isCharBoundary_start (h : Leads reverse before.text group after.text) {start : ℕ}
    (hmem : start ∈ group.map UndoDelta.start) (hle : ∀ p ∈ group.map UndoDelta.start, start ≤ p) :
    isCharBoundary before.text start ∧ isCharBoundary after.text start := by
  obtain ⟨delta, hdelta, rfl⟩ := mem_map.1 hmem
  have hlow : ∀ d ∈ group.map (·.directed reverse), (delta.directed reverse).start ≤ d.start := by
    intro d hd
    obtain ⟨delta', hdelta', rfl⟩ := mem_map.1 hd
    rw [directed_start, directed_start]
    exact hle _ (mem_map_of_mem hdelta')
  have hbound := isCharBoundary_of_forall_le h.consistent (mem_map_of_mem hdelta) hlow
  have hbound' := isCharBoundary_replay h.consistent hlow
  rw [h.replay, hbound] at hbound'
  rw [directed_start] at hbound hbound'
  exact ⟨hbound, hbound'⟩

/-- The end of the window is that of the text, or behind all that the deltas touch. -/
lemma window_stop {text : List UInt8} (hvalid : Valid text) {touched coverage : ℕ}
    (h : touched + 3 ≤ coverage) :
    floorBoundary text coverage = text.length ∨
      floorBoundary text coverage ≤ text.length ∧ touched ≤ floorBoundary text coverage := by
  obtain hlt | hge := lt_or_ge coverage text.length
  · have hnear := hvalid.le_floorBoundary_add hlt.le
    exact .inr ⟨floorBoundary_le_length _ _, by omega⟩
  · left
    rw [← floorBoundary_min, min_eq_right hge, floorBoundary_eq (isCharBoundary_length _)]

/-- The fragments of two texts that agree outside a window, and their edit. -/
lemma turns_of_fragments (hbefore : before.Inv) (hafter : after.Inv) {start stop : ℕ}
    (hstart : isCharBoundary before.text start) (hstart' : isCharBoundary after.text start)
    (hstop : isCharBoundary before.text stop) (hle : start ≤ stop) {middle : List UInt8}
    (hmiddle : after.text = before.text.take start ++ middle ++ before.text.drop stop) :
    ∃ beforeFragment afterFragment edit, before.rangeString start stop = some beforeFragment ∧
        after.rangeString start (after.clampBoundary
          (min (max (after.len - (before.len - stop)) start) after.len)) = some afterFragment ∧
        fragmentEdit start beforeFragment afterFragment = some edit ∧
        edit.Turns before.text after.text := by
  have hback : Valid (before.text.drop stop) :=
    ((ChunkedText.valid_textOf before.chunks).split hstop).2
  have hlen : (before.text.take start).length = start := by
    rw [length_take, min_eq_left (le_length_of_isCharBoundary hstart)]
  have hafterEnd : after.len - (before.len - stop) = start + middle.length := by
    rw [hafter.len_eq, hbefore.len_eq, hmiddle, length_append, length_append, hlen,
      length_drop, Nat.add_sub_cancel]
  have hstop' : isCharBoundary after.text (start + middle.length) := by
    have hbound := hback.isCharBoundary_append (before.text.take start ++ middle)
    rwa [← hmiddle, length_append, hlen] at hbound
  rw [hafterEnd, Nat.max_eq_left (Nat.le_add_right _ _), hafter.clampBoundary_min,
    floorBoundary_eq hstop']
  have hrange := hbefore.rangeString_eq start stop
  have hrange' := hafter.rangeString_eq start (start + middle.length)
  rw [floorBoundary_eq hstart, floorBoundary_eq hstop] at hrange
  rw [floorBoundary_eq hstart', floorBoundary_eq hstop'] at hrange'
  obtain ⟨beforeFragment, hbeforeFragment, hbytes⟩ := map_eq_some_iff.1 hrange
  obtain ⟨afterFragment, hafterFragment, hbytes'⟩ := map_eq_some_iff.1 hrange'
  obtain ⟨edit, hedit, hturns⟩ :=
    turns_of_window (before.text.take start) hback beforeFragment afterFragment
  rw [hlen] at hedit
  refine ⟨beforeFragment, afterFragment, edit, hbeforeFragment, hafterFragment, hedit, ?_⟩
  have hsplit : before.text.take start ++ beforeFragment.bytes ++ before.text.drop stop
      = before.text := by
    rw [hbytes, append_assoc,
      drop_take_append_drop hle (le_length_of_isCharBoundary hstop), take_append_drop]
  have hfragment : afterFragment.bytes = middle := by
    have htake : (before.text.take start ++ middle ++ before.text.drop stop).take
        (before.text.take start ++ middle).length = before.text.take start ++ middle :=
      take_left
    rw [length_append, hlen, ← hmiddle] at htake
    rw [hbytes', htake, drop_left' hlen]
  rwa [hsplit, hfragment, ← hmiddle] at hturns

/-- A group of deltas between two starts. -/
lemma Leads.turns_of_starts (h : Leads reverse before.text group after.text)
    (hbefore : before.Inv) (hafter : after.Inv) {start maxStart : ℕ}
    (hstart : (group.map UndoDelta.start).min? = some start)
    (hmax : (group.map UndoDelta.start).max? = some maxStart) :
    ∃ beforeFragment afterFragment edit,
      let coverage := maxStart - start + (group.map size).sum
        + compositeHistoryContextBytes
      let beforeEnd := before.clampBoundary (min (start + coverage) before.len)
      before.rangeString start beforeEnd = some beforeFragment ∧
        after.rangeString start (after.clampBoundary
          (min (max (after.len - (before.len - beforeEnd)) start) after.len)) = some afterFragment ∧
        fragmentEdit start beforeFragment afterFragment = some edit ∧
        edit.Turns before.text after.text := by
  obtain ⟨hmem, hlow⟩ := min?_eq_some_iff.1 hstart
  obtain ⟨-, hhigh⟩ := max?_eq_some_iff.1 hmax
  have hle := hhigh start hmem
  obtain ⟨hbound, hbound'⟩ := h.isCharBoundary_start hmem hlow
  dsimp only
  rw [hbefore.clampBoundary_min]
  have hpayload := sum_deleted_le group h.deletedInv reverse
  have htouched : maxStart + ((group.map (·.directed reverse)).map fun d => d.deleted.length).sum
        + 3
      ≤ start + (maxStart - start + (group.map size).sum + compositeHistoryContextBytes) := by
    rw [compositeHistoryContextBytes]
    omega
  have hstop := window_stop (ChunkedText.valid_textOf before.chunks) htouched
  have hstopBound := isCharBoundary_floorBoundary before.text (start + (maxStart - start
    + (group.map size).sum + compositeHistoryContextBytes))
  rw [← ChunkedText.text] at hstop
  have hstarts : ∀ d ∈ group.map (·.directed reverse), start ≤ d.start ∧ d.start ≤ maxStart := by
    intro d hd
    obtain ⟨delta, hdelta, rfl⟩ := mem_map.1 hd
    rw [directed_start]
    exact ⟨hlow _ (mem_map_of_mem hdelta), hhigh _ (mem_map_of_mem hdelta)⟩
  obtain ⟨middle, hmiddle⟩ := replay_window h.consistent (fun d hd => (hstarts d hd).1)
    (fun d hd => (hstarts d hd).2) hle hstop
  rw [h.replay] at hmiddle
  have hstartLen := le_length_of_isCharBoundary hbound
  exact turns_of_fragments hbefore hafter hbound hbound' hstopBound (by omega) hmiddle

/-- The edit of a group turns the text in front of it into the text behind it; a group without an
edit does not change the text. -/
lemma Leads.compositeBufferEdit (h : Leads reverse before.text group after.text)
    (hbefore : before.Inv) (hafter : after.Inv) :
    (∃ edit, compositeBufferEdit before after group reverse = some edit ∧
        edit.Turns before.text after.text) ∨
      compositeBufferEdit before after group reverse = none ∧
        (∀ delta ∈ group, deltaChangesText delta = false) ∧ after.text = before.text := by
  have hfilter := h.filter
  rw [Editor.compositeBufferEdit]
  cases hgroup : group.filter deltaChangesText with
  | nil =>
    rw [hgroup] at hfilter
    refine .inr ⟨rfl, fun delta hdelta => ?_, hfilter.replay.symm⟩
    have hnone := filter_eq_nil_iff.1 hgroup delta hdelta
    simpa using hnone
  | cons first rest =>
    rw [hgroup] at hfilter
    left
    cases rest with
    | nil => exact ⟨_, rfl, hfilter.turns_of_singleton⟩
    | cons second rest =>
      obtain ⟨start, hstart⟩ := isSome_iff_exists.1 (isSome_min?_of_mem
        (mem_cons_self (a := first.start) (l := (second :: rest).map UndoDelta.start)))
      obtain ⟨maxStart, hmax⟩ := isSome_iff_exists.1 (isSome_max?_of_mem
        (mem_cons_self (a := first.start) (l := (second :: rest).map UndoDelta.start)))
      rw [← map_cons] at hstart hmax
      obtain ⟨beforeFragment, afterFragment, edit, hbeforeFragment, hafterFragment, hedit,
        hturns⟩ := hfilter.turns_of_starts hbefore hafter hstart hmax
      refine ⟨edit, ?_, hturns⟩
      simp only [hstart, hmax, getD_some, bind_eq_bind, bind_some,
        hbeforeFragment, hafterFragment, hedit]

/-! ### Runs -/

/-- What `undo` and `redo` of the editor do: the group that is taken, its edit, the history and
the bytes of the buffer. -/
structure AppliedGroup where
  group : List UndoDelta
  compositeEdit : Option CompositeBufferEdit
  state : WordUndoRedoState
  buffer : List UInt8

def takeGroup (reverse : Bool) (s : WordUndoRedoState) :
    Alloc (List UndoDelta × WordUndoRedoState) :=
  if reverse then s.takeUndoGroup else s.takeRedoGroup

/-- `undo`, and `redo` if not `reverse`: the edit of the group that is taken is done in the
buffer. -/
def applyGroup (reverse : Bool) (s : WordUndoRedoState) (buffer : List UInt8) :
    Alloc AppliedGroup := do
  let before := s.current.text
  let (deltas, s) ← s.takeGroup reverse
  if deltas = [] then return ⟨deltas, none, s, buffer⟩
  else
    let compositeEdit := Editor.compositeBufferEdit before s.current.text deltas reverse
    return ⟨deltas, compositeEdit,
      { s with applyingHistory := false, pendingHistoryTextSnapshots := [] },
      compositeEdit.elim buffer (applyCompositeBufferEdit buffer)⟩

/-- The edit of a group turns the text in front of the group into the text behind it, and leaves
the buffer with that text; without an edit, nothing is changed. -/
structure AppliedGroup.Faithful (before : List UInt8) (applied : AppliedGroup) : Prop where
  turns : ∀ edit ∈ applied.compositeEdit, edit.Turns before applied.state.current.text.text
  unchanged : applied.compositeEdit = none →
    (∀ delta ∈ applied.group, deltaChangesText delta = false) ∧
      applied.state.current.text.text = before
  buffer : applied.buffer = applied.state.current.text.text

/-- The group that is taken leads to the text behind it. -/
lemma takeGroup_leads {s : WordUndoRedoState} (h : s.Inv) (reverse : Bool) :
    Ensures (s.takeGroup reverse) fun r =>
      r.2.Inv ∧ Leads reverse s.current.text.text r.1 r.2.current.text.text := by
  cases reverse with
  | false => exact (takeRedoGroup_spec h).mono fun r hr => ⟨hr.1, hr.2.2.2⟩
  | true => exact (takeUndoGroup_spec h).mono fun r hr => ⟨hr.1, hr.2.2.2⟩

lemma applyGroup_faithful {s : WordUndoRedoState} (h : s.Inv) (reverse : Bool) :
    Ensures (s.applyGroup reverse s.current.text.text)
      (AppliedGroup.Faithful s.current.text.text) := by
  refine (takeGroup_leads h reverse).bind fun r ⟨hinv, hleads⟩ => ?_
  obtain ⟨deltas, s'⟩ := r
  dsimp only at hinv hleads ⊢
  split_ifs with hnil
  · have htext : s'.current.text.text = s.current.text.text := by
      rw [hnil] at hleads
      exact hleads.replay.symm
    exact .pure ⟨nofun, fun _ => ⟨by simp [hnil], htext⟩, htext.symm⟩
  · refine .pure ?_
    obtain ⟨edit, hedit, hturns⟩ | ⟨hnone, hgroup, htext⟩ :=
      hleads.compositeBufferEdit h.1.currentInv hinv.1.currentInv
    · rw [hedit]
      refine ⟨fun edit' hedit' => ?_, nofun, hturns.apply_eq⟩
      rwa [← some.inj hedit']
    · rw [hnone]
      exact ⟨nofun, fun _ => ⟨hgroup, htext⟩, htext.symm⟩

/-- In every run, the edit of an undo or a redo turns the text in front of it into the text behind
it. -/
theorem run_compositeBufferEdit (isAlphanumeric : Char → Bool) (initialText : Str)
    (calls : List HistoryCall) (reverse : Bool) :
    Ensures (do
        let s ← run isAlphanumeric initialText calls
        return (s.current.text.text, ← s.applyGroup reverse s.current.text.text))
      fun r => r.2.Faithful r.1 :=
  (run_inv isAlphanumeric initialText calls).bind fun _ h =>
    (applyGroup_faithful h reverse).bind fun _ hfaithful => .pure hfaithful

end WordUndoRedoState

end SpaceQuery.Editor
