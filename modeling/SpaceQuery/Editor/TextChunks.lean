import SpaceQuery.Editor.ChunkedText

/-!
Chunks as ranges of valid strings, and the operations on chunks as operations on bytes.
-/

namespace SpaceQuery.Editor

open Utf8 LineBreaks TextChunk

open List hiding count

/-! ### Metadata of strings -/

/-- The positions that `text_storage_metadata` collects are the line breaks. -/
lemma metadataFrom_positions (idx : ℕ) (bytes : List UInt8) :
    (metadataFrom idx bytes).1 = (positions bytes).map (idx + ·) := by
  have hne : cr ≠ lf := by decide
  have hshift : ∀ (idx : ℕ) (ps : List ℕ),
      (ps.map (· + 1)).map (idx + ·) = ps.map (idx + 1 + ·) := by
    intro idx ps
    simp only [map_map, Function.comp_def, add_assoc, add_comm 1]
  fun_induction metadataFrom idx bytes with
  | case1 => rfl
  | case2 idx rest ih =>
    have hbreak : isBreak (lf :: rest) 0 := by
      simp [isBreak]
    rw [positions_cons, if_pos hbreak, map_cons, hshift, ← ih]
    rfl
  | case3 idx hlf => simp [positions_cons, isBreak, hne]
  | case4 idx rest hlf ih =>
    have hnot : isBreak (cr :: lf :: rest) 0 = false := by
      simp [isBreak, hne]
    have hbreak : isBreak (lf :: rest) 0 := by
      simp [isBreak]
    rw [positions_cons, hnot, if_neg Bool.false_ne_true, hshift,
      positions_cons, if_pos hbreak, map_cons, hshift, ← ih]
  | case5 idx c rest hc hlf ih =>
    have hbreak : isBreak (cr :: c :: rest) 0 := by
      simp [isBreak, hne, hc]
    rw [positions_cons, if_pos hbreak, map_cons, hshift, ← ih]
    rfl
  | case6 idx b rest hlf hcr ih =>
    have hnot : isBreak (b :: rest) 0 = false := by
      simp [isBreak, hlf, hcr]
    rw [positions_cons, hnot, if_neg Bool.false_ne_true, hshift, ← ih]

lemma textStorageMetadata_positions (bytes : List UInt8) :
    (textStorageMetadata bytes).1 = positions bytes := by
  simp [textStorageMetadata, metadataFrom_positions]

/-! ### Chunks as ranges -/

variable {storage : Arc Str} {start : ℕ}

namespace TextChunk

variable {c l r : TextChunk}

/-- A chunk is a nonempty range between boundaries of its string, and knows the line
breaks of the string in the range. -/
structure Ok (c : TextChunk) : Prop where
  lt : c.start < c.stop
  le : c.stop ≤ c.storage.val.len
  startBoundary : isCharBoundary c.storage.val.bytes c.start = true
  stopBoundary : isCharBoundary c.storage.val.bytes c.stop = true
  breaks : c.storageLineBreaks.val = positions c.storage.val.bytes
  breakStart : c.lineBreakStart = partitionPoint c.storageLineBreaks.val (· < c.start)
  breakEnd : c.lineBreakEnd = partitionPoint c.storageLineBreaks.val (· < c.stop)

/-- The bytes of a chunk. -/
def text (c : TextChunk) : List UInt8 := c.asStr.bytes

/-- The end of the chunk is not inside a CR LF pair of its string. -/
def EndsClean (c : TextChunk) : Prop := ¬ cutsCrLf c.storage.val.bytes c.stop

lemma Ok.text_eq (h : c.Ok) : c.text = (c.storage.val.bytes.take c.stop).drop c.start := by
  obtain ⟨part, hget, hbytes⟩ :=
    c.storage.val.exists_get_eq h.lt.le h.startBoundary h.stopBoundary
  rw [text, asStr, hget, ← hbytes]
  rfl

lemma Ok.length_text (h : c.Ok) : c.text.length = c.len := by
  have hle := h.le
  rw [Str.len] at hle
  rw [h.text_eq, length_drop, length_take, len]
  omega

lemma Ok.len_pos (h : c.Ok) : 0 < c.len := Nat.sub_pos_of_lt h.lt

lemma Ok.text_ne_nil (h : c.Ok) : c.text ≠ [] := by
  rw [← length_pos_iff, h.length_text]
  exact h.len_pos

lemma Ok.getElem?_text (h : c.Ok) {i : ℕ} (hi : i < c.len) :
    c.text[i]? = c.storage.val.bytes[c.start + i]? := by
  rw [len] at hi
  rw [h.text_eq, getElem?_drop, getElem?_take_of_lt (by omega)]

lemma fromStorage_range (lineBreaks : Arc (List ℕ)) (isAscii : Bool)
    {stop : ℕ} (hle : start ≤ stop) (hlen : stop ≤ storage.val.len) :
    (fromStorage storage lineBreaks isAscii start stop).start = start ∧
      (fromStorage storage lineBreaks isAscii start stop).stop = stop := by
  simp only [fromStorage]
  omega

/-- A nonempty range between two boundaries of a string is a chunk. -/
lemma fromStorage_ok {lineBreaks : Arc (List ℕ)} (isAscii : Bool)
    (hbreaks : lineBreaks.val = positions storage.val.bytes) {stop : ℕ}
    (hlt : start < stop) (hstart : isCharBoundary storage.val.bytes start)
    (hstop : isCharBoundary storage.val.bytes stop) :
    (fromStorage storage lineBreaks isAscii start stop).Ok ∧
      (fromStorage storage lineBreaks isAscii start stop).text
        = (storage.val.bytes.take stop).drop start := by
  have hlen : stop ≤ storage.val.len := le_length_of_isCharBoundary hstop
  obtain ⟨hs, he⟩ := fromStorage_range lineBreaks isAscii hlt.le hlen
  have hok : (fromStorage storage lineBreaks isAscii start stop).Ok := by
    refine ⟨?_, ?_, ?_, ?_, hbreaks, rfl, rfl⟩
    all_goals simpa only [hs, he]
  refine ⟨hok, ?_⟩
  rw [hok.text_eq, hs, he]
  rfl

/-- The cached count of line breaks is that of the text, if the chunk ends clean. -/
lemma Ok.secondaryLen_eq (h : c.Ok) (hend : c.EndsClean) : c.secondaryLen = count c.text := by
  have hle : c.stop ≤ c.storage.val.bytes.length := h.le
  have hlt := h.lt
  rw [h.text_eq, count_slice hlt.le hle hend, secondaryLen, h.breakStart, h.breakEnd,
    h.breaks, partitionPoint, partitionPoint, length_takeWhile_positions hle,
    length_takeWhile_positions (by omega)]

/-- Splitting a chunk at a boundary inside it. -/
lemma Ok.splitAt_spec (h : c.Ok) {position : ℕ} (hpos : 0 < position) (hlt : position < c.len)
    (hbound : isCharBoundary c.storage.val.bytes (c.start + position)) :
    ∃ a b, c.splitAt position = (some a, some b) ∧ a.Ok ∧ b.Ok ∧
      a.text = c.text.take position ∧ b.text = c.text.drop position ∧
      a.storage = c.storage ∧ a.stop = c.start + position ∧
      b.storage = c.storage ∧ b.stop = c.stop := by
  have hlen : c.len = c.stop - c.start := rfl
  have hmin : min (c.start + min position c.len) c.stop = c.start + position := by omega
  obtain ⟨ha, hatext⟩ := fromStorage_ok c.storageIsAscii h.breaks
    (show c.start < c.start + position by omega) h.startBoundary hbound
  obtain ⟨hb, hbtext⟩ := fromStorage_ok c.storageIsAscii h.breaks
    (show c.start + position < c.stop by omega) hbound h.stopBoundary
  refine ⟨_, _, ?_, ha, hb, ?_, ?_, rfl, ?_, rfl, ?_⟩
  · rw [splitAt, hmin, if_pos (by omega), if_pos (by omega)]
    rfl
  · rw [hatext, h.text_eq, take_drop, take_take, min_eq_left (by omega)]
  · rw [hbtext, h.text_eq, drop_drop]
  · exact (fromStorage_range _ _ (by omega) (le_length_of_isCharBoundary hbound)).2
  · exact (fromStorage_range _ _ (by omega) h.le).2

/-- The last byte of a chunk. -/
lemma Ok.getLast?_text (h : c.Ok) : c.text.getLast? = c.storage.val.bytes[c.stop - 1]? := by
  have hlen : c.len = c.stop - c.start := rfl
  have hpos := h.len_pos
  rw [getLast?_eq_getElem?, h.length_text, h.getElem?_text (by omega)]
  congr 1
  omega

end TextChunk

section Chunks

variable {bytes : List UInt8}

lemma retreatToBoundary_spec (hstart : isCharBoundary bytes start) {stop : ℕ} (hle : start ≤ stop) :
    start ≤ retreatToBoundary bytes start stop ∧
      isCharBoundary bytes (retreatToBoundary bytes start stop) := by
  induction stop with
  | zero =>
    obtain rfl : start = 0 := by omega
    exact ⟨le_rfl, rfl⟩
  | succ stop ih =>
    rw [retreatToBoundary]
    split_ifs with h
    · exact ih (by omega)
    · refine ⟨hle, ?_⟩
      by_cases heq : start = stop + 1
      · rwa [← heq]
      · simpa [show start < stop + 1 by omega] using h

lemma secondCharIndex_spec (hlt : start < bytes.length) : start < secondCharIndex bytes start ∧
      isCharBoundary bytes (secondCharIndex bytes start) := by
  rw [secondCharIndex]
  cases hfind : (range bytes.length).find?
      fun index => start < index && isCharBoundary bytes index with
  | none => simpa using hlt
  | some index => simpa using find?_some hfind

/-- A chunk of a valid string is not empty, ends at a boundary, and not inside a CR LF
pair. -/
lemma chunkEnd_spec (hvalid : Valid bytes) (hstart : isCharBoundary bytes start)
    (hlt : start < bytes.length) :
    start < chunkEnd bytes start ∧ isCharBoundary bytes (chunkEnd bytes start) ∧
      ¬ cutsCrLf bytes (chunkEnd bytes start) := by
  have hretreat := retreatToBoundary_spec hstart
    (show start ≤ min (start + textChunkTargetBytes) bytes.length by omega)
  have hsecond := secondCharIndex_spec hlt
  have hne : cr ≠ lf := by decide
  simp only [chunkEnd]
  generalize hstop : (if retreatToBoundary bytes start
      (min (start + textChunkTargetBytes) bytes.length) = start then secondCharIndex bytes start
      else retreatToBoundary bytes start (min (start + textChunkTargetBytes) bytes.length)) = stop
  have hbound : start < stop ∧ isCharBoundary bytes stop := by
    rw [← hstop]
    split_ifs with heq
    · exact hsecond
    · exact ⟨by omega, hretreat.2⟩
  split_ifs with hcut
  · obtain ⟨-, -, hlf⟩ := hcut
    refine ⟨by omega, hvalid.isCharBoundary_succ hlf (by decide), ?_⟩
    rintro ⟨-, hcr, -⟩
    rw [Nat.add_sub_cancel, hlf] at hcr
    exact hne (Option.some.inj hcr).symm
  · refine ⟨hbound.1, hbound.2, ?_⟩
    rintro ⟨-, hcr, hlf⟩
    exact hcut ⟨(List.getElem?_eq_some_iff.1 hlf).1, hcr, hlf⟩

end Chunks

/-- The bytes of a list of chunks. -/
def textOf (chunks : List TextChunk) : List UInt8 := (chunks.map text).flatten

@[simp] lemma textOf_nil : textOf [] = [] := rfl

@[simp] lemma textOf_cons (c : TextChunk) (cs : List TextChunk) :
    textOf (c :: cs) = c.text ++ textOf cs := rfl

@[simp] lemma textOf_append (cs cs' : List TextChunk) :
    textOf (cs ++ cs') = textOf cs ++ textOf cs' := by
  simp [textOf]

/-- The invariant of a list of chunks: no CR LF pair is divided between two of them. -/
structure Chunks (cs : List TextChunk) : Prop where
  ok : ∀ c ∈ cs, c.Ok
  seamless : LineBreaks.Seamless (cs.map text)

lemma chunks_nil : Chunks [] := ⟨nofun, trivial⟩

lemma drop_take_append_drop {α : Type} {xs : List α} {stop : ℕ} (hle : start ≤ stop)
    (hlen : stop ≤ xs.length) : (xs.take stop).drop start ++ xs.drop stop = xs.drop start := by
  rw [← drop_append_of_le_length (by rw [length_take]; omega), take_append_drop]

/-- The chunks of a string hold its bytes. -/
lemma chunksFrom_spec {lineBreaks : Arc (List ℕ)} (isAscii : Bool)
    (hbreaks : lineBreaks.val = positions storage.val.bytes) {rounds : ℕ}
    (hstart : isCharBoundary storage.val.bytes start) (hrounds : storage.val.len ≤ start + rounds) :
    Chunks (chunksFrom storage lineBreaks isAscii rounds start) ∧
      (∀ c ∈ chunksFrom storage lineBreaks isAscii rounds start, c.EndsClean) ∧
      textOf (chunksFrom storage lineBreaks isAscii rounds start)
        = storage.val.bytes.drop start := by
  induction rounds generalizing start with
  | zero =>
    have hend : storage.val.bytes.length ≤ start := hrounds
    exact ⟨chunks_nil, by simp [chunksFrom], (drop_eq_nil_of_le hend).symm⟩
  | succ rounds ih =>
    rw [chunksFrom]
    split_ifs with hlt
    · obtain ⟨hadvance, hstop, hcut⟩ := chunkEnd_spec storage.val.valid hstart hlt
      generalize chunkEnd storage.val.bytes start = stop at hadvance hstop hcut
      obtain ⟨⟨hok, hseam⟩, hclean, htext⟩ := ih hstop (by omega)
      obtain ⟨hchunk, hchunktext⟩ := fromStorage_ok isAscii hbreaks hadvance hstart hstop
      have hrange := (fromStorage_range lineBreaks isAscii hadvance.le
        (le_length_of_isCharBoundary hstop)).2
      have hpos : 0 < stop := by omega
      refine ⟨⟨forall_mem_cons.2 ⟨hchunk, hok⟩, ?_⟩, forall_mem_cons.2 ⟨?_, hclean⟩, ?_⟩
      · rw [map_cons, seamless_cons, ← textOf, htext, hchunk.getLast?_text, hrange, head?_drop]
        exact ⟨fun h => hcut ⟨hpos, h⟩, hseam⟩
      · rw [TextChunk.EndsClean, hrange]
        exact hcut
      · have hlen := le_length_of_isCharBoundary hstop
        rw [textOf_cons, htext, hchunktext, drop_take_append_drop hadvance.le hlen]
    · have hend : storage.val.bytes.length ≤ start := Nat.le_of_not_lt hlt
      exact ⟨chunks_nil, by simp, (drop_eq_nil_of_le hend).symm⟩

/-- The chunks of a shared string. -/
lemma splitTextChunksFromStorage_spec (storage : Arc Str) (next : ℕ) :
    Chunks (splitTextChunksFromStorage storage next).1 ∧
      (∀ c ∈ (splitTextChunksFromStorage storage next).1, c.EndsClean) ∧
      textOf (splitTextChunksFromStorage storage next).1 = storage.val.bytes := by
  rw [splitTextChunksFromStorage]
  split_ifs with hempty
  · exact ⟨chunks_nil, nofun, hempty.symm⟩
  · exact chunksFrom_spec _ (textStorageMetadata_positions storage.val.bytes) rfl (by simp)

lemma splitTextChunksFromString_spec (text : Str) (next : ℕ) :
    Chunks (splitTextChunksFromString text next).1 ∧
      (∀ c ∈ (splitTextChunksFromString text next).1, c.EndsClean) ∧
      textOf (splitTextChunksFromString text next).1 = text.bytes :=
  splitTextChunksFromStorage_spec ⟨next, text⟩ (next + 1)

/-- Rechunking a pair keeps its bytes, and its last chunk ends as the right one. -/
lemma rechunkPair_spec {l r : TextChunk} (hl : l.Ok) (hr : r.Ok) (next : ℕ) :
    Chunks (l.rechunkPair r next).1 ∧ textOf (l.rechunkPair r next).1 = l.text ++ r.text ∧
      (l.EndsClean → r.EndsClean → ∀ c ∈ (l.rechunkPair r next).1, c.EndsClean) := by
  have hpair : ¬ (l.text.getLast? = some cr ∧ r.text.head? = some lf) →
      Chunks [l, r] ∧ textOf [l, r] = l.text ++ r.text ∧
        (l.EndsClean → r.EndsClean → ∀ c ∈ [l, r], c.EndsClean) := by
    intro hseam
    refine ⟨⟨by simp [hl, hr], by simpa using hseam⟩, by simp, fun hcl hcr => ?_⟩
    simp [hcl, hcr]
  rw [rechunkPair]
  split_ifs with hmerge hlarge hlarge'
  · -- the two chunks are adjacent ranges of one string
    obtain ⟨hstorage, -, hadj⟩ := hmerge
    have hsame : l.storage = r.storage := of_decide_eq_true hstorage
    have hlt : l.start < r.stop := by
      have := hl.lt
      have := hr.lt
      omega
    obtain ⟨hok, htext⟩ := fromStorage_ok l.storageIsAscii hl.breaks hlt hl.startBoundary
      (hsame ▸ hr.stopBoundary)
    have hbytes : (l.part l.start r.stop).text = l.text ++ r.text := by
      have hllt := hl.lt
      have hrlt := hr.lt
      have hrle : r.stop ≤ r.storage.val.bytes.length := hr.le
      rw [part, htext, hl.text_eq, hr.text_eq, ← hadj, hsame,
        ← drop_take_append_drop hllt.le (by rw [length_take]; omega), take_take,
        min_eq_left (by omega)]
    have hstop : (l.part l.start r.stop).stop = r.stop :=
      (fromStorage_range _ _ hlt.le (hsame ▸ hr.le)).2
    refine ⟨⟨forall_mem_singleton.2 hok, ?_⟩, ?_, fun _ hclean => ?_⟩
    · exact ⟨fun h => (nomatch h.2), trivial⟩
    · exact (append_nil _).trans hbytes
    · refine forall_mem_singleton.2 ?_
      rw [TextChunk.EndsClean, hstop, part, hsame]
      exact hclean
  · exact hpair hlarge.1
  · exact hpair hlarge'.1
  · obtain ⟨hchunks, hclean, htext⟩ :=
      splitTextChunksFromString_spec (l.asStr.append r.asStr) next
    exact ⟨hchunks, htext, fun _ _ => hclean⟩

/-! ### Lists of chunks -/

open SequenceNode

variable {cs : List TextChunk}

lemma lenOf_eq (h : ∀ c ∈ cs, c.Ok) : lenOf cs = (textOf cs).length := by
  induction cs with
  | nil => rfl
  | cons c cs ih =>
    rw [forall_mem_cons] at h
    rw [lenOf_cons, textOf_cons, length_append, ih h.2, h.1.length_text]
    rfl

lemma chunks_cons {c : TextChunk} : Chunks (c :: cs) ↔
      c.Ok ∧ ¬ (c.text.getLast? = some cr ∧ (textOf cs).head? = some lf) ∧
        Chunks cs := by
  constructor
  · rintro ⟨hok, hseam⟩
    rw [forall_mem_cons] at hok
    exact ⟨hok.1, hseam.1, hok.2, hseam.2⟩
  · rintro ⟨hc, hseam, hok, hseams⟩
    exact ⟨forall_mem_cons.2 ⟨hc, hok⟩, hseam, hseams⟩

lemma chunks_append {cs' : List TextChunk} : Chunks (cs ++ cs') ↔
      Chunks cs ∧ Chunks cs' ∧ ¬ ((textOf cs).getLast? = some cr ∧
        (textOf cs').head? = some lf) := by
  constructor
  · rintro ⟨hok, hseam⟩
    rw [map_append, seamless_append] at hseam
    rw [forall_mem_append] at hok
    exact ⟨⟨hok.1, hseam.1⟩, ⟨hok.2, hseam.2.1⟩, hseam.2.2⟩
  · rintro ⟨⟨hok, hseam⟩, ⟨hok', hseam'⟩, hcut⟩
    refine ⟨forall_mem_append.2 ⟨hok, hok'⟩, ?_⟩
    rw [map_append, seamless_append]
    exact ⟨hseam, hseam', hcut⟩

/-- Chunks split at a position of their text: the parts hold the text in front of the
position and behind it; the chunks behind it end as before, and those in front of it do
unless the position divides a CR LF pair. -/
structure SplitsInto (cs : List TextChunk) (position : ℕ) (front back : List TextChunk) : Prop where
  chunksFront : Chunks front
  chunksBack : Chunks back
  textFront : textOf front = (textOf cs).take position
  textBack : textOf back = (textOf cs).drop position
  cleanFront : (∀ c ∈ cs, c.EndsClean) → ¬ cutsCrLf (textOf cs) position → ∀ c ∈ front, c.EndsClean
  cleanBack : (∀ c ∈ cs, c.EndsClean) → ∀ c ∈ back, c.EndsClean

variable {position : ℕ}

/-- Inside the first chunk. -/
lemma splitsInto_inside {c : TextChunk} (h : Chunks (c :: cs))
    (hpos : 0 < position) (hlt : position < c.len)
    (hbound : isCharBoundary (textOf (c :: cs)) position) :
    SplitsInto (c :: cs) position (c.splitAt position).1.toList
      ((c.splitAt position).2.toList ++ cs) := by
  obtain ⟨hc, hseam, hcs⟩ := chunks_cons.1 h
  have hbyte : ∀ i < c.len, (textOf (c :: cs))[i]? = c.storage.val.bytes[c.start + i]? := by
    intro i hi
    rw [textOf_cons, getElem?_append_left (by rw [hc.length_text]; exact hi), hc.getElem?_text hi]
  have hinside : isCharBoundary c.storage.val.bytes (c.start + position) := by
    have hstop : c.start + position < c.storage.val.bytes.length := by
      have hle : c.stop ≤ c.storage.val.bytes.length := hc.le
      have hlen : c.len = c.stop - c.start := rfl
      omega
    have hb := getElem?_eq_getElem hstop
    rw [isCharBoundary_eq hpos.ne' ((hbyte position hlt).trans hb)] at hbound
    rw [isCharBoundary_eq (by omega) hb]
    exact hbound
  obtain ⟨a, b, hsplit, ha, hb, hatext, hbtext, hasto, hastop, hbsto, hbstop⟩ :=
    hc.splitAt_spec hpos hlt hinside
  rw [hsplit]
  have hle : position ≤ c.text.length := by rw [hc.length_text]; omega
  have hblast : b.text.getLast? = c.text.getLast? := by
    rw [hbtext, getLast?_drop, if_neg (by rw [hc.length_text]; omega)]
  constructor
  case chunksFront => exact chunks_cons.2 ⟨ha, by simp, chunks_nil⟩
  case chunksBack => exact chunks_cons.2 ⟨hb, by rw [hblast]; exact hseam, hcs⟩
  case textFront => simp [hatext, take_append_of_le_length hle]
  case textBack => simp [hbtext, drop_append_of_le_length hle]
  case cleanFront =>
    intro _ hcut
    refine forall_mem_singleton.2 ?_
    rw [TextChunk.EndsClean, hasto, hastop]
    rintro ⟨-, hcr, hlf⟩
    refine hcut ⟨hpos, ?_, ?_⟩
    · rw [hbyte _ (by omega), ← hcr]
      congr 1
      omega
    · rw [hbyte _ hlt, hlf]
  case cleanBack =>
    intro hclean
    rw [forall_mem_cons] at hclean
    refine forall_mem_cons.2 ⟨?_, hclean.2⟩
    rw [TextChunk.EndsClean, hbsto, hbstop]
    exact hclean.1

/-- Behind the first chunk. -/
lemma SplitsInto.cons {c : TextChunk} {front back : List TextChunk} (h : Chunks (c :: cs))
    (hle : c.text.length ≤ position)
    (hsplit : SplitsInto cs (position - c.text.length) front back) :
    SplitsInto (c :: cs) position (c :: front) back := by
  obtain ⟨hc, hseam, hcs⟩ := chunks_cons.1 h
  constructor
  case chunksFront =>
    refine chunks_cons.2 ⟨hc, ?_, hsplit.chunksFront⟩
    rw [hsplit.textFront, head?_take]
    rintro ⟨hcr, hlf⟩
    split_ifs at hlf
    exact hseam ⟨hcr, hlf⟩
  case chunksBack => exact hsplit.chunksBack
  case textFront =>
    rw [textOf_cons, textOf_cons, hsplit.textFront, take_append, take_of_length_le hle]
  case textBack =>
    rw [hsplit.textBack, textOf_cons, drop_append, drop_eq_nil_of_le hle, nil_append]
  case cleanFront =>
    intro hclean hcut
    rw [forall_mem_cons] at hclean
    exact forall_mem_cons.2 ⟨hclean.1,
      hsplit.cleanFront hclean.2 fun h => hcut (cutsCrLf_append_right h)⟩
  case cleanBack =>
    intro hclean
    exact hsplit.cleanBack (forall_mem_cons.1 hclean).2

/-- Splitting chunks at a boundary of their text splits the text. -/
lemma splitLeaves_spec (h : Chunks cs) (hbound : isCharBoundary (textOf cs) position) :
    SplitsInto cs position (splitLeaves cs position).1 (splitLeaves cs position).2 := by
  induction cs generalizing position with
  | nil => exact ⟨chunks_nil, chunks_nil, by simp [splitLeaves], by simp [splitLeaves],
      fun h _ => h, id⟩
  | cons c cs ih =>
    have hc := (chunks_cons.1 h).1
    have hlen : SequenceLeaf.len c = c.text.length := hc.length_text.symm
    rw [splitLeaves]
    split_ifs with hzero hlt
    · exact ⟨chunks_nil, h, by simp [hzero], by simp [hzero], by simp, id⟩
    · exact splitsInto_inside h (pos_of_ne_zero hzero) hlt hbound
    · have hle : c.text.length ≤ position := by omega
      have hbound' : isCharBoundary (textOf cs) (position - c.text.length) := by
        obtain heq | hgt := hle.eq_or_lt
        · simp [heq]
        · rwa [textOf_cons, isCharBoundary_append_right hgt] at hbound
      rw [hlen]
      exact (ih (chunks_cons.1 h).2.2 hbound').cons h hle

/-- Joining chunks joins their texts, and divides no CR LF pair. -/
lemma joinLeaves_spec {cs' : List TextChunk} (h : Chunks cs) (h' : Chunks cs') (next : ℕ) :
    Chunks (joinLeaves cs cs' next) ∧ textOf (joinLeaves cs cs' next) = textOf cs ++ textOf cs' ∧
      ((∀ c ∈ cs, c.EndsClean) → (∀ c ∈ cs', c.EndsClean) →
        ∀ c ∈ joinLeaves cs cs' next, c.EndsClean) := by
  obtain rfl | ⟨front, l, rfl⟩ := eq_nil_or_concat' cs
  · simp [h']
  · cases cs' with
    | nil => simp [h]
    | cons r back =>
      obtain ⟨hfront, hl, hseam⟩ := chunks_append.1 h
      obtain ⟨hr, hseam', hback⟩ := chunks_cons.1 h'
      have hlok := (chunks_cons.1 hl).1
      obtain ⟨hmid, hmidtext, hmidclean⟩ := rechunkPair_spec hlok hr next
      have hjoin : joinLeaves (front ++ [l]) (r :: back) next
          = front ++ (l.rechunkPair r next).1 ++ back := joinLeaves_concat_cons front back l r next
      rw [hjoin]
      refine ⟨chunks_append.2 ⟨chunks_append.2 ⟨hfront, hmid, ?_⟩, hback, ?_⟩, ?_, ?_⟩
      · rw [hmidtext]
        simpa [head?_append_of_ne_nil _ hlok.text_ne_nil] using hseam
      · rw [textOf_append, hmidtext, ← append_assoc, getLast?_append_of_ne_nil _ hr.text_ne_nil]
        exact hseam'
      · simp [hmidtext]
      · intro hclean hclean'
        rw [forall_mem_append, forall_mem_singleton] at hclean
        rw [forall_mem_cons] at hclean'
        rw [forall_mem_append, forall_mem_append]
        exact ⟨⟨hclean.1, hmidclean hclean.2 hclean'.1⟩, hclean'.2⟩

end SpaceQuery.Editor
