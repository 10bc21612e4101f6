import SpaceQuery.Editor.PersistentSequence
import SpaceQuery.Lib.LineBreaks
import SpaceQuery.Lib.Utf8

/-!
The rope of the editor, `ChunkedText` of `chunked_text.rs`: a persistent sequence of
chunks, each of which is a range of a shared string with the line breaks of that string.
-/

namespace SpaceQuery.Editor

open Utf8

def textChunkTargetBytes : ℕ := 32 * 1024

def textChunkRechunkMinBytes : ℕ := 16 * 1024

/-! ### Chunks -/

/-- A slice of a shared text, with its line breaks. -/
structure TextChunk where
  storage : Arc Str
  storageLineBreaks : Arc (List ℕ)
  storageIsAscii : Bool
  start : ℕ
  stop : ℕ
  lineBreakStart : ℕ
  lineBreakEnd : ℕ
  deriving DecidableEq

/-- `partition_point` of a list whose elements with the property come first. -/
def partitionPoint {α : Type} (xs : List α) (p : α → Bool) : ℕ := (xs.takeWhile p).length

namespace TextChunk

def fromStorage (storage : Arc Str) (storageLineBreaks : Arc (List ℕ)) (storageIsAscii : Bool)
    (start stop : ℕ) : TextChunk :=
  let start := min start storage.val.len
  let stop := max (min stop storage.val.len) start
  { storage := storage
    storageLineBreaks := storageLineBreaks
    storageIsAscii := storageIsAscii
    start := start
    stop := stop
    lineBreakStart := partitionPoint storageLineBreaks.val (· < start)
    lineBreakEnd := partitionPoint storageLineBreaks.val (· < stop) }

variable (chunk : TextChunk)

def asStr : Str :=
  (chunk.storage.val.get chunk.start chunk.stop).getD Str.empty

def lineBreaks : List ℕ :=
  if chunk.lineBreakStart ≤ chunk.lineBreakEnd ∧
      chunk.lineBreakEnd ≤ chunk.storageLineBreaks.val.length then
    (chunk.storageLineBreaks.val.take chunk.lineBreakEnd).drop chunk.lineBreakStart
  else []

def len : ℕ := chunk.stop - chunk.start

def secondaryLen : ℕ := chunk.lineBreakEnd - chunk.lineBreakStart

def secondaryCountBefore (position : ℕ) : ℕ :=
  let absolute := chunk.start + min position chunk.len
  partitionPoint chunk.lineBreaks (· < absolute)

def secondaryPosition (ordinal : ℕ) : Option ℕ :=
  (chunk.lineBreaks[ordinal]?).map (· - chunk.start)

/-- The part of a chunk from `start` to `stop`, positions of its string. -/
def part (start stop : ℕ) : TextChunk :=
  fromStorage chunk.storage chunk.storageLineBreaks chunk.storageIsAscii start stop

def splitAt (position : ℕ) : Option TextChunk × Option TextChunk :=
  let position := min position chunk.len
  let absolute := min (chunk.start + position) chunk.stop
  (if chunk.start < absolute then some (chunk.part chunk.start absolute) else none,
    if absolute < chunk.stop then some (chunk.part absolute chunk.stop) else none)

end TextChunk

/-! ### Strings as chunks -/

open LineBreaks

/-- The loop of `text_storage_metadata` from a position on: the line breaks, and whether
the visited bytes are ASCII. -/
def metadataFrom (idx : ℕ) : List UInt8 → List ℕ × Bool
  | [] => ([], true)
  | b :: rest =>
    if b = lf then
      (idx :: (metadataFrom (idx + 1) rest).1, b < 0x80 && (metadataFrom (idx + 1) rest).2)
    else if b = cr then
      match rest with
      | [] => ([idx], b < 0x80)
      | c :: rest' =>
        if c = lf then
          ((idx + 1) :: (metadataFrom (idx + 2) rest').1,
            b < 0x80 && (metadataFrom (idx + 2) rest').2)
        else
          (idx :: (metadataFrom (idx + 1) (c :: rest')).1,
            b < 0x80 && (metadataFrom (idx + 1) (c :: rest')).2)
    else ((metadataFrom (idx + 1) rest).1, b < 0x80 && (metadataFrom (idx + 1) rest).2)

variable (bytes : List UInt8)

def textStorageMetadata : List ℕ × Bool := metadataFrom 0 bytes

/-- `while end > start && !storage.is_char_boundary(end)`. -/
def retreatToBoundary (bytes : List UInt8) (start : ℕ) : ℕ → ℕ
  | 0 => 0
  | stop + 1 =>
    if start < stop + 1 ∧ isCharBoundary bytes (stop + 1) = false then
      retreatToBoundary bytes start stop
    else stop + 1

/-- The start of the second character behind a position, or the end. -/
def secondCharIndex (start : ℕ) : ℕ :=
  ((List.range bytes.length).find? fun index => start < index && isCharBoundary bytes index).getD
    bytes.length

/-- The end of the chunk that starts at a position. -/
def chunkEnd (start : ℕ) : ℕ :=
  let stop := retreatToBoundary bytes start (min (start + textChunkTargetBytes) bytes.length)
  let stop := if stop = start then secondCharIndex bytes start else stop
  if stop < bytes.length ∧ bytes[stop - 1]? = some cr ∧
      bytes[stop]? = some lf then stop + 1
  else stop

/-- The loop of `split_text_chunks_from_storage` from a position on; every round advances,
so that the length of the string bounds the rounds. -/
def chunksFrom (storage : Arc Str) (storageLineBreaks : Arc (List ℕ)) (storageIsAscii : Bool) :
    ℕ → ℕ → List TextChunk
  | 0, _ => []
  | rounds + 1, start =>
    if start < storage.val.len then
      let stop := chunkEnd storage.val.bytes start
      TextChunk.fromStorage storage storageLineBreaks storageIsAscii start stop
        :: chunksFrom storage storageLineBreaks storageIsAscii rounds stop
    else []

def splitTextChunksFromStorage (storage : Arc Str) : Alloc (List TextChunk) := do
  if storage.val.bytes = [] then return []
  else
    let (lineBreaks, storageIsAscii) := textStorageMetadata storage.val.bytes
    let storageLineBreaks ← Arc.new lineBreaks
    return chunksFrom storage storageLineBreaks storageIsAscii storage.val.len 0

def splitTextChunksFromString (text : Str) : Alloc (List TextChunk) := do
  splitTextChunksFromStorage (← Arc.new text)

namespace TextChunk

def rechunkPair (left right : TextChunk) : Alloc (List TextChunk) := do
  let combinedLen := left.len + right.len
  let joinsCrlf := left.asStr.bytes.getLast? = some cr ∧
    right.asStr.bytes.head? = some lf
  if left.storage.ptrEq right.storage ∧ left.storageLineBreaks.ptrEq right.storageLineBreaks ∧
      left.stop = right.start then
    return [left.part left.start right.stop]
  else if ¬ joinsCrlf ∧ textChunkTargetBytes < combinedLen ∧
      textChunkRechunkMinBytes ≤ left.len ∧ textChunkRechunkMinBytes ≤ right.len then
    return [left, right]
  else if ¬ joinsCrlf ∧ textChunkTargetBytes < combinedLen ∧
      (textChunkTargetBytes ≤ left.len ∨ textChunkTargetBytes ≤ right.len) then
    return [left, right]
  else splitTextChunksFromString (left.asStr.append right.asStr)

instance : SequenceLeaf TextChunk where
  len := len
  secondaryLen := secondaryLen
  secondaryCountBefore := secondaryCountBefore
  secondaryPosition := secondaryPosition
  splitAt := splitAt
  rechunkPair := rechunkPair

end TextChunk

/-! ### Texts -/

/-- A text as a tree of chunks. -/
structure ChunkedText where
  tree : PersistentSequence TextChunk

namespace ChunkedText

def fromString (text : Str) : Alloc ChunkedText := do
  return ⟨.fromLeaves (← splitTextChunksFromString text)⟩

def fromSharedString (text : Arc Str) : Alloc ChunkedText := do
  return ⟨.fromLeaves (← splitTextChunksFromStorage text)⟩

/-- `ChunkedText::default`. -/
def default : ChunkedText := ⟨⟨none⟩⟩

def len (t : ChunkedText) : ℕ := t.tree.len

variable (t : ChunkedText)

def isEmpty : Bool := t.len = 0

/-- The visitor of `matches_str`: whether the chunks so far match, and where they end. -/
def matchPart (other : Str) (state : Bool × ℕ) (chunk : TextChunk) : Bool × ℕ :=
  if state.1 then
    let stop := state.2 + chunk.len
    (other.get state.2 stop = some chunk.asStr, stop)
  else state

def matchesStr (other : Str) : Bool :=
  if t.len ≠ other.len then false
  else
    let (isMatch, offset) := t.tree.leaves.foldl (matchPart other) (true, 0)
    isMatch && offset = other.len

def byteAt (position : ℕ) : Option UInt8 :=
  (t.tree.locate position).bind fun (chunk, offset) => chunk.asStr.bytes[offset]?

def isCharBoundary (position : ℕ) : Bool :=
  if position = 0 ∨ position = t.len then true
  else (t.byteAt position).any fun byte => byte &&& 0xC0 != 0x80

/-- `while position > 0 && !self.is_char_boundary(position)`. -/
def retreat (t : ChunkedText) : ℕ → ℕ
  | 0 => 0
  | position + 1 => if t.isCharBoundary (position + 1) then position + 1 else t.retreat position

def clampBoundary (position : ℕ) : ℕ := t.retreat (min position t.len)

/-- The visitor of `range_string`: the text so far, and whether every part was there. -/
def pushPart (state : Str × Bool) (visit : TextChunk × ℕ × ℕ) : Str × Bool :=
  match visit.1.asStr.get visit.2.1 visit.2.2 with
  | some text => (state.1.append text, state.2)
  | none => (state.1, false)

variable (start stop : ℕ)

def rangeString : Option Str :=
  let start := t.clampBoundary (min start t.len)
  let stop := t.clampBoundary (min stop t.len)
  if stop < start then some Str.empty
  else
    let (result, valid) := (t.tree.visitRange start stop).foldl pushPart (Str.empty, true)
    if valid && result.len = stop - start then some result else none

def toFlatString : Str := (t.rangeString 0 t.len).getD Str.empty

def slice : Option ChunkedText :=
  let start := t.clampBoundary (min start t.len)
  let stop := t.clampBoundary (min stop t.len)
  if stop < start then none
  else
    let (_, tail) := SequenceNode.splitNode t.tree.root start
    let (root, _) := SequenceNode.splitNode tail (stop - start)
    some ⟨⟨root⟩⟩

/-- The body that the replacements share: the text with `inserted` in place of the range,
and whether the range was in order. -/
def replaceWith (inserted : Alloc (PersistentSequence TextChunk)) : Alloc (ChunkedText × Bool) := do
  let start := t.clampBoundary (min start t.len)
  let stop := t.clampBoundary (min stop t.len)
  if stop < start then return (t, false)
  else return (⟨← t.tree.replaceRange start stop (← inserted)⟩, true)

def replaceRange (inserted : Str) : Alloc (ChunkedText × Bool) :=
  t.replaceWith start stop do return .fromLeaves (← splitTextChunksFromString inserted)

def replaceRangeShared (inserted : Arc Str) : Alloc (ChunkedText × Bool) :=
  t.replaceWith start stop do return .fromLeaves (← splitTextChunksFromStorage inserted)

def replaceRangeChunked (inserted : ChunkedText) : Alloc (ChunkedText × Bool) :=
  t.replaceWith start stop do return inserted.tree

end ChunkedText

end SpaceQuery.Editor
