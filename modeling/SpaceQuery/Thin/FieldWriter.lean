import SpaceQuery.Thin.CursorTracking

/-!
The writers of byte fields and universal integers in `tns-thin/src/session.rs`, and what a
`PacketCursor` reads of them.

A field of at most 252 bytes is its length and its bytes. A longer one is marked by `0xfe` and sent
in chunks, whose lengths are bytes or universal integers, with an empty chunk at the end.
-/

namespace SpaceQuery.Thin

open UInt8 List

open ByteFields (beBytes beValue)
open PacketCursor CursorM

/-! ### Writers -/

def tnsLegacyClrChunkSize : ℕ := 0x40

def tnsBigClrChunkSize : ℕ := 32767

def writeUb8 (value : ℕ) : Bytes :=
  if value = 0 then [0]
  else if value < 2 ^ 8 then 1 :: beBytes 1 value
  else if value < 2 ^ 16 then 2 :: beBytes 2 value
  else if value < 2 ^ 32 then 4 :: beBytes 4 value
  else 8 :: beBytes 8 value

/-- `slice::chunks`, at most as many as there are bytes. -/
def chunksOf (size : ℕ) : ℕ → Bytes → List Bytes
  | 0, _ => []
  | _ + 1, [] => []
  | fuel + 1, byte :: value =>
    (byte :: value).take size :: chunksOf size fuel ((byte :: value).drop size)

def chunks (size : ℕ) (value : Bytes) : List Bytes := chunksOf size value.length value

/-- A chunk with its length in front of it. -/
def writeChunk (bigClrChunks : Bool) (chunk : Bytes) : Bytes :=
  if bigClrChunks then writeUb8 chunk.length ++ chunk else ofNat chunk.length :: chunk

def clrChunkSize (bigClrChunks : Bool) : ℕ :=
  if bigClrChunks then tnsBigClrChunkSize else tnsLegacyClrChunkSize

def writeBytesWithLengthWithBigChunks (value : Bytes) (bigClrChunks : Bool) : Bytes :=
  if value.length ≤ 252 then ofNat value.length :: value
  else
    0xfe :: ((chunks (clrChunkSize bigClrChunks) value).flatMap (writeChunk bigClrChunks)
      ++ writeChunk bigClrChunks [])

/-! ### What a cursor delivers -/

/-- The bytes of the packets up to the end of the response. -/
def deliverable : List DataPacket → Bytes
  | [] => []
  | packet :: packets =>
    packet.payload ++ if endFlags packet.dataFlags then [] else deliverable packets

namespace PacketCursor

/-- The bytes that reads of a cursor can deliver. -/
def available (c : PacketCursor) : Bytes :=
  c.data.drop c.pos ++ if c.endOfResponseSeen then [] else deliverable c.packetsLeft

/-- The modes of a cursor stay as they are. -/
def SameModes (c c' : PacketCursor) : Prop :=
  c'.bigClrChunks = c.bigClrChunks ∧ c'.legacyNullClr = c.legacyNullClr

end PacketCursor

variable {c : PacketCursor}

/-- The next packet adds to the bytes in front of the cursor, and takes nothing away. -/
lemma fetchNextPacket_available (ctx : String) (h : c.remaining < c.available.length) :
    ∃ c', fetchNextPacket ctx c = (.ok (), c') ∧ c'.available = c.available ∧ SameModes c c' ∧
      c'.packetsLeft.length < c.packetsLeft.length := by
  obtain ⟨source, pos, big, legacy⟩ := c
  cases source with
  | slice data => simp [available, remaining, endOfResponseSeen, packetsLeft, deliverable] at h
  | stream source =>
    cases hseen : source.endFlagsSeen with
    | true => simp [available, remaining, endOfResponseSeen, data, hseen] at h
    | false =>
      cases hstream : source.stream with
      | nil =>
        simp [available, remaining, endOfResponseSeen, packetsLeft, deliverable, data, hseen,
          hstream] at h
      | cons packet stream =>
        obtain ⟨hdrop, hle, hstream', hseen'⟩ := Fetched.compact_spec source pos
        have hbuf : ((compact source pos).1.buf ++ packet.payload).drop (compact source pos).2
            = source.buf.drop pos ++ packet.payload := by rw [drop_append_of_le_length hle, hdrop]
        refine ⟨⟨.stream ⟨(compact source pos).1.buf ++ packet.payload, stream,
          endFlags packet.dataFlags⟩, (compact source pos).2, big, legacy⟩, ?_, ?_,
          ⟨rfl, rfl⟩, ?_⟩
        · simp [fetchNextPacket, hseen, hseen', hstream', hstream]
        · simp only [available, data, endOfResponseSeen, packetsLeft, hbuf, hseen, hstream,
            deliverable, append_assoc]
          rfl
        · simp [packetsLeft, hstream]

open Comp

lemma ensureLoop_available {len : ℕ} (ctx : String) {fuel : ℕ} (hfuel : c.packetsLeft.length < fuel)
    (h : len ≤ c.available.length) :
    ∃ c', ensureLoop len ctx fuel c = (.ok (), c') ∧ c'.available = c.available ∧ SameModes c c' ∧
      len ≤ c'.remaining := by
  induction fuel generalizing c with
  | zero => omega
  | succ fuel ih =>
    rw [Fetched.ensureLoop_succ]
    by_cases hlen : c.remaining < len
    · obtain ⟨c₁, hfetch, havail, hmodes, hleft⟩ :=
        fetchNextPacket_available ctx (hlen.trans_le h)
      obtain ⟨c₂, hloop, havail', hmodes', hlen'⟩ :=
        ih (c := c₁) (by omega) (by rwa [havail])
      refine ⟨c₂, ?_, havail'.trans havail,
        ⟨hmodes'.1.trans hmodes.1, hmodes'.2.trans hmodes.2⟩, hlen'⟩
      rw [if_pos hlen, bind_ok hfetch, hloop]
    · rw [if_neg hlen]
      exact ⟨c, rfl, rfl, ⟨rfl, rfl⟩, not_lt.mp hlen⟩

lemma ensureAvailable_available (len : ℕ) (ctx : String) (h : len ≤ c.available.length) :
    ∃ c', ensureAvailable len ctx c = (.ok (), c') ∧ c'.available = c.available ∧ SameModes c c' ∧
      len ≤ c'.remaining := by
  obtain ⟨c', hloop, hrest⟩ := ensureLoop_available ctx (Nat.lt_succ_self _) h
  exact ⟨c', (bind_ok (get_apply packetsLeft c) _).trans hloop, hrest⟩

/-- The bytes behind those that a cursor moves on by. -/
lemma available_advance {len : ℕ} (h : len ≤ c.remaining) :
    ({ c with pos := c.pos + len } : PacketCursor).available = c.available.drop len := by
  have hdrop : (c.data.drop c.pos).length = c.remaining := length_drop
  rw [available, available, drop_append_of_le_length (by omega), drop_drop]
  rfl

/-! ### Reads -/

/-- A read of some bytes, in a mode of the chunks: it returns the value and leaves the cursor
behind the bytes. -/
def Yields {α : Type} (bigClrChunks : Bool) (read : CursorM α) (bytes : Bytes) (value : α) :
    Prop :=
  ∀ (c : PacketCursor) (rest : Bytes), c.bigClrChunks = bigClrChunks → c.available = bytes ++ rest →
      ∃ c', read c = (.ok value, c') ∧ c'.available = rest ∧ SameModes c c'

namespace Yields

variable {α β : Type} {big : Bool}

lemma pure (a : α) : Yields big (Pure.pure a) [] a := fun c _ _ h => ⟨c, rfl, h, rfl, rfl⟩

lemma bind {m : CursorM α} {f : α → CursorM β} {bytes bytes' : Bytes} {a : α} {b : β}
    (hm : Yields big m bytes a) (hf : Yields big (f a) bytes' b) :
    Yields big (m >>= f) (bytes ++ bytes') b := by
  intro c rest hbig h
  rw [append_assoc] at h
  obtain ⟨c₁, hrun, hrest, hmodes⟩ := hm c _ hbig h
  obtain ⟨c₂, hrun', hrest', hmodes'⟩ := hf c₁ rest (hmodes.1.trans hbig) hrest
  exact ⟨c₂, (bind_ok hrun f).trans hrun', hrest',
    hmodes'.1.trans hmodes.1, hmodes'.2.trans hmodes.2⟩

/-- A computation that reads nothing more. -/
lemma bind_nil {m : CursorM α} {f : α → CursorM β} {bytes : Bytes} {a : α} {b : β}
    (hm : Yields big m bytes a) (hf : Yields big (f a) [] b) : Yields big (m >>= f) bytes b := by
  simpa using hm.bind hf

/-- What is seen of the cursor is looked at before a read. -/
lemma get {f : PacketCursor → α} {g : α → CursorM β} {bytes : Bytes} {b : β}
    (h : ∀ c rest, c.bigClrChunks = big → c.available = bytes ++ rest →
      ∃ c', g (f c) c = (.ok b, c') ∧ c'.available = rest ∧ SameModes c c') :
    Yields big (get f >>= g) bytes b := fun c rest hbig hc =>
  h c rest hbig hc

end Yields

section

variable {big : Bool}

lemma readRaw_yields (bytes : Bytes) : Yields big (readRaw bytes.length) bytes bytes := by
  intro c rest hbig h
  obtain ⟨c₁, hensure, havail, hmodes, hlen⟩ :=
    ensureAvailable_available bytes.length "short TTC packet while reading bytes" (c := c)
      (by rw [h, length_append]; omega)
  have htake : (c₁.data.drop c₁.pos).take bytes.length = bytes := by
    have hdrop : (c₁.data.drop c₁.pos).length = c₁.remaining := length_drop
    have hall := congrArg (take bytes.length) (havail.trans h)
    rwa [available, take_append_of_le_length (by omega), take_left] at hall
  refine ⟨{ c₁ with pos := c₁.pos + bytes.length }, ?_, ?_, hmodes⟩
  · rw [readRaw, bind_ok hensure, bind_ok (get_apply _ c₁), htake]
    rfl
  · rw [available_advance hlen, havail, h, drop_left]

lemma readU8_yields (byte : UInt8) : Yields big readU8 [byte] byte := by
  intro c rest hbig h
  obtain ⟨c₁, hensure, havail, hmodes, hlen⟩ :=
    ensureAvailable_available 1 "short TTC packet while reading u8" (c := c) (by rw [h]; simp)
  have hget : c₁.data.getD c₁.pos 0 = byte := by
    have hdrop : (c₁.data.drop c₁.pos).length = c₁.remaining := length_drop
    have hhead := congrArg (·[0]?) (havail.trans h)
    rw [available, getElem?_append_left (by omega), getElem?_drop] at hhead
    rw [getD_eq_getElem?_getD, ← add_zero c₁.pos, hhead]
    rfl
  refine ⟨{ c₁ with pos := c₁.pos + 1 }, ?_, ?_, hmodes⟩
  · rw [readU8, bind_ok hensure, bind_ok (get_apply _ c₁), hget]
    rfl
  · rw [available_advance hlen, havail, h]
    rfl

open Yields

/-- A universal integer of the given width. -/
lemma readUniversalUint_width {maxLen width n : ℕ} (hpos : 0 < width) (hle : width ≤ maxLen)
    (hle' : width ≤ 8) (hn : n < 256 ^ width) :
    Yields big (readUniversalUint maxLen) (ofNat width :: beBytes width n) n := by
  have hwidth : (ofNat width).toNat = width :=
    toNat_ofNat_of_lt (hle'.trans_lt (by decide))
  refine get fun c rest hbig h => ?_
  refine ((readU8_yields _).bind ?_) c rest hbig h
  rw [hwidth, if_neg (by omega), if_neg (by omega)]
  have hread : Yields big (readRaw width) (beBytes width n) (beBytes width n) := by
    have hraw : Yields big (readRaw (beBytes width n).length) _ _ := readRaw_yields _
    rwa [ByteFields.beBytes_length] at hraw
  refine hread.bind_nil ?_
  rw [ByteFields.beValue_beBytes hn]
  exact pure n

lemma readUniversalUint_yields {maxLen n : ℕ} (hlen : maxLen = 4 ∨ maxLen = 8)
    (hn : n < 256 ^ maxLen) : Yields big (readUniversalUint maxLen) (writeUb8 n) n := by
  rw [writeUb8]
  split_ifs with h₀ h₁ h₂ h₃
  · rw [h₀]
    refine get fun c rest hbig h => ?_
    refine ((readU8_yields 0).bind_nil ?_) c rest hbig h
    exact pure 0
  · exact readUniversalUint_width one_pos (by obtain rfl | rfl := hlen <;> norm_num)
      (by norm_num) h₁
  · exact readUniversalUint_width two_pos (by obtain rfl | rfl := hlen <;> norm_num)
      (by norm_num) h₂
  · exact readUniversalUint_width (by norm_num) (by obtain rfl | rfl := hlen <;> norm_num)
      (by norm_num) h₃
  · obtain rfl | rfl := hlen
    · exact absurd hn h₃
    · exact readUniversalUint_width (by norm_num) le_rfl le_rfl hn

/-- A universal integer is read back, whatever follows it. -/
lemma readUb8_yields {n : ℕ} (hn : n < 2 ^ 64) : Yields big readUb8 (writeUb8 n) n :=
  readUniversalUint_yields (.inr rfl) hn

lemma readUb4_yields {n : ℕ} (hn : n < 2 ^ 32) : Yields big readUb4 (writeUb8 n) n := by
  refine (readUniversalUint_yields (.inl rfl) hn).bind_nil ?_
  rw [if_pos hn]
  exact pure n

end

/-! ### Byte fields -/

open Yields (get pure)

lemma readChunkLen_yields {big : Bool} {chunk : Bytes} (h : chunk.length ≤ clrChunkSize big) :
    Yields big readChunkLen
      (if big then writeUb8 chunk.length else [ofNat chunk.length]) chunk.length := by
  refine get fun c rest hbig hc => ?_
  rw [hbig]
  cases big with
  | true =>
    have hlen : chunk.length ≤ 32767 := h
    exact readUb4_yields (by omega) c rest hbig hc
  | false =>
    have hlen : chunk.length ≤ 64 := h
    have hbyte : (ofNat chunk.length).toNat = chunk.length :=
      toNat_ofNat_of_lt (hlen.trans_lt (by decide))
    refine ((readU8_yields (ofNat chunk.length)).bind_nil ?_) c rest hbig hc
    rw [hbyte]
    exact pure _

variable (big : Bool)

lemma writeChunk_eq (chunk : Bytes) : writeChunk big chunk
      = (if big then writeUb8 chunk.length else [ofNat chunk.length]) ++ chunk := by
  unfold writeChunk
  cases big <;> simp

/-- The chunks of a field are read one after the other. -/
lemma chunkLoop_yields {big : Bool} {fuel : ℕ} {cs : List Bytes} (hfuel : cs.length < fuel)
    (h : ∀ chunk ∈ cs, chunk ≠ [] ∧ chunk.length ≤ clrChunkSize big) (out : Bytes) :
    Yields big (chunkLoop fuel out) (cs.flatMap (writeChunk big) ++ writeChunk big [])
      (out ++ cs.flatten) := by
  induction cs generalizing fuel out with
  | nil =>
    obtain ⟨fuel, rfl⟩ : ∃ k, fuel = k + 1 := ⟨fuel - 1, by omega⟩
    rw [writeChunk_eq, flatten_nil, append_nil, append_nil]
    have hempty : ([] : Bytes).length ≤ clrChunkSize big := Nat.zero_le _
    refine (readChunkLen_yields hempty).bind_nil ?_
    exact pure out
  | cons chunk cs ih =>
    rw [forall_mem_cons] at h
    obtain ⟨⟨hne, hlen⟩, hcs⟩ := h
    rw [length_cons] at hfuel
    obtain ⟨fuel, rfl⟩ : ∃ k, fuel = k + 1 := ⟨fuel - 1, by omega⟩
    rw [flatMap_cons, writeChunk_eq, append_assoc, append_assoc, flatten_cons, ← append_assoc out]
    refine (readChunkLen_yields hlen).bind ?_
    rw [if_neg (by simpa using hne)]
    exact (readRaw_yields chunk).bind (ih (by omega) hcs _)

lemma chunksOf_spec {size fuel : ℕ} (hsize : 0 < size) {value : Bytes} (h : value.length ≤ fuel) :
    (chunksOf size fuel value).flatten = value ∧
      ∀ chunk ∈ chunksOf size fuel value, chunk ≠ [] ∧ chunk.length ≤ size := by
  induction fuel generalizing value with
  | zero =>
    obtain rfl : value = [] := length_eq_zero_iff.mp (Nat.le_zero.mp h)
    simp [chunksOf]
  | succ fuel ih =>
    cases value with
    | nil => simp [chunksOf]
    | cons byte value =>
      have hdrop : ((byte :: value).drop size).length ≤ fuel := by
        rw [length_drop]
        omega
      obtain ⟨hflat, hchunks⟩ := ih hdrop
      rw [chunksOf]
      refine ⟨?_, forall_mem_cons.mpr ⟨⟨?_, ?_⟩, hchunks⟩⟩
      · rw [flatten_cons, hflat, take_append_drop]
      · simpa using hsize.ne'
      · rw [length_take]
        exact min_le_left _ _

lemma available_length_le (c : PacketCursor) : c.available.length ≤ c.unread.length := by
  have hdeliverable : ∀ packets, (deliverable packets).length ≤ (payloads packets).length := by
    intro packets
    induction packets with
    | nil => rfl
    | cons packet packets ih =>
      rw [deliverable, payloads_cons, length_append, length_append]
      split_ifs
      · simp
      · omega
  have := hdeliverable c.packetsLeft
  rw [available, unread, length_append, length_append]
  split_ifs
  · simp
  · omega

lemma clrChunkSize_pos : 0 < clrChunkSize big := by cases big <;> decide

lemma length_le_writeChunks (cs : List Bytes) :
    cs.length ≤ (cs.flatMap (writeChunk big)).length := by
  have hpos : ∀ n, 0 < (writeUb8 n).length := by
    intro n
    unfold writeUb8
    split_ifs <;> simp
  induction cs with
  | nil => rfl
  | cons chunk cs ih =>
    have hchunk : 0 < (writeChunk big chunk).length := by
      unfold writeChunk
      split_ifs
      · rw [length_append]
        exact Nat.add_pos_left (hpos _) _
      · simp
    rw [flatMap_cons, length_append, length_cons]
    omega

/-- The chunks of a field are read back. -/
lemma readChunks_yields (value : Bytes) :
    Yields big readChunks ((chunks (clrChunkSize big) value).flatMap (writeChunk big)
      ++ writeChunk big []) value := by
  obtain ⟨hflat, hchunks⟩ := chunksOf_spec (clrChunkSize_pos big) (le_refl value.length)
  refine get fun c rest hbig h => ?_
  have hfuel : (chunks (clrChunkSize big) value).length < c.unread.length + 1 := by
    have hle := length_le_writeChunks big (chunks (clrChunkSize big) value)
    have havail := available_length_le c
    rw [h, length_append, length_append] at havail
    omega
  have hread := chunkLoop_yields hfuel hchunks []
  rw [chunks, hflat] at hread
  exact hread c rest hbig h

/-- A byte field is read back, whatever follows it: an empty one as none. -/
lemma readBytes_yields (value : Bytes) (big : Bool) :
    Yields big readBytes (writeBytesWithLengthWithBigChunks value big)
      (if value = [] then none else some value) := by
  rw [writeBytesWithLengthWithBigChunks]
  split_ifs with hlen hnil
  · rw [hnil]
    refine (readU8_yields _).bind ?_
    exact pure none
  · -- the length is none of the reserved bytes
    have hbyte : (ofNat value.length).toNat = value.length :=
      toNat_ofNat_of_lt (hlen.trans_lt (by decide))
    have hpos := length_pos_iff.mpr hnil
    have hne : ∀ byte : UInt8, byte.toNat = 0 ∨ 252 < byte.toNat → ofNat value.length ≠ byte := by
      rintro byte hrange rfl
      omega
    refine (readU8_yields _).bind ?_
    rw [if_neg (by simp [hne 0 (by decide), hne 0xff (by decide)])]
    refine get fun c rest hbig h => ?_
    rw [if_neg (by simp [hne tnsLegacyNullLengthIndicator (by decide)]),
      if_neg (hne 0xfe (by decide)), hbyte]
    refine ((readRaw_yields value).bind_nil ?_) c rest hbig h
    exact pure (some value)
  · exact absurd (by simp_all) hlen
  · refine (readU8_yields 0xfe).bind ?_
    refine get fun c rest hbig h => ?_
    refine ((readChunks_yields big value).bind_nil ?_) c rest hbig h
    exact pure (some value)

/-- **Byte fields and universal integers are read back**, in both modes of the chunks and whatever
follows them. -/
theorem writtenFields_yield (big : Bool) :
    (∀ value, Yields big readBytes (writeBytesWithLengthWithBigChunks value big)
      (if value = [] then none else some value)) ∧
    ∀ n : UInt64, Yields big readUb8 (writeUb8 n.toNat) n.toNat :=
  ⟨fun value => readBytes_yields value big, fun n => readUb8_yields n.toNat_lt⟩

end SpaceQuery.Thin
