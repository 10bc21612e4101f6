import SpaceQuery.Thin.PacketCursor

/-!
A streaming cursor tracks the slice cursor over the concatenated packets.
-/

namespace SpaceQuery.Thin

open List Simulation PacketCursor CursorM Comp

open Option hiding pure_apply

/-! ### The fetched part of a response -/

/-- Some packet of the list ends the response. -/
def flagged (packets : List DataPacket) : Bool := packets.any fun p => endFlags p.dataFlags

/-- Only the last packet may end the response. -/
def OnlyLastFlagged (packets : List DataPacket) : Prop := flagged packets.dropLast = false

@[simp]
lemma payloads_append (ps qs : List DataPacket) :
    payloads (ps ++ qs) = payloads ps ++ payloads qs := by
  simp [payloads]

@[simp]
lemma payloads_cons (p : DataPacket) (ps : List DataPacket) :
    payloads (p :: ps) = p.payload ++ payloads ps := rfl

@[simp]
lemma payloads_nil : payloads [] = [] := rfl

lemma OnlyLastFlagged.flagged_eq_false {got todo : List DataPacket} {p : DataPacket}
    (h : OnlyLastFlagged (got ++ p :: todo)) : flagged got = false := by
  rw [OnlyLastFlagged, dropLast_append_of_ne_nil (by simp), flagged, any_append,
    Bool.or_eq_false_iff] at h
  exact h.1

/-- The slice cursor `c` reads the packets `got ++ todo`; the streaming cursor `s`
has fetched `got` and stands at the same byte. -/
structure Fetched (caps : CursorCapabilities) (got todo rest : List DataPacket)
    (c s : PacketCursor) : Prop where
  slice : c.source = .slice (payloads (got ++ todo))
  stream : s.source = .stream ⟨s.data, todo ++ rest, flagged got⟩
  drop_eq : s.data.drop s.pos = (payloads got).drop c.pos
  pos_le : s.pos ≤ s.data.length
  slice_pos_le : c.pos ≤ (payloads got).length
  slice_bigClrChunks : c.bigClrChunks = caps.supportsBigClrChunks
  stream_bigClrChunks : s.bigClrChunks = caps.supportsBigClrChunks
  slice_legacyNullClr : c.legacyNullClr = caps.legacyNullClr
  stream_legacyNullClr : s.legacyNullClr = caps.legacyNullClr

variable {len : ℕ}

namespace Fetched

variable {caps : CursorCapabilities} {got todo rest : List DataPacket} {c s : PacketCursor}

section

variable (h : Fetched caps got todo rest c s)

include h

lemma data_eq : c.data = payloads got ++ payloads todo := by
  rw [PacketCursor.data, h.slice]
  exact payloads_append got todo

lemma remaining_eq : s.remaining = (payloads got).length - c.pos := by
  have hlen := congrArg length h.drop_eq
  rwa [length_drop, length_drop] at hlen

lemma packetsLeft_eq : s.packetsLeft = todo ++ rest := by
  rw [packetsLeft, h.stream]

lemma endOfResponseSeen_eq : s.endOfResponseSeen = flagged got := by
  rw [endOfResponseSeen, h.stream]

/-- The two cursors have the same bytes in front of them. -/
lemma slice_drop_eq : c.data.drop c.pos = s.data.drop s.pos ++ payloads todo := by
  rw [h.data_eq, drop_append_of_le_length h.slice_pos_le, h.drop_eq]

lemma unread_eq : s.unread = c.unread ++ payloads rest := by
  have hc : c.packetsLeft = [] := by rw [packetsLeft, h.slice]
  rw [unread, unread, h.packetsLeft_eq, hc, h.slice_drop_eq, payloads_append, payloads_nil,
    append_nil, append_assoc]

/-- Both cursors move on by bytes that are in the buffer. -/
lemma advance (hlen : c.pos + len ≤ (payloads got).length) :
    Fetched caps got todo rest { c with pos := c.pos + len } { s with pos := s.pos + len } where
  slice := h.slice
  stream := h.stream
  drop_eq := by
    show drop (s.pos + len) s.data = _
    rw [← drop_drop, h.drop_eq, drop_drop]
  pos_le := by
    have hrem := h.remaining_eq
    have hpos := h.pos_le
    rw [remaining] at hrem
    show s.pos + len ≤ s.data.length
    omega
  slice_pos_le := hlen
  slice_bigClrChunks := h.slice_bigClrChunks
  stream_bigClrChunks := h.stream_bigClrChunks
  slice_legacyNullClr := h.slice_legacyNullClr
  stream_legacyNullClr := h.stream_legacyNullClr

/-- The bytes that are in the buffer are the bytes of the slice. -/
lemma take_eq (hlen : c.pos + len ≤ (payloads got).length) :
    (s.data.drop s.pos).take len = (c.data.drop c.pos).take len := by
  rw [h.slice_drop_eq, take_append_of_le_length]
  rw [length_drop]
  have hrem := h.remaining_eq
  rw [remaining] at hrem
  omega

end

/-- Compaction leaves the unread bytes where they are. -/
lemma compact_spec (source : StreamingPacketSource) (pos : ℕ) :
    (compact source pos).1.buf.drop (compact source pos).2 = source.buf.drop pos
      ∧ (compact source pos).2 ≤ (compact source pos).1.buf.length
      ∧ (compact source pos).1.stream = source.stream
      ∧ (compact source pos).1.endFlagsSeen = source.endFlagsSeen := by
  rw [compact]
  split
  · simp
  · next h =>
    refine ⟨rfl, ?_, rfl, rfl⟩
    -- a position behind the end is always compacted
    simp only [Bool.and_eq_true, decide_eq_true_eq, not_and, not_le] at h
    dsimp only
    omega

/-- One packet is fetched. -/
lemma fetchNextPacket_spec {p : DataPacket} (h : Fetched caps got (p :: todo) rest c s)
    (hflag : flagged got = false) (ctx : String) :
    ∃ s', fetchNextPacket ctx s = (.ok (), s') ∧ Fetched caps (got ++ [p]) todo rest c s' := by
  obtain ⟨hdrop, hle, hstream, hend⟩ :=
    compact_spec ⟨s.data, p :: todo ++ rest, flagged got⟩ s.pos
  rcases hcompact : compact ⟨s.data, p :: todo ++ rest, flagged got⟩ s.pos with ⟨source, pos⟩
  rw [hcompact] at hdrop hle hstream hend
  obtain ⟨buf, stream, seen⟩ := source
  obtain rfl : stream = p :: (todo ++ rest) := hstream
  obtain rfl : seen = flagged got := hend
  have hfetch : fetchNextPacket ctx s = (.ok (), { s with
      source := .stream ⟨buf ++ p.payload, todo ++ rest, flagged got || endFlags p.dataFlags⟩
      pos := pos }) := by
    rw [fetchNextPacket, h.stream]
    simp only [hflag, Bool.false_eq_true, if_false] at hcompact ⊢
    rw [hcompact]
  refine ⟨_, hfetch, ?_⟩
  constructor
  case slice => rw [h.slice, append_assoc, singleton_append]
  case stream => simp [PacketCursor.data, flagged]
  case drop_eq =>
    show (buf ++ p.payload).drop pos = _
    rw [drop_append_of_le_length hle, hdrop, h.drop_eq, payloads_append,
      drop_append_of_le_length h.slice_pos_le]
    simp
  case pos_le =>
    show pos ≤ (buf ++ p.payload).length
    rw [length_append]
    exact Nat.le_add_right_of_le hle
  case slice_pos_le =>
    rw [payloads_append, length_append]
    exact Nat.le_add_right_of_le h.slice_pos_le
  case slice_bigClrChunks => exact h.slice_bigClrChunks
  case stream_bigClrChunks => exact h.stream_bigClrChunks
  case slice_legacyNullClr => exact h.slice_legacyNullClr
  case stream_legacyNullClr => exact h.stream_legacyNullClr

/-! ### How far a read fetches -/

lemma ensureLoop_succ (len : ℕ) (ctx : String) (fuel : ℕ) (s : PacketCursor) :
    ensureLoop len ctx (fuel + 1) s =
      if s.remaining < len then (fetchNextPacket ctx >>= fun _ => ensureLoop len ctx fuel) s
      else (.ok (), s) := by
  by_cases h : s.remaining < len
  · rw [if_pos h, ensureLoop, bind_ok (get_apply remaining s), if_pos h]
  · rw [if_neg h, ensureLoop, bind_ok (get_apply remaining s), if_neg h, pure_apply]

/-- The loop fetches packets until `len` bytes are there, and not one more. -/
lemma ensureLoop_spec (ctx : String) {fuel : ℕ} (h : Fetched caps got todo rest c s)
    (hflags : OnlyLastFlagged (got ++ todo))
    (hlen : c.pos + len ≤ (payloads (got ++ todo)).length) (hfuel : todo.length < fuel) :
    ∃ got' todo' s', got ++ todo = got' ++ todo' ∧ ensureLoop len ctx fuel s = (.ok (), s')
      ∧ Fetched caps got' todo' rest c s' ∧ c.pos + len ≤ (payloads got').length
      ∧ (got' = got ∨ (payloads got'.dropLast).length < c.pos + len) := by
  induction todo generalizing got s fuel with
  | nil =>
    obtain ⟨fuel, rfl⟩ : ∃ n, fuel = n + 1 := ⟨fuel - 1, by omega⟩
    rw [append_nil] at hlen
    have hrem : ¬ s.remaining < len := by
      rw [h.remaining_eq]
      omega
    refine ⟨got, [], s, rfl, ?_, h, hlen, .inl rfl⟩
    rw [ensureLoop_succ, if_neg hrem]
  | cons p todo ih =>
    obtain ⟨fuel, rfl⟩ : ∃ n, fuel = n + 1 := ⟨fuel - 1, by omega⟩
    by_cases hrem : s.remaining < len
    · obtain ⟨s₁, hfetch, h₁⟩ := h.fetchNextPacket_spec hflags.flagged_eq_false ctx
      have happ : got ++ p :: todo = got ++ [p] ++ todo := by simp
      rw [happ] at hflags hlen
      obtain ⟨got', todo', s', heq, hrun, h', hle, hlazy⟩ :=
        ih h₁ hflags hlen (Nat.lt_of_succ_lt_succ hfuel)
      refine ⟨got', todo', s', happ.trans heq, ?_, h', hle, .inr ?_⟩
      · rw [ensureLoop_succ, if_pos hrem, bind_ok hfetch, hrun]
      · -- the packet fetched last was fetched because too few bytes were there
        rcases hlazy with rfl | hlt
        · rw [dropLast_concat]
          rw [h.remaining_eq] at hrem
          omega
        · exact hlt
    · refine ⟨got, p :: todo, s, rfl, ?_, h, ?_, .inl rfl⟩
      · rw [ensureLoop_succ, if_neg hrem]
      · rw [h.remaining_eq] at hrem
        have := h.slice_pos_le
        omega

lemma ensureAvailable_spec (ctx : String) (h : Fetched caps got todo rest c s)
    (hflags : OnlyLastFlagged (got ++ todo))
    (hlen : c.pos + len ≤ (payloads (got ++ todo)).length) :
    ∃ got' todo' s', got ++ todo = got' ++ todo' ∧ ensureAvailable len ctx s = (.ok (), s')
      ∧ Fetched caps got' todo' rest c s' ∧ c.pos + len ≤ (payloads got').length
      ∧ (got' = got ∨ (payloads got'.dropLast).length < c.pos + len) := by
  have hfuel : todo.length < s.packetsLeft.length + 1 := by
    rw [h.packetsLeft_eq, length_append]
    omega
  obtain ⟨got', todo', s', heq, hrun, hrest⟩ := h.ensureLoop_spec ctx hflags hlen hfuel
  exact ⟨got', todo', s', heq, (bind_ok (get_apply packetsLeft s) _).trans hrun, hrest⟩

/-- A round of the search for the terminator. -/
lemma findTerminator_succ (fuel scanned : ℕ) (s : PacketCursor) :
    findTerminator (fuel + 1) scanned s =
      match (s.data.drop (s.pos + scanned)).findIdx? (· == 0) with
      | some offset => (.ok (scanned + offset), s)
      | none => (fetchNextPacket "unterminated TTC null-terminated byte field" >>= fun _ =>
        findTerminator fuel s.remaining) s := by
  rw [findTerminator, bind_ok (get_apply _ s)]
  cases (s.data.drop (s.pos + scanned)).findIdx? (· == 0) with
  | some offset => rfl
  | none => rfl

/-- Where the bytes scanned so far hold no terminator, the rest decides. -/
lemma findIdx?_of_scanned {bytes : Bytes} {scanned : ℕ} (hle : scanned ≤ bytes.length)
    (hnone : ∀ b ∈ bytes.take scanned, b ≠ 0) :
    bytes.findIdx? (· == 0) = ((bytes.drop scanned).findIdx? (· == 0)).map (· + scanned) := by
  have htake : (bytes.take scanned).findIdx? (· == 0) = none := by
    rw [findIdx?_eq_none_iff]
    intro b hb
    exact beq_false_of_ne (hnone b hb)
  conv_lhs => rw [← take_append_drop scanned bytes]
  rw [findIdx?_append, htake, none_or, length_take_of_le hle]

/-- The search goes through the packets up to the one with the terminator: the
bytes scanned so far hold none, and the scan offset is relative to `pos`, so it
survives the compaction of a fetch. -/
lemma findTerminator_spec {j scanned fuel : ℕ} (h : Fetched caps got todo rest c s)
    (hflags : OnlyLastFlagged (got ++ todo))
    (hj : ((payloads (got ++ todo)).drop c.pos).findIdx? (· == 0) = some j)
    (hscan : scanned ≤ s.remaining)
    (hnone : ∀ b ∈ (s.data.drop s.pos).take scanned, b ≠ 0) (hfuel : todo.length < fuel) :
    ∃ got' todo' s', got ++ todo = got' ++ todo' ∧ findTerminator fuel scanned s = (.ok j, s')
      ∧ Fetched caps got' todo' rest c s' ∧ c.pos + (j + 1) ≤ (payloads got').length
      ∧ (got' = got ∨ (payloads got'.dropLast).length < c.pos + (j + 1)) := by
  induction todo generalizing got s fuel scanned with
  | nil =>
    obtain ⟨fuel, rfl⟩ : ∃ n, fuel = n + 1 := ⟨fuel - 1, by omega⟩
    rw [append_nil, ← h.drop_eq, findIdx?_of_scanned (by simpa [remaining] using hscan) hnone,
      drop_drop, map_eq_some_iff] at hj
    obtain ⟨offset, hoff, rfl⟩ := hj
    refine ⟨got, [], s, rfl, ?_, h, ?_, .inl rfl⟩
    · rw [findTerminator_succ, hoff, add_comm]
    · have hlt := (findIdx?_eq_some_iff_getElem.1 hoff).1
      have hrem := h.remaining_eq
      rw [length_drop] at hlt
      rw [remaining] at hrem
      omega
  | cons p todo ih =>
    obtain ⟨fuel, rfl⟩ : ∃ n, fuel = n + 1 := ⟨fuel - 1, by omega⟩
    have hdrop : (payloads (got ++ p :: todo)).drop c.pos
        = s.data.drop s.pos ++ payloads (p :: todo) := by
      rw [payloads_append, drop_append_of_le_length h.slice_pos_le, h.drop_eq]
    have hbuf := findIdx?_of_scanned (by simpa [remaining] using hscan) hnone
    rw [drop_drop] at hbuf
    rw [hdrop, findIdx?_append] at hj
    have hrem := h.remaining_eq
    have hle := h.slice_pos_le
    cases hfound : (s.data.drop (s.pos + scanned)).findIdx? (· == 0) with
    | some offset =>
      rw [hbuf, hfound, map_some, some_or, some.injEq] at hj
      refine ⟨got, p :: todo, s, rfl, ?_, h, ?_, .inl rfl⟩
      · rw [findTerminator_succ, hfound, ← hj, add_comm]
      · have hlt := (findIdx?_eq_some_iff_getElem.1 hfound).1
        rw [length_drop] at hlt
        rw [remaining] at hrem
        omega
    | none =>
      rw [hfound, map_none] at hbuf
      obtain ⟨s₁, hfetch, h₁⟩ := h.fetchNextPacket_spec hflags.flagged_eq_false
        "unterminated TTC null-terminated byte field"
      have happ : got ++ p :: todo = got ++ [p] ++ todo := by simp
      have hdrop₁ : s₁.data.drop s₁.pos = s.data.drop s.pos ++ p.payload := by
        rw [h₁.drop_eq, payloads_append, drop_append_of_le_length hle, h.drop_eq]
        simp
      have hlen : (s.data.drop s.pos).length = s.remaining := length_drop
      -- the whole buffer is scanned now, and a fetch only appends to it
      have hscan₁ : s.remaining ≤ s₁.remaining := by
        have := congrArg length hdrop₁
        rw [length_append, length_drop] at this
        rw [remaining.eq_1 s₁]
        omega
      have hnone₁ : ∀ b ∈ (s₁.data.drop s₁.pos).take s.remaining, b ≠ 0 := by
        rw [hdrop₁, take_append_of_le_length hlen.ge, take_of_length_le hlen.le]
        intro b hb
        exact ne_of_beq_false (findIdx?_eq_none_iff.1 hbuf b hb)
      have hj₁ : ((payloads (got ++ [p] ++ todo)).drop c.pos).findIdx? (· == 0) = some j := by
        rw [← happ, hdrop, findIdx?_append]
        exact hj
      obtain ⟨got', todo', s', heq, hrun, h', hle', hlazy⟩ :=
        ih h₁ (happ ▸ hflags) hj₁ hscan₁ hnone₁ (Nat.lt_of_succ_lt_succ hfuel)
      refine ⟨got', todo', s', happ.trans heq, ?_, h', hle', .inr ?_⟩
      · rw [findTerminator_succ, hfound]
        exact (bind_ok hfetch _).trans hrun
      · rcases hlazy with rfl | hlt
        · rw [hbuf, none_or, map_eq_some_iff] at hj
          rw [dropLast_concat]
          omega
        · exact hlt

end Fetched

/-! ### The tracking relation -/

/-- The streaming cursor `s` stands where the slice cursor `c` over `resp` stands,
with `rest` on the connection behind the response, and it is lazy: once a byte
behind `start` is read, the last packet fetched holds a byte that was read. -/
structure TracksAt (caps : CursorCapabilities) (start : ℕ) (got todo rest : List DataPacket)
    (c s : PacketCursor) : Prop
    extends Fetched caps got todo rest c s where
  start_le : start ≤ c.pos
  lazy_le : (payloads got.dropLast).length ≤ c.pos
  lazy_lt : start < c.pos → (payloads got.dropLast).length < c.pos

/-- The response splits into the packets fetched and those still to come. -/
def Tracks (caps : CursorCapabilities) (start : ℕ) (resp rest : List DataPacket)
    (c s : PacketCursor) : Prop :=
  ∃ got todo, resp = got ++ todo ∧ TracksAt caps start got todo rest c s

variable {c c' : PacketCursor} {caps : CursorCapabilities} {rest resp : List DataPacket} {start : ℕ}
  {s : PacketCursor}

/-- Both cursors move on by `len` bytes after the packets they lie in are fetched. -/
lemma TracksAt.advance {got todo got' todo' : List DataPacket} {s' : PacketCursor}
    (h : TracksAt caps start got todo rest c s) (h' : Fetched caps got' todo' rest c s')
    (hle : c.pos + len ≤ (payloads got').length)
    (hlazy : got' = got ∨ (payloads got'.dropLast).length < c.pos + len) :
    TracksAt caps start got' todo' rest { c with pos := c.pos + len }
      { s' with pos := s'.pos + len } where
  toFetched := h'.advance hle
  start_le := Nat.le_add_right_of_le h.start_le
  lazy_le := by
    rcases hlazy with rfl | hlt
    · exact Nat.le_add_right_of_le h.lazy_le
    · exact hlt.le
  lazy_lt := by
    intro hstart
    change start < c.pos + len at hstart
    rcases hlazy with rfl | hlt
    · have hle := h.lazy_le
      have hlt := h.lazy_lt
      show _ < c.pos + len
      by_cases hpos : start < c.pos
      · exact Nat.lt_add_right len (hlt hpos)
      · omega
    · exact hlt

/-- The failures that matter: the slice running out of bytes ends the comparison,
and the two reports of an invalid length may name other offsets. The errors in
`stop` end it from the side of the streaming cursor. -/
def cursorErrors (stop : OracleThinError → Prop) : Errors OracleThinError where
  lost e := ∃ ctx, e = .short ctx
  stop := stop
  same e e' := e = e' ∨ ∃ len start context start' context',
    e = .universalLength len start context ∧ e' = .universalLength len start' context'

namespace Tracks

variable {s : PacketCursor}
  {stop : OracleThinError → Prop}

section

variable (h : Tracks caps start resp rest c s)

include h

lemma unread_eq : s.unread = c.unread ++ payloads rest := by
  obtain ⟨got, todo, -, h⟩ := h
  exact h.toFetched.unread_eq

lemma bigClrChunks_eq : c.bigClrChunks = s.bigClrChunks := by
  obtain ⟨got, todo, -, h⟩ := h
  exact h.slice_bigClrChunks.trans h.stream_bigClrChunks.symm

lemma legacyNullClr_eq : c.legacyNullClr = s.legacyNullClr := by
  obtain ⟨got, todo, -, h⟩ := h
  exact h.slice_legacyNullClr.trans h.stream_legacyNullClr.symm

lemma data_eq : c.data = payloads resp := by
  obtain ⟨got, todo, rfl, h⟩ := h
  rw [h.toFetched.data_eq, payloads_append]

lemma source_eq : c.source = .slice (payloads resp) := by
  obtain ⟨got, todo, rfl, h⟩ := h
  exact h.slice

end

end Tracks

/-! ### The reads that fetch packets -/

/-- A slice has its bytes or it has not. -/
lemma ensureAvailable_slice {data : Bytes} (hc : c.source = .slice data) (len : ℕ) (ctx : String) :
    ensureAvailable len ctx c =
      if c.remaining < len then (.error (.short ctx), c) else (.ok (), c) := by
  have hleft : c.packetsLeft = [] := by rw [packetsLeft, hc]
  rw [ensureAvailable, bind_ok (get_apply packetsLeft c), Fetched.ensureLoop_succ]
  have hfetch : fetchNextPacket ctx c = (.error (.short ctx), c) := by
    rw [fetchNextPacket, hc]
  rw [bind_error hfetch]

/-- A read that makes sure of `len` bytes and then moves on by them returns the
same from both cursors, if it looks only at those bytes. -/
lemma Tracks.take_agree {α : Type} {stop : OracleThinError → Prop}
    (h : Tracks caps start resp rest c s) (hflags : OnlyLastFlagged resp) (len : ℕ) (ctx : String)
    (f : PacketCursor → α) (g : Bytes → α) (hf : ∀ d : PacketCursor, d.pos + len ≤ d.data.length →
      f d = g ((d.data.drop d.pos).take len)) :
    Agree (Tracks caps start resp rest) (cursorErrors stop)
      ((ensureAvailable len ctx >>= fun _ => get f >>= fun a =>
        modify (fun d => { d with pos := d.pos + len }) >>= fun _ => pure a) c)
      ((ensureAvailable len ctx >>= fun _ => get f >>= fun a =>
        modify (fun d => { d with pos := d.pos + len }) >>= fun _ => pure a) s) := by
  obtain ⟨got, todo, rfl, h⟩ := h
  have hdata := h.toFetched.data_eq
  have hslice := ensureAvailable_slice h.slice len ctx
  by_cases hrem : c.remaining < len
  · rw [if_pos hrem] at hslice
    rw [bind_error hslice]
    exact .lost _ ⟨ctx, rfl⟩
  · rw [if_neg hrem] at hslice
    have hpos := h.slice_pos_le
    have hlen : c.pos + len ≤ (payloads (got ++ todo)).length := by
      rw [remaining, hdata] at hrem
      rw [payloads_append]
      rw [length_append] at hrem ⊢
      omega
    obtain ⟨got', todo', s', heq, hrun, h', hle, hlazy⟩ :=
      h.toFetched.ensureAvailable_spec ctx hflags hlen
    have hsame : f c = f s' := by
      have hc : c.pos + len ≤ c.data.length := by rwa [hdata, ← payloads_append]
      have hs : s'.pos + len ≤ s'.data.length := by
        have hrem' := h'.remaining_eq
        have := h'.pos_le
        rw [remaining] at hrem'
        omega
      rw [hf c hc, hf s' hs, h'.take_eq hle]
    rw [bind_ok hslice, bind_ok hrun, bind_ok (get_apply f s'), ← hsame]
    exact .ok (f c) ⟨got', todo', heq, h.advance h' hle hlazy⟩

/-- The terminator is searched in all of a slice at once. -/
lemma findTerminator_slice {data : Bytes} (hc : c.source = .slice data) :
    findTerminator (c.packetsLeft.length + 1) 0 c =
      match (c.data.drop c.pos).findIdx? (· == 0) with
      | some offset => (.ok offset, c)
      | none => (.error (.short "unterminated TTC null-terminated byte field"), c) := by
  rw [Fetched.findTerminator_succ]
  cases (c.data.drop c.pos).findIdx? (· == 0) with
  | some offset => simp
  | none => exact bind_error (by rw [fetchNextPacket, hc]) _

/-! ### The bytes left bound the rounds of the chunk loop -/

/-- The number of bytes a cursor has in front of it. -/
def bytesLeft (c : PacketCursor) : ℕ := c.unread.length

lemma bytesLeft_eq (c : PacketCursor) :
    bytesLeft c = c.remaining + (payloads c.packetsLeft).length := by
  rw [bytesLeft, unread, length_append, length_drop, remaining]

/-- A fetch keeps the bytes in front of the cursor, and takes one packet when it
succeeds. -/
lemma fetchNextPacket_counts (ctx : String) (c : PacketCursor) :
    bytesLeft (fetchNextPacket ctx c).2 ≤ bytesLeft c
      ∧ (fetchNextPacket ctx c).2.packetsLeft.length ≤ c.packetsLeft.length
      ∧ ((fetchNextPacket ctx c).1 = .ok () →
        (fetchNextPacket ctx c).2.packetsLeft.length + 1 = c.packetsLeft.length) := by
  rw [fetchNextPacket, bytesLeft_eq, bytesLeft_eq]
  cases hsource : c.source with
  | slice data => simp
  | stream source =>
    by_cases hseen : source.endFlagsSeen
    · simp [hseen]
    obtain ⟨hdrop, -, hstream, -⟩ := Fetched.compact_spec source c.pos
    have hlen := congrArg length hdrop
    rw [length_drop, length_drop] at hlen
    rcases hcompact : compact source c.pos with ⟨⟨buf, stream, seen⟩, pos⟩
    rw [hcompact] at hlen hstream
    cases stream with
    | nil => simp [hseen, hcompact, remaining, packetsLeft, PacketCursor.data, hsource, hlen]
    | cons p stream =>
      have hleft : source.stream = p :: stream := hstream.symm
      simp only [hseen, hcompact, remaining, packetsLeft, PacketCursor.data, hsource, hleft,
        payloads_cons, length_append, length_cons, Bool.false_eq_true, if_false,
        implies_true, and_true]
      change buf.length - pos = source.buf.length - c.pos at hlen
      omega

/-- A measure of the cursor that neither a fetch nor moving on raises. -/
structure CursorMeasure (size : PacketCursor → ℕ) : Prop where
  fetch (ctx : String) : Comp.Shrinks size (fetchNextPacket ctx)
  advance (len : ℕ) :
    Comp.Shrinks size (modify fun c => { c with pos := c.pos + len } : CursorM Unit)

lemma bytesLeft_measure : CursorMeasure bytesLeft where
  fetch ctx c := (fetchNextPacket_counts ctx c).1
  advance len c := by
    rw [modify_apply, bytesLeft_eq, bytesLeft_eq]
    simp only [remaining, packetsLeft, PacketCursor.data]
    omega

section Measures

variable {size : PacketCursor → ℕ} (hsize : CursorMeasure size)

include hsize

lemma ensureLoop_shrinks (len : ℕ) (ctx : String) (fuel : ℕ) :
    Comp.Shrinks size (ensureLoop len ctx fuel) := by
  induction fuel with
  | zero => exact .pure ()
  | succ fuel ih =>
    exact (Comp.Shrinks.get _).bind fun _ =>
      .ite ((hsize.fetch ctx).bind fun _ => ih) (.pure ())

lemma ensureAvailable_shrinks (len : ℕ) (ctx : String) :
    Comp.Shrinks size (ensureAvailable len ctx) :=
  (Comp.Shrinks.get _).bind fun _ => ensureLoop_shrinks hsize len ctx _

lemma readRaw_shrinks (len : ℕ) : Comp.Shrinks size (readRaw len) :=
  (ensureAvailable_shrinks hsize len _).bind fun _ => (Comp.Shrinks.get _).bind fun _ =>
    (hsize.advance len).bind fun _ => .pure _

end Measures

lemma remaining_of_ensureLoop {fuel : ℕ} {ctx : String} (hfuel : c.packetsLeft.length < fuel)
    (h : ensureLoop len ctx fuel c = (.ok (), c')) : len ≤ c'.remaining := by
  induction fuel generalizing c with
  | zero => exact absurd hfuel (Nat.not_lt_zero _)
  | succ fuel ih =>
    rw [Fetched.ensureLoop_succ] at h
    by_cases hrem : c.remaining < len
    · rw [if_pos hrem] at h
      rcases hfetch : fetchNextPacket ctx c with ⟨e | u, d⟩
      · rw [bind_error hfetch] at h
        cases h
      · rw [bind_ok hfetch] at h
        have hleft := (fetchNextPacket_counts ctx c).2.2
        rw [hfetch] at hleft
        have hleft' : d.packetsLeft.length + 1 = c.packetsLeft.length := hleft rfl
        exact ih (by omega) h
    · rw [if_neg hrem] at h
      cases h
      exact Nat.le_of_not_lt hrem

/-- A byte that was read is no longer in front of the cursor. -/
lemma bytesLeft_lt_of_readU8 {b : UInt8} (h : readU8 c = (.ok b, c')) :
    bytesLeft c' < bytesLeft c := by
  rcases hensure : ensureAvailable 1 "short TTC packet while reading u8" c with ⟨e | u, d⟩
  · rw [readU8, bind_error hensure] at h
    cases h
  · rw [readU8, bind_ok hensure] at h
    cases h
    have hle := ensureAvailable_shrinks bytesLeft_measure 1 "short TTC packet while reading u8" c
    have hrem := remaining_of_ensureLoop (Nat.lt_succ_self _) hensure
    rw [hensure] at hle
    refine lt_of_lt_of_le ?_ hle
    rw [bytesLeft_eq, bytesLeft_eq]
    simp only [remaining, packetsLeft, PacketCursor.data] at hrem ⊢
    omega

lemma readUb4_lt {n : ℕ} (h : readUb4 c = (.ok n, c')) : bytesLeft c' < bytesLeft c := by
  refine lt_of_bind_ok bytesLeft (fun m d hm => ?_) (fun m => ?_) h
  · refine lt_of_bind_ok bytesLeft (fun _ _ => bytesLeft_lt_of_readU8) (fun b => ?_)
      hm
    refine .ite (.pure _) (.ite ((Comp.Shrinks.get _).bind fun _ => .fail _) ?_)
    exact (readRaw_shrinks bytesLeft_measure _).bind fun _ => .pure _
  · exact .ite (.pure _) (.fail _)

lemma readChunkLen_lt {n : ℕ} (h : readChunkLen c = (.ok n, c')) : bytesLeft c' < bytesLeft c := by
  rw [readChunkLen, bind_ok (get_apply bigClrChunks c)] at h
  by_cases hbig : c.bigClrChunks
  · rw [if_pos hbig] at h
    exact readUb4_lt h
  · rw [if_neg hbig] at h
    exact lt_of_bind_ok bytesLeft (fun _ _ => bytesLeft_lt_of_readU8) (fun _ => .pure _) h

/-- More fuel than bytes left makes no difference: every round reads a byte. -/
lemma chunkLoop_fuel {fuel fuel' : ℕ} (out : Bytes) (h : bytesLeft c < fuel)
    (h' : bytesLeft c < fuel') : chunkLoop fuel out c = chunkLoop fuel' out c := by
  induction fuel generalizing fuel' c out with
  | zero => exact absurd h (Nat.not_lt_zero _)
  | succ fuel ih =>
    obtain ⟨fuel', rfl⟩ : ∃ n, fuel' = n + 1 := ⟨fuel' - 1, by omega⟩
    rcases hlen : readChunkLen c with ⟨e | chunkLen, d⟩
    · rw [chunkLoop, chunkLoop, bind_error hlen, bind_error hlen]
    · have hlt := readChunkLen_lt hlen
      rw [chunkLoop, chunkLoop, bind_ok hlen, bind_ok hlen]
      by_cases hzero : chunkLen = 0
      · rw [if_pos hzero, if_pos hzero]
      rw [if_neg hzero, if_neg hzero]
      rcases hraw : readRaw chunkLen d with ⟨e | bytes, d'⟩
      · rw [bind_error hraw, bind_error hraw]
      · have hle := readRaw_shrinks bytesLeft_measure chunkLen d
        rw [hraw] at hle
        have hle' : bytesLeft d' ≤ bytesLeft d := hle
        rw [bind_ok hraw, bind_ok hraw]
        exact ih (out ++ bytes) (by omega) (by omega)

section Reads

variable {stop : OracleThinError → Prop} (hflags : OnlyLastFlagged resp)

include hflags

lemma readRaw_respects (len : ℕ) :
    Respects (Tracks caps start resp rest) (cursorErrors stop) (readRaw len) :=
  fun _ _ h => h.take_agree hflags len _ _ id fun _ _ => rfl

variable (stop) in
lemma readU8_respects : Respects (Tracks caps start resp rest) (cursorErrors stop) readU8 := by
  intro c s h
  refine h.take_agree hflags 1 _ _ (fun bytes => bytes.getD 0 0) ?_
  intro d hd
  rw [getD_eq_getElem?_getD, getD_eq_getElem?_getD, getElem?_take_of_lt one_pos,
    getElem?_drop, add_zero]

lemma skip_respects (len : ℕ) :
    Respects (Tracks caps start resp rest) (cursorErrors stop) (skip len) :=
  (readRaw_respects hflags len).bind fun _ => .pure ()

lemma readNullTerminatedBytes_respects :
    Respects (Tracks caps start resp rest) (cursorErrors stop) readNullTerminatedBytes := by
  rintro c s ⟨got, todo, rfl, h⟩
  rw [readNullTerminatedBytes, bind_ok (get_apply packetsLeft c), bind_ok (get_apply packetsLeft s)]
  have hslice := findTerminator_slice h.slice
  have hdata := h.toFetched.data_eq
  rw [← payloads_append] at hdata
  rw [hdata] at hslice
  cases hj : ((payloads (got ++ todo)).drop c.pos).findIdx? (· == 0) with
  | none =>
    rw [hj] at hslice
    rw [bind_error hslice]
    exact .lost _ ⟨_, rfl⟩
  | some j =>
    rw [hj] at hslice
    have hfuel : todo.length < s.packetsLeft.length + 1 := by
      rw [h.toFetched.packetsLeft_eq, length_append]
      omega
    obtain ⟨got', todo', s', heq, hrun, h', hle, hlazy⟩ :=
      h.toFetched.findTerminator_spec hflags hj (Nat.zero_le _) (by simp) hfuel
    rw [bind_ok hslice, bind_ok hrun, bind_ok (get_apply _ s'), h'.take_eq (by omega)]
    exact .ok _ ⟨got', todo', heq, h.advance h' hle hlazy⟩

/-- After the length byte, an integer is read alike. -/
lemma readUniversalUint_agree (maxLen : ℕ) {c : PacketCursor}
    (h : Agree (Tracks caps start resp rest) (cursorErrors stop) (readU8 c) (readU8 s)) :
    Agree (Tracks caps start resp rest) (cursorErrors stop) (readUniversalUint maxLen c)
      (readUniversalUint maxLen s) := by
  -- the offset observed first goes into the error only
  refine h.bind rfl rfl ?_
  intro len d d' hd
  by_cases hzero : len.toNat = 0
  · rw [if_pos hzero, if_pos hzero]
    exact .ok 0 hd
  rw [if_neg hzero, if_neg hzero]
  by_cases hlong : len.toNat > maxLen ∨ len.toNat > 8
  · rw [if_pos hlong, if_pos hlong]
    exact .error (.inr ⟨_, _, _, _, _, rfl, rfl⟩) hd
  · rw [if_neg hlong, if_neg hlong]
    exact (readRaw_respects hflags _).bind (fun _ => .pure _) d d' hd

lemma readUniversalUint_respects (maxLen : ℕ) :
    Respects (Tracks caps start resp rest) (cursorErrors stop) (readUniversalUint maxLen) :=
  fun c s h => readUniversalUint_agree hflags maxLen (readU8_respects _ hflags c s h)

lemma readUb2_respects : Respects (Tracks caps start resp rest) (cursorErrors stop) readUb2 :=
  (readUniversalUint_respects hflags 2).bind fun _ =>
    .ite (fun _ => .pure _) fun _ => .fail (.inl rfl)

lemma readUb4_respects : Respects (Tracks caps start resp rest) (cursorErrors stop) readUb4 :=
  (readUniversalUint_respects hflags 4).bind fun _ =>
    .ite (fun _ => .pure _) fun _ => .fail (.inl rfl)

lemma readSigned_respects (width : ℕ) :
    Respects (Tracks caps start resp rest) (cursorErrors stop) (readSigned width) := by
  refine (readU8_respects _ hflags).bind fun lenByte => ?_
  refine .ite (fun _ => .pure _) fun _ => .ite (fun _ => .fail (.inl rfl)) fun _ => ?_
  exact (readRaw_respects hflags _).bind fun _ => .pure _

lemma readChunkLen_respects :
    Respects (Tracks caps start resp rest) (cursorErrors stop) readChunkLen := by
  refine (Respects.observe fun _ _ h => h.bigClrChunks_eq).bind fun big => ?_
  exact .ite (fun _ => readUb4_respects hflags) fun _ =>
    (readU8_respects _ hflags).bind fun _ => .pure _

lemma chunkLoop_respects (fuel : ℕ) (out : Bytes) :
    Respects (Tracks caps start resp rest) (cursorErrors stop) (chunkLoop fuel out) := by
  induction fuel generalizing out with
  | zero => exact .pure out
  | succ fuel ih =>
    refine (readChunkLen_respects hflags).bind fun chunkLen => ?_
    refine .ite (fun _ => .pure _) fun _ => ?_
    exact (readRaw_respects hflags chunkLen).bind fun _ => ih _

/-- The two cursors count their rounds differently, but neither runs out of them. -/
lemma readChunks_respects :
    Respects (Tracks caps start resp rest) (cursorErrors stop) readChunks := by
  intro c s h
  rw [readChunks, bind_ok (get_apply unread c), bind_ok (get_apply unread s)]
  let fuel := max (bytesLeft c) (bytesLeft s) + 1
  have hc : bytesLeft c < fuel := Nat.lt_succ_of_le (le_max_left _ _)
  have hs : bytesLeft s < fuel := Nat.lt_succ_of_le (le_max_right _ _)
  have hc' : chunkLoop (c.unread.length + 1) [] c = chunkLoop fuel [] c :=
    chunkLoop_fuel [] (Nat.lt_succ_self _) hc
  have hs' : chunkLoop (s.unread.length + 1) [] s = chunkLoop fuel [] s :=
    chunkLoop_fuel [] (Nat.lt_succ_self _) hs
  rw [hc', hs']
  exact chunkLoop_respects hflags fuel [] c s h

/-- After the length byte, a byte field is read alike. -/
lemma readBytes_agree {c : PacketCursor}
    (h : Agree (Tracks caps start resp rest) (cursorErrors stop) (readU8 c) (readU8 s)) :
    Agree (Tracks caps start resp rest) (cursorErrors stop) (readBytes c) (readBytes s) := by
  refine h.bind rfl rfl fun len => ?_
  refine Respects.ite (fun _ => .pure _) fun _ => ?_
  refine (Respects.observe fun _ _ h => h.legacyNullClr_eq).bind fun legacy => ?_
  refine .ite (fun _ => .pure _) fun _ => .ite (fun _ => ?_) fun _ => ?_
  · exact (readChunks_respects hflags).bind fun _ => .pure _
  · exact (readRaw_respects hflags _).bind fun _ => .pure _

lemma readBytes_respects : Respects (Tracks caps start resp rest) (cursorErrors stop) readBytes :=
  fun c s h => readBytes_agree hflags (readU8_respects _ hflags c s h)

end Reads

/-! ### Sequences of reads -/

/-- The reading methods of the cursor. -/
inductive Op where
  | readU8
  | readRaw (len : ℕ)
  | skip (len : ℕ)
  | readUb2
  | readUb4
  | readUb8
  | readSb2
  | readSb4
  | readSb8
  | readBytes
  | readChunks
  | readNullTerminatedBytes
  | bigClrChunks
  | legacyNullClr
  deriving DecidableEq

/-- What a method returns. -/
abbrev Op.Result : Op → Type
  | .readU8 => UInt8
  | .readRaw _ | .readChunks | .readNullTerminatedBytes => Bytes
  | .skip _ => Unit
  | .readUb2 | .readUb4 | .readUb8 => ℕ
  | .readSb2 | .readSb4 | .readSb8 => ℤ
  | .readBytes => Option Bytes
  | .bigClrChunks | .legacyNullClr => Bool

def Op.run : (op : Op) → CursorM op.Result
  | .readU8 => CursorM.readU8
  | .readRaw len => CursorM.readRaw len
  | .skip len => CursorM.skip len
  | .readUb2 => CursorM.readUb2
  | .readUb4 => CursorM.readUb4
  | .readUb8 => CursorM.readUb8
  | .readSb2 => CursorM.readSb2
  | .readSb4 => CursorM.readSb4
  | .readSb8 => CursorM.readSb8
  | .readBytes => CursorM.readBytes
  | .readChunks => CursorM.readChunks
  | .readNullTerminatedBytes => CursorM.readNullTerminatedBytes
  | .bigClrChunks => get PacketCursor.bigClrChunks
  | .legacyNullClr => get PacketCursor.legacyNullClr

lemma Op.respects (stop : OracleThinError → Prop) (hflags : OnlyLastFlagged resp) (op : Op) :
    Respects (Tracks caps start resp rest) (cursorErrors stop) op.run := by
  cases op with
  | readU8 => exact readU8_respects _ hflags
  | readRaw len => exact readRaw_respects hflags len
  | skip len => exact skip_respects hflags len
  | readUb2 => exact readUb2_respects hflags
  | readUb4 => exact readUb4_respects hflags
  | readUb8 => exact readUniversalUint_respects hflags 8
  | readSb2 => exact readSigned_respects hflags 2
  | readSb4 => exact readSigned_respects hflags 4
  | readSb8 => exact readSigned_respects hflags 8
  | readBytes => exact readBytes_respects hflags
  | readChunks => exact readChunks_respects hflags
  | readNullTerminatedBytes => exact readNullTerminatedBytes_respects hflags
  | bigClrChunks => exact .observe fun _ _ h => h.bigClrChunks_eq
  | legacyNullClr => exact .observe fun _ _ h => h.legacyNullClr_eq

/-- What one call returned. -/
abbrev Returned := Σ op : Op, Except OracleThinError op.Result

/-- The slice ran out of bytes in the call. -/
def Returned.ranOut : Returned → Bool
  | ⟨_, .error (.short _)⟩ => true
  | _ => false

/-- Two calls returned the same: the same value, or the same error, where the
report of an invalid length may give another offset and another context. -/
inductive SameReturn : Returned → Returned → Prop
  | ok (op : Op) (a : op.Result) : SameReturn ⟨op, .ok a⟩ ⟨op, .ok a⟩
  | error (op : Op) (e : OracleThinError) : SameReturn ⟨op, .error e⟩ ⟨op, .error e⟩
  | universalLength (op : Op) (len start start' : ℕ) (context context' : Bytes) :
      SameReturn ⟨op, .error (.universalLength len start context)⟩
        ⟨op, .error (.universalLength len start' context')⟩

/-- The calls in order, each on the cursor the previous one left. -/
def calls : List Op → PacketCursor → List Returned × PacketCursor
  | [], c => ([], c)
  | op :: ops, c =>
    let (r, c') := op.run c
    let (rs, c'') := calls ops c'
    (⟨op, r⟩ :: rs, c'')

/-- The first cursor over a response and its slice cursor stand at the same byte. -/
lemma tracks_streaming (p : DataPacket) (todo rest : List DataPacket) (caps : CursorCapabilities) :
    Tracks caps 0 (p :: todo) rest (withCapabilities (payloads (p :: todo)) caps)
      (streaming p (todo ++ rest) caps) := by
  refine ⟨[p], todo, rfl, ⟨⟨rfl, ?_, ?_, ?_, ?_, rfl, rfl, rfl, rfl⟩, le_rfl, ?_, ?_⟩⟩
  · simp [streaming, PacketCursor.data, flagged]
  · simp [streaming, withCapabilities, PacketCursor.data]
  · exact Nat.zero_le _
  · exact Nat.zero_le _
  · exact Nat.zero_le _
  · exact fun h => absurd h (lt_irrefl _)

lemma calls_agree (hflags : OnlyLastFlagged resp) {ops : List Op}
    (h : Tracks caps start resp rest c s) (hshort : ∀ r ∈ (calls ops c).1, r.ranOut = false) :
    List.Forall₂ SameReturn (calls ops c).1 (calls ops s).1
      ∧ Tracks caps start resp rest (calls ops c).2 (calls ops s).2 := by
  induction ops generalizing c s with
  | nil => exact ⟨.nil, h⟩
  | cons op ops ih =>
    have hagree := op.respects (fun _ => False) hflags c s h
    rcases hc : op.run c with ⟨r, c'⟩
    rcases hs : op.run s with ⟨r', s'⟩
    rw [hc, hs] at hagree
    simp only [calls, hc, hs] at hshort ⊢
    rw [forall_mem_cons] at hshort
    cases hagree with
    | ok a h' =>
      obtain ⟨hrest, hend⟩ := ih h' hshort.2
      exact ⟨.cons (.ok op a) hrest, hend⟩
    | error he h' =>
      obtain ⟨hrest, hend⟩ := ih h' hshort.2
      obtain rfl | ⟨len, start, context, start', context', rfl, rfl⟩ := he
      · exact ⟨.cons (.error op _) hrest, hend⟩
      · exact ⟨.cons (.universalLength op len start start' context context') hrest, hend⟩
    | lost _ he =>
      obtain ⟨ctx, rfl⟩ := he
      exact absurd hshort.1 (by simp [Returned.ranOut])
    | stop _ he => exact he.elim

/-- However a response is cut into packets, and whatever follows it on the
connection: as long as the slice cursor over the joined payloads does not run out
of bytes, the streaming cursor returns from every call what the slice cursor
returns, and has the same bytes left of the response. -/
theorem streaming_calls_eq_slice_calls (p : DataPacket) (todo rest : List DataPacket)
    (caps : CursorCapabilities) (ops : List Op) (hflags : OnlyLastFlagged (p :: todo))
    (hshort : ∀ r ∈ (calls ops (withCapabilities (payloads (p :: todo)) caps)).1,
      r.ranOut = false) :
    List.Forall₂ SameReturn (calls ops (withCapabilities (payloads (p :: todo)) caps)).1
        (calls ops (streaming p (todo ++ rest) caps)).1
      ∧ (calls ops (streaming p (todo ++ rest) caps)).2.unread
        = (calls ops (withCapabilities (payloads (p :: todo)) caps)).2.unread ++ payloads rest := by
  obtain ⟨hsame, htracks⟩ := calls_agree hflags (tracks_streaming p todo rest caps) hshort
  exact ⟨hsame, htracks.unread_eq⟩

/-- A chunked field over four packets, one of them empty, then a terminated field
and an integer with an invalid length, before a packet of the next response. -/
theorem streaming_calls_eq_slice_calls_chunked : List.Forall₂ SameReturn
        (calls [.readBytes, .readNullTerminatedBytes, .readUb2, .readU8]
          (withCapabilities [0xfe, 2, 10, 11, 1, 12, 0, 65, 66, 0, 9, 7] ⟨false, none⟩)).1
        (calls [.readBytes, .readNullTerminatedBytes, .readUb2, .readU8]
          (streaming ⟨0, [0xfe, 2, 10]⟩
            [⟨0, []⟩, ⟨0, [11, 1, 12, 0, 65]⟩, ⟨0x2000, [66, 0, 9, 7]⟩, ⟨0, [29]⟩]
            ⟨false, none⟩)).1
      ∧ (calls [.readBytes, .readNullTerminatedBytes, .readUb2, .readU8]
          (streaming ⟨0, [0xfe, 2, 10]⟩
            [⟨0, []⟩, ⟨0, [11, 1, 12, 0, 65]⟩, ⟨0x2000, [66, 0, 9, 7]⟩, ⟨0, [29]⟩]
            ⟨false, none⟩)).2.unread = [29] :=
  streaming_calls_eq_slice_calls ⟨0, [0xfe, 2, 10]⟩
    [⟨0, []⟩, ⟨0, [11, 1, 12, 0, 65]⟩, ⟨0x2000, [66, 0, 9, 7]⟩] [⟨0, [29]⟩] ⟨false, none⟩
    [.readBytes, .readNullTerminatedBytes, .readUb2, .readU8] (by rfl) (by decide)

end SpaceQuery.Thin
