import SpaceQuery.Lib.RustText
import SpaceQuery.Thin.CursorTracking

/-!
Programs of cursor reads.

A message handler sees of the cursor only what its reads return: it is a tree of calls (`Program`),
so what holds of every method of the cursor holds of every handler.
-/

namespace SpaceQuery.Thin

open List Simulation

namespace CursorM

/-- The choice in `read_vector_value`, on the byte in front of the cursor: above 8
it starts a byte field, otherwise a `ub8` (`wide`) or a `ub4`. -/
def bytesOrUbOn (wide : Bool) (peeked : Option UInt8) : CursorM (Option Bytes ⊕ ℕ) := do
  if peeked.any (fun len => 8 < len.toNat) then return .inl (← readBytes)
  else if wide then return .inr (← readUb8)
  else return .inr (← readUb4)

def bytesOrUb (wide : Bool) : CursorM (Option Bytes ⊕ ℕ) := do
  bytesOrUbOn wide (← peekU8)

end CursorM

/-- A tree of calls of cursor methods. -/
inductive Program (α : Type) : Type where
  | ret (a : α)
  | fail (e : OracleThinError)
  | call (op : Op) (next : op.Result → Program α)
  | bytesOrUb (wide : Bool) (next : Option Bytes ⊕ ℕ → Program α)

namespace Program

variable {α β : Type}

/-- Goes on with the value of a program. -/
protected def bind : Program α → (α → Program β) → Program β
  | .ret a, f => f a
  | .fail e, _ => .fail e
  | .call op next, f => .call op fun r => (next r).bind f
  | .bytesOrUb wide next, f => .bytesOrUb wide fun r => (next r).bind f

instance : Monad Program where
  pure := .ret
  bind := .bind

/-- A program run on a cursor. -/
def run : Program α → CursorM α
  | .ret a => pure a
  | .fail e => Comp.fail e
  | .call op next => op.run >>= fun r => (next r).run
  | .bytesOrUb wide next => CursorM.bytesOrUb wide >>= fun r => (next r).run

/-- A result computed without the cursor. -/
def ofExcept : Except OracleThinError α → Program α
  | .ok a => .ret a
  | .error e => .fail e

/-- One call. -/
def op (op : Op) : Program op.Result := .call op .ret

/-- The calls whose results a handler drops. -/
def discard : List Op → Program Unit
  | [] => .ret ()
  | op :: ops => .call op fun _ => discard ops

/-- Some steps, one after the other. -/
def times : ℕ → Program Unit → Program Unit
  | 0, _ => .ret ()
  | n + 1, body => body.bind fun _ => times n body

def readU8 : Program UInt8 := op .readU8

def readUb2 : Program ℕ := op .readUb2

def readUb4 : Program ℕ := op .readUb4

def readUb8 : Program ℕ := op .readUb8

def readBytes : Program (Option Bytes) := op .readBytes

def readRaw (len : ℕ) : Program Bytes := op (.readRaw len)

def skip (len : ℕ) : Program Unit := op (.skip len)

/-- `if num_bytes > 0 { cursor.skip(num_bytes) }`. -/
def skipCounted : Program Unit := do
  let numBytes ← readUb2
  if 0 < numBytes then skip numBytes

def readBytesWithUb4Length : Program (Option Bytes) := do
  let expectedLen ← readUb4
  if expectedLen = 0 then return none
  match ← readBytes with
  | none => return none
  | some bytes =>
    if bytes.length < expectedLen then fail (.other "short TTC bytes-with-length field")
    else return some (bytes.take expectedLen)

def skipBytesWithUb4Length : Program Unit := do
  let expectedLen ← readUb4
  if expectedLen = 0 then return ()
  match ← readBytes with
  | none => return ()
  | some bytes =>
    if bytes.length < expectedLen then fail (.other "short TTC bytes-with-length field")

/-- `String::from_utf8`. -/
def utf8 (bytes : Bytes) : Program String :=
  match RustText.fromUtf8 bytes with
  | some text => .ret text
  | none => .fail .invalidUtf8

def readStrWithLength : Program (Option String) := do
  let expectedLen ← readUb4
  if expectedLen = 0 then return none
  match ← readBytes with
  | none => return none
  | some bytes => return some (← utf8 (bytes.take expectedLen))

def readStr : Program (Option String) := do
  match ← readBytes with
  | none => return none
  | some bytes => return some (← utf8 bytes)

end Program

section Peek

open PacketCursor CursorM

variable {c : PacketCursor}

open Comp (bind_ok get_apply bind_error Shrinks)

lemma peekU8_of_remaining (h : c.remaining ≠ 0) : peekU8 c = (.ok c.data[c.pos]?, c) := by
  rw [peekU8, bind_ok (get_apply remaining c), if_neg h]
  rfl

variable {data : Bytes}

lemma peekU8_slice_nil (hc : c.source = .slice data)
    (h : c.remaining = 0) : peekU8 c = (.ok none, c) := by
  rw [peekU8, bind_ok (get_apply remaining c), if_pos h, bind_ok (get_apply source c), hc]
  rfl

variable {s : PacketCursor}

lemma peekU8_of_fetch {s₁ : PacketCursor} (h : s.remaining = 0)
    (hseen : s.endOfResponseSeen = false)
    (hfetch : fetchNextPacket "short TTC packet while reading u8" s = (.ok (), s₁)) :
    peekU8 s = (.ok s₁.data[s₁.pos]?, s₁) := by
  rw [peekU8, bind_ok (get_apply remaining s), if_pos h, bind_ok (get_apply source s)]
  cases hsource : s.source with
  | slice data => rw [fetchNextPacket, hsource] at hfetch; cases hfetch
  | stream source =>
    rw [endOfResponseSeen, hsource] at hseen
    simp only [hseen, Bool.false_eq_true, if_false]
    rw [bind_ok hfetch]
    rfl

/-- A packet fetched for a peek is the one the next read would fetch. -/
lemma readU8_of_fetch {s₁ : PacketCursor} (h : s.remaining = 0)
    (hfetch : fetchNextPacket "short TTC packet while reading u8" s = (.ok (), s₁)) :
    readU8 s₁ = readU8 s := by
  have hleft := (fetchNextPacket_counts "short TTC packet while reading u8" s).2.2
  rw [hfetch] at hleft
  have hleft' : s₁.packetsLeft.length + 1 = s.packetsLeft.length := hleft rfl
  have hensure : ensureAvailable 1 "short TTC packet while reading u8" s
      = ensureAvailable 1 "short TTC packet while reading u8" s₁ := by
    rw [ensureAvailable, bind_ok (get_apply packetsLeft s),
      bind_ok (get_apply packetsLeft s₁), Fetched.ensureLoop_succ,
      if_pos (by omega), bind_ok hfetch, hleft']
  rw [readU8, Comp.bind_apply, Comp.bind_apply, hensure]

variable {caps : CursorCapabilities} {start : ℕ} {resp rest : List DataPacket}
  {stop : OracleThinError → Prop}

open Respects

/-- Where the next byte is read alike, the choice on the same byte goes alike. -/
lemma bytesOrUbOn_agree (hflags : OnlyLastFlagged resp) (wide : Bool) (peeked : Option UInt8)
    (h : Agree (Tracks caps start resp rest) (cursorErrors stop) (readU8 c) (readU8 s)) :
    Agree (Tracks caps start resp rest) (cursorErrors stop) (bytesOrUbOn wide peeked c)
      (bytesOrUbOn wide peeked s) := by
  rw [bytesOrUbOn]
  by_cases hlong : peeked.any (fun len => 8 < len.toNat)
  · rw [if_pos hlong]
    exact (readBytes_agree hflags h).bind rfl rfl fun _ => pure _
  rw [if_neg hlong]
  cases wide with
  | true => exact (readUniversalUint_agree hflags 8 h).bind rfl rfl fun _ => pure _
  | false =>
    have hub4 : Agree (Tracks caps start resp rest) (cursorErrors stop) (readUb4 c) (readUb4 s) :=
      (readUniversalUint_agree hflags 4 h).bind rfl rfl fun _ =>
        ite (fun _ => .pure _) fun _ => .fail (.inl rfl)
    exact hub4.bind rfl rfl fun _ => pure _

variable {s' : PacketCursor}

lemma bytesOrUbOn_none_of_error {wide : Bool} {e : OracleThinError}
    (h : ∀ maxLen, readUniversalUint maxLen s = (.error e, s')) :
    bytesOrUbOn wide none s = (.error e, s') := by
  cases wide with
  | true => exact bind_error (h 8) _
  | false => exact bind_error (m := readUb4) (bind_error (h 4) _) _

lemma readUniversalUint_of_error {e : OracleThinError}
    (h : readU8 s = (.error e, s')) (maxLen : ℕ) : readUniversalUint maxLen s = (.error e, s') := by
  rw [readUniversalUint, bind_ok (get_apply pos s), bind_error h]

/-- A length byte above 8 is no length of an integer. -/
lemma readUniversalUint_of_long {b : UInt8} (h : readU8 s = (.ok b, s'))
    (hb : 8 < b.toNat) (maxLen : ℕ) :
    readUniversalUint maxLen s = (.error (.universalLength b.toNat s.pos
      ((s'.data.drop (s'.pos - 1)).take 16)), s') := by
  rw [readUniversalUint, bind_ok (get_apply pos s), bind_ok h, if_neg (by omega), if_pos (.inr hb)]
  rfl

/-- A length byte that no integer has. -/
def LengthError (e : OracleThinError) : Prop :=
  ∃ len start context, e = .universalLength len start context

/-- The errors that end a comparison from the side of the streaming cursor: such a length byte, in
a response with an empty packet. -/
def HiddenLengthError (resp : List DataPacket) (e : OracleThinError) : Prop :=
  (∃ p ∈ resp, p.payload = []) ∧ LengthError e

/-- The byte in front of a slice cursor is read next. -/
lemma readU8_slice (hc : c.source = .slice data) (h : c.remaining ≠ 0) :
    readU8 c = (.ok (c.data.getD c.pos 0), { c with pos := c.pos + 1 }) := by
  have hensure : ensureAvailable 1 "short TTC packet while reading u8" c = (.ok (), c) := by
    rw [ensureAvailable_slice hc, if_neg (by omega)]
  rw [readU8, bind_ok hensure]
  rfl

/-- A byte in the buffer is the byte in front of both cursors. -/
lemma Fetched.peek_eq {got todo : List DataPacket}
    (h : Fetched caps got todo rest c s) (hs : s.remaining ≠ 0) :
    c.data[c.pos]? = s.data[s.pos]? := by
  have hpos : 0 < (s.data.drop s.pos).length := by
    rw [length_drop]
    exact pos_of_ne_zero hs
  rw [← add_zero c.pos, ← getElem?_drop, h.slice_drop_eq,
    getElem?_append_left hpos, getElem?_drop, add_zero]

/-- An empty packet hides the byte behind it from a peek; the streaming cursor then
takes a length byte above 8 for that of an integer and fails. -/
lemma bytesOrUbOn_agree_of_hidden (hflags : OnlyLastFlagged resp) (wide : Bool)
    (hempty : ∃ p ∈ resp, p.payload = []) (hslice : c.source = .slice data) (hc : c.remaining ≠ 0)
    (h : Agree (Tracks caps start resp rest) (cursorErrors (HiddenLengthError resp)) (readU8 c)
      (readU8 s)) :
    Agree (Tracks caps start resp rest) (cursorErrors (HiddenLengthError resp))
      (bytesOrUbOn wide c.data[c.pos]? c) (bytesOrUbOn wide none s) := by
  by_cases hlong : c.data[c.pos]?.any (fun len => 8 < len.toNat)
  · obtain ⟨b, hb, hlong⟩ := (Option.any_eq_true ..).1 hlong
    have hread := readU8_slice hslice hc
    rw [getD_eq_getElem?_getD, hb] at hread
    rw [hread] at h
    rcases hsread : readU8 s with ⟨r, s'⟩
    rw [hsread] at h
    cases h with
    | ok _ _ =>
      rw [bytesOrUbOn_none_of_error (readUniversalUint_of_long hsread (of_decide_eq_true hlong))]
      exact .stop _ ⟨hempty, _, _, _, rfl⟩
    | stop _ he =>
      rw [bytesOrUbOn_none_of_error (readUniversalUint_of_error hsread)]
      exact .stop _ he
  · have hsame : bytesOrUbOn wide c.data[c.pos]? c = bytesOrUbOn wide none c := by
      rw [bytesOrUbOn, if_neg hlong]
      rfl
    rw [hsame]
    exact bytesOrUbOn_agree hflags wide none h

lemma bytesOrUb_respects (hflags : OnlyLastFlagged resp) (wide : Bool) :
    Respects (Tracks caps start resp rest) (cursorErrors (HiddenLengthError resp))
      (bytesOrUb wide) := by
  rintro c s ⟨got, todo, rfl, h⟩
  have hread := readU8_respects (HiddenLengthError (got ++ todo)) hflags c s ⟨got, todo, rfl, h⟩
  have hlen : c.remaining = s.remaining + (payloads todo).length := by
    have := congrArg length h.toFetched.slice_drop_eq
    rwa [length_append, length_drop, length_drop] at this
  by_cases hc : c.remaining = 0
  · -- the slice has run out of bytes
    have hshort : readU8 c = (.error (.short "short TTC packet while reading u8"), c) :=
      bind_error (by rw [ensureAvailable_slice h.slice, if_pos (by omega)]) _
    rw [bytesOrUb, bind_ok (peekU8_slice_nil h.slice hc),
      bytesOrUbOn_none_of_error (readUniversalUint_of_error hshort)]
    exact .lost _ ⟨_, rfl⟩
  rw [bytesOrUb, bind_ok (peekU8_of_remaining hc)]
  by_cases hs : s.remaining = 0
  · cases todo with
    | nil => exact absurd (by simpa [hs] using hlen) hc
    | cons p todo =>
      obtain ⟨s₁, hfetch, h₁⟩ := h.toFetched.fetchNextPacket_spec hflags.flagged_eq_false
        "short TTC packet while reading u8"
      have hseen : s.endOfResponseSeen = false :=
        h.toFetched.endOfResponseSeen_eq.trans hflags.flagged_eq_false
      rw [bind_ok (peekU8_of_fetch hs hseen hfetch)]
      rw [← readU8_of_fetch hs hfetch] at hread
      by_cases hs₁ : s₁.remaining = 0
      · have hnone : s₁.data[s₁.pos]? = none := by
          rw [getElem?_eq_none_iff]
          exact Nat.le_of_sub_eq_zero hs₁
        have hempty : p.payload = [] := by
          have hpos := h.slice_pos_le
          rw [h.toFetched.remaining_eq] at hs
          rw [h₁.remaining_eq, payloads_append, payloads_cons, length_append, length_append] at hs₁
          exact length_eq_zero_iff.mp (by omega)
        rw [hnone]
        exact bytesOrUbOn_agree_of_hidden hflags wide ⟨p, by simp, hempty⟩ h.slice hc hread
      · rw [h₁.peek_eq hs₁]
        exact bytesOrUbOn_agree hflags wide _ hread
  · rw [bind_ok (peekU8_of_remaining hs), h.toFetched.peek_eq hs]
    exact bytesOrUbOn_agree hflags wide _ hread

end Peek

/-! ### What holds of every program -/

section Shrinks

open CursorM

variable {size : PacketCursor → ℕ} (hsize : CursorMeasure size)

include hsize

lemma readU8_shrinks : Comp.Shrinks size readU8 :=
  (ensureAvailable_shrinks hsize 1 _).bind fun _ => (Comp.Shrinks.get _).bind fun _ =>
    (hsize.advance 1).bind fun _ => .pure _

lemma readUniversalUint_shrinks (maxLen : ℕ) : Comp.Shrinks size (readUniversalUint maxLen) := by
  refine (Comp.Shrinks.get _).bind fun _ => (readU8_shrinks hsize).bind fun _ => .ite (.pure _) ?_
  refine .ite ((Comp.Shrinks.get _).bind fun _ => .fail _) ?_
  exact (readRaw_shrinks hsize _).bind fun _ => .pure _

lemma readUb4_shrinks : Comp.Shrinks size readUb4 :=
  (readUniversalUint_shrinks hsize 4).bind fun _ => .ite (.pure _) (.fail _)

lemma readSigned_shrinks (width : ℕ) : Comp.Shrinks size (readSigned width) := by
  refine (readU8_shrinks hsize).bind fun _ => .ite (.pure _) (.ite (.fail _) ?_)
  exact (readRaw_shrinks hsize _).bind fun _ => .pure _

lemma chunkLoop_shrinks (fuel : ℕ) (out : Bytes) : Comp.Shrinks size (chunkLoop fuel out) := by
  induction fuel generalizing out with
  | zero => exact .pure out
  | succ fuel ih =>
    have hlen : Comp.Shrinks size readChunkLen :=
      (Comp.Shrinks.get _).bind fun _ => .ite (readUb4_shrinks hsize)
        ((readU8_shrinks hsize).bind fun _ => .pure _)
    exact hlen.bind fun _ => .ite (.pure _) ((readRaw_shrinks hsize _).bind fun _ => ih _)

lemma readChunks_shrinks : Comp.Shrinks size readChunks :=
  (Comp.Shrinks.get _).bind fun _ => chunkLoop_shrinks hsize _ _

lemma readBytes_shrinks : Comp.Shrinks size readBytes := by
  refine (readU8_shrinks hsize).bind fun _ => .ite (.pure _) ?_
  refine (Comp.Shrinks.get _).bind fun _ => .ite (.pure _) (.ite ?_ ?_)
  · exact (readChunks_shrinks hsize).bind fun _ => .pure _
  · exact (readRaw_shrinks hsize _).bind fun _ => .pure _

lemma findTerminator_shrinks (fuel scanned : ℕ) :
    Comp.Shrinks size (findTerminator fuel scanned) := by
  induction fuel generalizing scanned with
  | zero => exact .pure _
  | succ fuel ih =>
    refine (Comp.Shrinks.get _).bind fun found => ?_
    cases found with
    | some offset => exact .pure _
    | none =>
      exact (Comp.Shrinks.get _).bind fun _ =>
        (hsize.fetch _).bind fun _ => ih _

lemma readNullTerminatedBytes_shrinks : Comp.Shrinks size readNullTerminatedBytes := by
  refine (Comp.Shrinks.get _).bind fun _ => (findTerminator_shrinks hsize _ _).bind fun length => ?_
  exact (Comp.Shrinks.get _).bind fun _ => (hsize.advance (length + 1)).bind fun _ => .pure _

lemma Op.run_shrinks (op : Op) : Comp.Shrinks size op.run := by
  cases op with
  | readU8 => exact readU8_shrinks hsize
  | readRaw len => exact readRaw_shrinks hsize len
  | skip len => exact (readRaw_shrinks hsize len).bind fun _ => .pure _
  | readUb2 => exact (readUniversalUint_shrinks hsize 2).bind fun _ => .ite (.pure _) (.fail _)
  | readUb4 => exact readUb4_shrinks hsize
  | readUb8 => exact readUniversalUint_shrinks hsize 8
  | readSb2 => exact readSigned_shrinks hsize 2
  | readSb4 => exact readSigned_shrinks hsize 4
  | readSb8 => exact readSigned_shrinks hsize 8
  | readBytes => exact readBytes_shrinks hsize
  | readChunks => exact readChunks_shrinks hsize
  | readNullTerminatedBytes => exact readNullTerminatedBytes_shrinks hsize
  | bigClrChunks | legacyNullClr => exact .get _

lemma peekU8_shrinks : Comp.Shrinks size peekU8 := by
  refine (Comp.Shrinks.get _).bind fun _ => .ite ?_ (.get _)
  refine (Comp.Shrinks.get _).bind fun source => ?_
  cases source with
  | slice data => exact .pure _
  | stream source =>
    exact .ite (.pure _) ((hsize.fetch _).bind fun _ => .get _)

lemma bytesOrUb_shrinks (wide : Bool) : Comp.Shrinks size (bytesOrUb wide) := by
  refine (peekU8_shrinks hsize).bind fun peeked =>
    .ite ((readBytes_shrinks hsize).bind fun _ => .pure _) ?_
  exact .ite ((readUniversalUint_shrinks hsize 8).bind fun _ => .pure _)
    ((readUb4_shrinks hsize).bind fun _ => .pure _)

end Shrinks

namespace Program

variable {α β : Type}

lemma run_shrinks {size : PacketCursor → ℕ} (hsize : CursorMeasure size) (program : Program α) :
    Comp.Shrinks size program.run := by
  induction program with
  | ret a => exact .pure a
  | fail e => exact .fail e
  | call op next ih => exact (op.run_shrinks hsize).bind ih
  | bytesOrUb wide next ih => exact (bytesOrUb_shrinks hsize wide).bind ih

lemma respects {caps : CursorCapabilities} {start : ℕ} {resp rest : List DataPacket}
    (hflags : OnlyLastFlagged resp) (program : Program α) :
    Respects (Tracks caps start resp rest) (cursorErrors (HiddenLengthError resp)) program.run := by
  induction program with
  | ret a => exact .pure a
  | fail e => exact .fail (.inl rfl)
  | call op next ih => exact (op.respects _ hflags).bind ih
  | bytesOrUb wide next ih => exact (bytesOrUb_respects hflags wide).bind ih

/-- Every value the program can return has the property. -/
def Always (P : α → Prop) : Program α → Prop
  | .ret a => P a
  | .fail _ => True
  | .call _ next => ∀ r, (next r).Always P
  | .bytesOrUb _ next => ∀ r, (next r).Always P

lemma Always.mono {P Q : α → Prop} {program : Program α} (h : program.Always P)
    (hPQ : ∀ a, P a → Q a) : program.Always Q := by
  induction program with
  | ret a => exact hPQ a h
  | fail e => trivial
  | call op next ih | bytesOrUb wide next ih => exact fun r => ih r (h r)

lemma Always.bind {P : β → Prop} (program : Program α) {f : α → Program β}
    (hf : ∀ a, (f a).Always P) : (program >>= f).Always P := by
  induction program with
  | ret a => exact hf a
  | fail e => trivial
  | call op next ih => exact ih
  | bytesOrUb wide next ih => exact ih

lemma Always.of_run {P : α → Prop} {program : Program α} (h : program.Always P)
    {c c' : PacketCursor} {a : α} (hrun : program.run c = (.ok a, c')) : P a := by
  induction program generalizing c with
  | ret b =>
    obtain ⟨hb, -⟩ := Prod.mk.inj hrun
    cases hb
    exact h
  | fail e => cases hrun
  | call op next ih =>
    rcases hop : op.run c with ⟨e | r, d⟩
    · rw [run, Comp.bind_error hop] at hrun
      cases hrun
    · rw [run, Comp.bind_ok hop] at hrun
      exact ih r (h r) hrun
  | bytesOrUb wide next ih =>
    rcases hop : CursorM.bytesOrUb wide c with ⟨e | r, d⟩
    · rw [run, Comp.bind_error hop] at hrun
      cases hrun
    · rw [run, Comp.bind_ok hop] at hrun
      exact ih r (h r) hrun

/-- **A handler does not see where a response is cut into packets**: what it returns from the
joined payloads it returns from the packets, with the same bytes left, or the response has an empty
packet, which hid a byte from a peek, and it fails on a length byte. -/
theorem run_streaming (program : Program α) (p : DataPacket) (todo rest : List DataPacket)
    (caps : CursorCapabilities) (hflags : OnlyLastFlagged (p :: todo)) {a : α} {c : PacketCursor}
    (h : program.run (.withCapabilities (payloads (p :: todo)) caps) = (.ok a, c)) :
    let r := program.run (.streaming p (todo ++ rest) caps)
    r.1 = .ok a ∧ r.2.unread = c.unread ++ payloads rest ∨
      (∃ q ∈ p :: todo, q.payload = []) ∧ ∃ e, r.1 = .error e ∧ LengthError e := by
  have hagree := program.respects hflags _ _ (tracks_streaming p todo rest caps)
  rw [h] at hagree
  generalize program.run (.streaming p (todo ++ rest) caps) = r at hagree ⊢
  cases hagree with
  | ok _ htracks => exact .inl ⟨rfl, htracks.unread_eq⟩
  | stop _ he => exact .inr ⟨he.1, _, rfl, he.2⟩

/-- An integer behind an empty packet. -/
theorem run_streaming_ub2 :
    let r := run (.call .readUb2 .ret) (.streaming ⟨0, [2]⟩
      [⟨0, []⟩, ⟨0x2000, [1, 2]⟩, ⟨0, [29]⟩] ⟨false, none⟩)
    r.1 = .ok 258 ∧ r.2.unread = [29] := by
  refine (run_streaming (.call .readUb2 .ret) ⟨0, [2]⟩ [⟨0, []⟩, ⟨0x2000, [1, 2]⟩] [⟨0, [29]⟩]
    ⟨false, none⟩ rfl rfl).resolve_right ?_
  rintro ⟨-, e, h, -⟩
  cases h

end Program

end SpaceQuery.Thin
