import SpaceQuery.Thin.ResponseReader

/-!
What a reader leaves of a response on the connection. A response is a sequence of messages that ends
with END_OF_RESPONSE, cut into data packets of which only the last may be flagged.
-/

namespace SpaceQuery.Thin

open Option List Simulation PacketCursor CursorM

/-! ### Responses -/

/-- The messages in front of a slice cursor are content messages up to one
END_OF_RESPONSE, the last byte there is. The index is the offset behind the first
message that makes the reader return an error, if there is one. -/
inductive Messages {σ : Type} (reader : Reader σ) : σ → PacketCursor → Option ℕ → Prop
  | endOfResponse {state : σ} {c c' : PacketCursor}
      (hread : readU8 c = (.ok tnsMsgTypeEndOfResponse, c')) (hend : c'.remaining = 0) :
      Messages reader state c none
  | content {state : σ} {c c₁ c₂ : PacketCursor} {messageType : UInt8}
      {handler : σ → Program (Taken σ)} {taken : Taken σ} {e : Option ℕ}
      (hread : readU8 c = (.ok messageType, c₁))
      (hhandler : (MessageType.ofByte messageType).bind reader.message = some handler)
      (hrun : (handler state).run c₁ = (.ok taken, c₂))
      (hnext : Messages reader taken.state c₂ e) :
      Messages reader state c (if taken.raised.isSome then some c₂.pos else e)

/-- A response to a reader that starts in `state`: at least one content message, and
the end flag on the last packet only. -/
structure Response {σ : Type} (reader : Reader σ) (caps : CursorCapabilities) (state : σ)
    (resp : List DataPacket) (e : Option ℕ) : Prop where
  messages : Messages reader state (withCapabilities (payloads resp) caps) e
  content : (payloads resp).head? ≠ some tnsMsgTypeEndOfResponse
  flags : OnlyLastFlagged resp

/-- The offset of the last packet of a response. -/
def lastPacketStart (resp : List DataPacket) : ℕ := (payloads resp.dropLast).length

/-- The reader never takes a message for the end of the response. -/
def Reader.WaitsForEnd {σ : Type} (reader : Reader σ) : Prop :=
  ∀ messageType handler, reader.message messageType = some handler →
    ∀ state, (handler state).Always fun taken => taken.done = false

/-! ### Moving along a response -/

lemma packetsLeft_measure : CursorMeasure fun c => c.packetsLeft.length where
  fetch ctx c := (fetchNextPacket_counts ctx c).2.1
  advance _ _ := le_rfl

namespace Tracks

variable {caps : CursorCapabilities} {start : ℕ} {resp rest : List DataPacket} {c s : PacketCursor}

/-- A cursor may be held to be lazy from here on. -/
lemma rebase (h : Tracks caps start resp rest c s) : Tracks caps c.pos resp rest c s := by
  obtain ⟨got, todo, rfl, h⟩ := h
  exact ⟨got, todo, rfl, ⟨h.toFetched, le_rfl, h.lazy_le, fun hlt => absurd hlt (lt_irrefl _)⟩⟩

/-- The slice cursor reads what it can and the streaming cursor reads the same. -/
lemma readU8_eq (h : Tracks caps start resp rest c s) (hflags : OnlyLastFlagged resp) {b : UInt8}
    {c' : PacketCursor} (hread : readU8 c = (.ok b, c')) :
    ∃ s', readU8 s = (.ok b, s') ∧ Tracks caps start resp rest c' s' := by
  have hagree := readU8_respects (fun _ => False) hflags c s h
  rcases hs : readU8 s with ⟨r, s'⟩
  rw [hread, hs] at hagree
  cases hagree with
  | ok _ h' => exact ⟨s', rfl, h'⟩
  | stop _ he => exact he.elim

/-- A byte was read between two points of the slice. -/
lemma pos_lt_of_bytesLeft {s' c' : PacketCursor} (h : Tracks caps start resp rest c s)
    (h' : Tracks caps start resp rest c' s') (hlt : bytesLeft c' < bytesLeft c) :
    c.pos < c'.pos := by
  have hleft : c.packetsLeft = [] := by rw [packetsLeft, h.source_eq]
  have hleft' : c'.packetsLeft = [] := by rw [packetsLeft, h'.source_eq]
  rw [bytesLeft_eq, bytesLeft_eq, hleft, hleft', remaining, remaining, h.data_eq, h'.data_eq] at hlt
  omega

end Tracks

/-- The last byte read lies in the last packet fetched. -/
structure StoppedAt (q : ℕ) (resp rest left : List DataPacket) : Prop where
  split : ∃ got todo, resp = got ++ todo ∧ left = todo ++ rest
    ∧ (payloads got.dropLast).length < q ∧ q ≤ (payloads got).length

variable {resp : List DataPacket} {rest : List DataPacket}

/-- A cursor that read a byte behind `start` stopped where it stands. -/
lemma Tracks.stoppedAt {caps : CursorCapabilities} {start : ℕ}
    {c s : PacketCursor} (h : Tracks caps start resp rest c s) (hpos : start < c.pos) :
    StoppedAt c.pos resp rest s.packetsLeft := by
  obtain ⟨got, todo, rfl, h⟩ := h
  exact ⟨got, todo, rfl, h.toFetched.packetsLeft_eq, h.lazy_lt hpos, h.slice_pos_le⟩

/-- Nothing of the response is left exactly if the last byte read lies in its last
packet. -/
lemma StoppedAt.left_eq_iff {q : ℕ} {left : List DataPacket} (h : StoppedAt q resp rest left) :
    left = rest ↔ lastPacketStart resp < q := by
  obtain ⟨got, todo, rfl, rfl, hlt, hle⟩ := h
  constructor
  · intro hleft
    obtain rfl : todo = [] := by simpa using hleft
    rwa [append_nil]
  · intro hlast
    cases todo with
    | nil => rfl
    | cons p todo =>
      -- packets still to come would put all of `got` before the last packet
      rw [lastPacketStart, dropLast_append_of_ne_nil (by simp), payloads_append,
        length_append] at hlast
      omega

/-! ### The loops -/

variable {e : Option ℕ}

section Loops

variable {σ : Type} (reader : Reader σ)

lemma processMessage_shrinks {size : PacketCursor → ℕ} (hsize : CursorMeasure size) (offset : ℕ)
    (messageType : UInt8) (l : Loop σ) :
    Comp.Shrinks size (processMessage reader offset messageType l) := by
  refine .ite (.ite (.pure _) (.pure _)) ?_
  cases (MessageType.ofByte messageType).bind reader.message with
  | some handler => exact (Program.run_shrinks hsize _).bind fun _ => .pure _
  | none => exact (Comp.Shrinks.get _).bind fun _ => .fail _

lemma messageLoop_shrinks {size : PacketCursor → ℕ} (hsize : CursorMeasure size) (fuel : ℕ)
    (l : Loop σ) : Comp.Shrinks size (messageLoop reader fuel l) := by
  induction fuel generalizing l with
  | zero => exact .pure l
  | succ fuel ih =>
    refine (Comp.Shrinks.get _).bind fun _ => .ite ?_ (.pure _)
    exact (Comp.Shrinks.get _).bind fun _ => (readU8_shrinks hsize).bind fun _ =>
      (processMessage_shrinks reader hsize _ _ _).bind fun _ => ih _

variable {l : Loop σ} {s c : PacketCursor} {caps : CursorCapabilities}

open Comp

lemma messageLoop_of_stop {fuel : ℕ} (h : s.remaining = 0 ∨ l.over) :
    messageLoop reader fuel l s = (.ok l, s) := by
  cases fuel with
  | zero => rfl
  | succ fuel =>
    have hcond : ¬ (0 < s.remaining ∧ l.over = false) := by
      rcases h with h | h
      · simp [h]
      · simp [h]
    rw [messageLoop, bind_ok (get_apply remaining s), if_neg hcond]
    rfl

lemma messageLoop_of_message {fuel : ℕ} {s₁ : PacketCursor} {messageType : UInt8}
    (hrem : s.remaining ≠ 0) (hover : l.over = false) (hread : readU8 s = (.ok messageType, s₁)) :
    messageLoop reader (fuel + 1) l s = (processMessage reader s.pos messageType l >>=
        fun l' => messageLoop reader fuel l') s₁ := by
  rw [messageLoop, bind_ok (get_apply remaining s),
    if_pos ⟨pos_of_ne_zero hrem, hover⟩, bind_ok (get_apply pos s),
    bind_ok hread]

/-- How the messages that start in a packet end: a length byte behind an empty packet
was misread, the buffer is used up between two messages, or the reader is done. -/
inductive Outcome (caps : CursorCapabilities) (resp rest : List DataPacket) (e : Option ℕ) :
    Except OracleThinError (Loop σ) × PacketCursor → Prop
  | failed {err : OracleThinError} {s : PacketCursor} (herr : LengthError err) :
      Outcome caps resp rest e (.error err, s)
  | more {l : Loop σ} {c s : PacketCursor} (hover : l.over = false) (hrem : s.remaining = 0)
      (hcontent : l.responseHadContent = true ∨ ∀ c', readU8 c ≠ (.ok tnsMsgTypeEndOfResponse, c'))
      (hmessages : Messages reader l.state c e) (htracks : Tracks caps c.pos resp rest c s) :
      Outcome caps resp rest e (.ok l, s)
  | finished {l : Loop σ} {s : PacketCursor} (hover : l.over = true)
      (hstopped : StoppedAt (e.getD (payloads resp).length) resp rest s.packetsLeft) :
      Outcome caps resp rest e (.ok l, s)

variable {resp : List DataPacket}

/-- The message loop, by induction on the messages of the response. -/
lemma messageLoop_spec (hwaits : reader.WaitsForEnd)
    (hflags : OnlyLastFlagged resp) {state : σ} {fuel : ℕ}
    (hmsgs : Messages reader state c e) (hst : l.state = state)
    (htracks : Tracks caps c.pos resp rest c s) (hover : l.over = false)
    (hcont : l.responseHadContent
      ∨ ∀ c', readU8 c ≠ (.ok tnsMsgTypeEndOfResponse, c')) (hfuel : bytesLeft s < fuel) :
    Outcome reader caps resp rest e (messageLoop reader fuel l s) := by
  induction hmsgs generalizing s l fuel with
  | @endOfResponse state c c' hread hend =>
    by_cases hrem : s.remaining = 0
    · rw [messageLoop_of_stop reader (.inl hrem)]
      exact .more hover hrem hcont (.endOfResponse hread hend) htracks
    · obtain ⟨fuel, rfl⟩ : ∃ n, fuel = n + 1 := ⟨fuel - 1, by omega⟩
      obtain ⟨s', hs, htracks'⟩ := htracks.readU8_eq hflags hread
      have hhad : l.responseHadContent := by
        rcases hcont with h | h
        · exact h
        · exact absurd hread (h c')
      rw [messageLoop_of_message reader hrem hover hs]
      have hstep : processMessage reader s.pos tnsMsgTypeEndOfResponse l s'
          = (.ok { l with done := true }, s') := by
        rw [processMessage, if_pos hhad]
        rfl
      rw [bind_ok hstep, messageLoop_of_stop reader (.inr (by simp [Loop.over]))]
      refine .finished (by simp [Loop.over]) ?_
      have hpos := htracks.pos_lt_of_bytesLeft htracks' (bytesLeft_lt_of_readU8 hread)
      -- the cursor stands at the end of the response
      have hstop := htracks'.stoppedAt hpos
      have hlen : c'.pos = (payloads resp).length := by
        obtain ⟨got, todo, rfl, h'⟩ := htracks'
        have hle := h'.slice_pos_le
        rw [remaining, h'.toFetched.data_eq, ← payloads_append] at hend
        have : (payloads got).length ≤ (payloads (got ++ todo)).length := by
          rw [payloads_append, length_append]
          omega
        omega
      rwa [hlen] at hstop
  | @content state c c₁ c₂ messageType handler taken e hread hhandler hrun hnext ih =>
    by_cases hrem : s.remaining = 0
    · rw [messageLoop_of_stop reader (.inl hrem)]
      exact .more hover hrem hcont (hst ▸ .content hread hhandler hrun hnext) htracks
    · obtain ⟨fuel, rfl⟩ : ∃ n, fuel = n + 1 := ⟨fuel - 1, by omega⟩
      obtain ⟨s₁, hs, htracks₁⟩ := htracks.readU8_eq hflags hread
      have hne : messageType ≠ tnsMsgTypeEndOfResponse := by
        rintro rfl
        cases hhandler
      have hdone : taken.done = false := by
        obtain ⟨type, -, htype⟩ := bind_eq_some_iff.1 hhandler
        exact (hwaits type handler htype state).of_run hrun
      rw [messageLoop_of_message reader hrem hover hs]
      have hagree := (handler state).respects hflags c₁ s₁ htracks₁
      rcases hs₂ : (handler state).run s₁ with ⟨r, s₂⟩
      rw [hrun, hs₂] at hagree
      cases hagree with
      | stop _ he =>
        have hstep : ∃ err, LengthError err
            ∧ processMessage reader s.pos messageType l s₁ = (.error err, s₂) := by
          refine ⟨_, he.2, ?_⟩
          rw [processMessage, if_neg hne, hhandler]
          exact bind_error (by rw [hst]; exact hs₂) _
        obtain ⟨err, herr, hstep⟩ := hstep
        rw [bind_error hstep]
        exact .failed herr
      | ok _ htracks₂ =>
        have hstep : processMessage reader s.pos messageType l s₁
            = (.ok { l with responseHadContent := true, state := taken.state,
                            done := taken.done, raised := taken.raised }, s₂) := by
          rw [processMessage, if_neg hne, hhandler]
          exact bind_ok (by rw [hst]; exact hs₂) _
        rw [bind_ok hstep]
        have hlt : bytesLeft c₂ < bytesLeft c := by
          have hle := Program.run_shrinks bytesLeft_measure (handler state) c₁
          rw [hrun] at hle
          exact lt_of_le_of_lt hle (bytesLeft_lt_of_readU8 hread)
        cases hraised : taken.raised with
        | some err =>
          rw [messageLoop_of_stop reader (.inr (by simp [Loop.over]))]
          refine .finished (by simp [Loop.over]) ?_
          exact htracks₂.stoppedAt (htracks.pos_lt_of_bytesLeft htracks₂ hlt)
        | none =>
          have hfuel₂ : bytesLeft s₂ < fuel := by
            have hle := Program.run_shrinks bytesLeft_measure (handler state) s₁
            rw [hs₂] at hle
            have hle' : bytesLeft s₂ ≤ bytesLeft s₁ := hle
            have := bytesLeft_lt_of_readU8 hs
            omega
          exact ih rfl htracks₂.rebase (by simp [Loop.over, hdone]) (.inl rfl) hfuel₂

/-- The next packet of a response, when the previous ones are used up. -/
lemma tracks_next_packet {got todo : List DataPacket} (rest : List DataPacket) {p : DataPacket}
    (h : Fetched caps got (p :: todo) rest c s) (hflags : OnlyLastFlagged (got ++ p :: todo))
    (hrem : s.remaining = 0) :
    Tracks caps c.pos (got ++ p :: todo) rest c (streaming p (todo ++ rest) caps) := by
  have hpos : c.pos = (payloads got).length := by
    have hlen := h.remaining_eq
    have hle := h.slice_pos_le
    omega
  refine ⟨got ++ [p], todo, by simp, ⟨?_, le_rfl, ?_, fun hlt => absurd hlt (lt_irrefl _)⟩⟩
  · constructor
    case slice => rw [h.slice, append_assoc, singleton_append]
    case stream =>
      have hgot : (got.any fun q => endFlags q.dataFlags) = false := hflags.flagged_eq_false
      simp [streaming, PacketCursor.data, flagged, hgot]
    case drop_eq => simp [streaming, PacketCursor.data, hpos]
    case pos_le => exact Nat.zero_le _
    case slice_pos_le => simp [hpos]
    case slice_bigClrChunks => exact h.slice_bigClrChunks
    case stream_bigClrChunks => rfl
    case slice_legacyNullClr => exact h.slice_legacyNullClr
    case stream_legacyNullClr => rfl
  · rw [dropLast_concat, hpos]

variable {reader} in
/-- There is a byte in front of a response that is not over. -/
lemma Messages.remaining_ne_zero {state : σ} {data : Bytes}
    (h : Messages reader state c e) (hc : c.source = .slice data) : c.remaining ≠ 0 := by
  have hread : ∃ b c', readU8 c = (.ok b, c') := by
    cases h with
    | endOfResponse hread _ | content hread _ _ _ => exact ⟨_, _, hread⟩
  obtain ⟨b, c', hread⟩ := hread
  intro hzero
  have hshort : ensureAvailable 1 "short TTC packet while reading u8" c
      = (.error (.short "short TTC packet while reading u8"), c) := by
    rw [ensureAvailable_slice hc, if_pos (by omega)]
  rw [readU8, bind_error hshort] at hread
  cases hread

variable {reader} in
/-- Where messages are left and the buffer is used up, a packet of the response is still to come. -/
lemma Messages.exists_packet {state : σ} {start : ℕ}
    (h : Messages reader state c e) (htracks : Tracks caps start resp rest c s)
    (hrem : s.remaining = 0) :
    ∃ got p todo, resp = got ++ p :: todo ∧ Fetched caps got (p :: todo) rest c s := by
  obtain ⟨got, todo, rfl, htracks⟩ := htracks
  cases todo with
  | nil =>
    have hlen := congrArg length htracks.toFetched.slice_drop_eq
    rw [payloads_nil, append_nil, length_drop, length_drop] at hlen
    exact absurd (hlen.trans hrem) (h.remaining_ne_zero htracks.slice)
  | cons p todo => exact ⟨got, p, todo, rfl, htracks.toFetched⟩

lemma packetLoop_of_over (caps : CursorCapabilities) (fuel : ℕ) (h : l.over)
    (stream : List DataPacket) : packetLoop reader caps (fuel + 1) l stream = (.ok l, stream) := by
  cases stream <;> simp [packetLoop, h]

/-- A reader that is done stays done. -/
lemma afterMessages_over (seen : Bool) (h : l.over) :
    (if l.raised.isSome then l else afterMessages reader seen l).over := by
  by_cases hraised : l.raised.isSome
  · rwa [if_pos hraised]
  · rw [Loop.over] at h
    have hover : ∀ l' : Loop σ, l'.done → l'.over := by
      intro l' h'
      rw [Loop.over, h', Bool.true_or]
    rw [afterMessages]
    grind

/-- The packet loop, by induction on the packets on the connection: it fails on a
misread length byte, or it ends where the reader is done. -/
lemma packetLoop_spec (hwaits : reader.WaitsForEnd)
    (hflags : OnlyLastFlagged resp) (fuel : ℕ) (hover : l.over = false)
    (hrem : s.remaining = 0) (hcont : l.responseHadContent
      ∨ ∀ c', readU8 c ≠ (.ok tnsMsgTypeEndOfResponse, c'))
    (hmsgs : Messages reader l.state c e) (htracks : Tracks caps c.pos resp rest c s)
    (hfuel : s.packetsLeft.length < fuel) :
    (∃ err left, packetLoop reader caps fuel l s.packetsLeft = (.error err, left) ∧ LengthError err)
      ∨ ∃ l' left, packetLoop reader caps fuel l s.packetsLeft = (.ok l', left)
        ∧ l'.over ∧ StoppedAt (e.getD (payloads resp).length) resp rest left := by
  induction fuel generalizing l c s with
  | zero => exact absurd hfuel (Nat.not_lt_zero _)
  | succ fuel ih =>
    obtain ⟨got, p, todo, rfl, hfetched⟩ := hmsgs.exists_packet htracks hrem
    have hnext := tracks_next_packet rest hfetched hflags hrem
    have houtcome := messageLoop_spec reader hwaits hflags
      (l := { l with skippedEmptyEndOfResponse := false }) hmsgs rfl hnext hover hcont
      (Nat.lt_succ_self _)
    rw [hfetched.packetsLeft_eq] at hfuel ⊢
    rw [cons_append, packetLoop, hover]
    set first := streaming p (todo ++ rest) caps
    have hleft := messageLoop_shrinks reader packetsLeft_measure (bytesLeft first + 1)
      { l with skippedEmptyEndOfResponse := false } first
    change Outcome reader caps _ rest e (messageLoop reader (first.unread.length + 1) _ _)
      at houtcome
    change (messageLoop reader (first.unread.length + 1) _ _).2.packetsLeft.length
      ≤ (todo ++ rest).length at hleft
    rcases hloop : messageLoop reader (first.unread.length + 1)
      { l with skippedEmptyEndOfResponse := false } first with ⟨r, s'⟩
    rw [hloop] at houtcome hleft
    have hfuel' : s'.packetsLeft.length < fuel :=
      lt_of_le_of_lt hleft (Nat.lt_of_succ_lt_succ hfuel)
    cases houtcome with
    | failed herr =>
      refine .inl ⟨_, s'.packetsLeft, ?_, herr⟩
      simp [hloop]
    | @more l' c' _ hover' hrem' hcont' hmsgs' htracks' =>
      have hraised : l'.raised.isSome = false := by
        rw [Loop.over, Bool.or_eq_false_iff] at hover'
        exact hover'.2
      have hseen : s'.endOfResponseSeen = false := by
        obtain ⟨got', p', todo', heq, hfetched'⟩ := hmsgs'.exists_packet htracks' hrem'
        rw [hfetched'.endOfResponseSeen_eq]
        exact (heq ▸ hflags).flagged_eq_false
      have hstep := ih hover' hrem' hcont' hmsgs' htracks' hfuel'
      simpa [hloop, hraised, afterMessages, hseen] using hstep
    | @finished l' _ hover' hstopped =>
      have hdone := afterMessages_over reader s'.endOfResponseSeen hover'
      obtain ⟨fuel, rfl⟩ : ∃ n, fuel = n + 1 := ⟨fuel - 1, by omega⟩
      refine .inr ⟨_, s'.packetsLeft, ?_, hdone, hstopped⟩
      simp only [hloop, Bool.false_eq_true, if_false]
      exact packetLoop_of_over reader caps fuel hdone s'.packetsLeft

end Loops

/-- A reader that waits for the end of the response stops behind the first message
that makes it return an error, or at the end of the response. -/
lemma readResponse_spec {σ : Type} {reader : Reader σ} (hwaits : reader.WaitsForEnd)
    {caps : CursorCapabilities} {state : σ} (h : Response reader caps state resp e)
    (skip : Bool) (rest : List DataPacket) :
    (∃ err, (readResponse reader caps state skip (resp ++ rest)).1 = .error err ∧ LengthError err)
      ∨ StoppedAt (e.getD (payloads resp).length) resp rest
        (readResponse reader caps state skip (resp ++ rest)).2 := by
  -- before the first packet nothing is fetched
  have htracks : Tracks caps 0 resp rest (withCapabilities (payloads resp) caps)
      ⟨.stream ⟨[], resp ++ rest, false⟩, 0, caps.supportsBigClrChunks, caps.legacyNullClr⟩ :=
    ⟨[], resp, rfl, ⟨⟨rfl, rfl, rfl, le_rfl, le_rfl, rfl, rfl, rfl, rfl⟩, le_rfl, le_rfl,
      fun hlt => absurd hlt (lt_irrefl _)⟩⟩
  have hcont : ∀ c', readU8 (withCapabilities (payloads resp) caps)
      ≠ (.ok tnsMsgTypeEndOfResponse, c') := by
    intro c' hread
    have hne := h.messages.remaining_ne_zero rfl
    rw [readU8_slice rfl hne] at hread
    apply h.content
    cases hbytes : payloads resp with
    | nil => simp [withCapabilities, remaining, PacketCursor.data, hbytes] at hne
    | cons b bytes =>
      simp only [withCapabilities, PacketCursor.data, hbytes, getD_cons_zero, Prod.mk.injEq,
        Except.ok.injEq] at hread
      rw [head?_cons, hread.1]
  rcases packetLoop_spec reader hwaits h.flags (l := ⟨state, false, none, false, skip, false⟩)
      ((resp ++ rest).length + 1) rfl rfl (.inr hcont) h.messages htracks
      (Nat.lt_succ_self _) with ⟨err, left, hloop, herr⟩ | ⟨l, left, hloop, -, hstopped⟩
  · left
    refine ⟨err, ?_, herr⟩
    have hloop' : packetLoop reader caps ((resp ++ rest).length + 1) _ (resp ++ rest) = _ := hloop
    rw [readResponse, hloop']
  · right
    have hloop' : packetLoop reader caps ((resp ++ rest).length + 1) _ (resp ++ rest) = _ := hloop
    rw [readResponse, hloop']
    cases hraised : l.raised with
    | some err | none => simpa [hraised] using hstopped

/-! ### The readers -/

/-- The reader returned a result, or an error that the server reported. -/
def Answered {α : Type} (result : Except OracleThinError α) : Prop :=
  match result with
  | .ok _ => True
  | .error (.oracle _ _) => True
  | .error _ => False

lemma not_answered_of_lengthError {α : Type} {err : OracleThinError} (h : LengthError err) :
    ¬ Answered (.error err : Except OracleThinError α) := by
  obtain ⟨len, start, context, rfl⟩ := h
  exact id

section Readers

variable (decodeText : Bytes → Except OracleThinError String) {caps : OracleThinCapabilities}
  (hend : caps.supportsEndOfResponse)

include hend

/-- The shared handlers leave the end of the response to its own message. -/
lemma commonMessage_waits {σ : Type} (get : σ → ServerSidePiggybackState)
    (set : σ → ServerSidePiggybackState → σ) (messageType : MessageType)
    (handler : σ → Program (Taken σ))
    (h : commonMessage decodeText caps get set messageType = some handler) (state : σ) :
    (handler state).Always fun taken => taken.done = false ∧ taken.raised = none := by
  cases messageType <;> simp only [commonMessage, some.injEq, reduceCtorEq] at h <;>
    subst h
  case status => exact .bind _ fun _ => ⟨by simp [hend], rfl⟩
  case token => exact .bind _ fun _ => ⟨rfl, rfl⟩
  case warning => exact .bind _ fun _ => ⟨rfl, rfl⟩
  case serverSidePiggyback => exact .bind _ fun _ => ⟨rfl, rfl⟩

lemma raiseError_waits {σ : Type} (get : σ → ServerSidePiggybackState)
    (set : σ → ServerSidePiggybackState → σ) (state : σ) :
    (raiseError caps get set state).Always fun taken => taken.done = false := by
  refine .bind _ fun error => ?_
  split
  · exact rfl
  · show (!caps.supportsEndOfResponse) = false
    simp [hend]

lemma simpleReader_waits : (simpleReader decodeText caps).WaitsForEnd := by
  intro messageType handler h state
  cases messageType with
  | error =>
    cases h
    exact raiseError_waits hend _ _ state
  | parameter =>
    cases h
    exact .bind _ fun _ => rfl
  | _ =>
    simp only [simpleReader] at h
    exact (commonMessage_waits decodeText hend id (fun _ state => state) _ handler h
      state).mono fun _ => And.left

lemma lobReader_waits (locatorLen : ℕ) (readAmount readCreateTempTail : Bool) :
    (lobReader decodeText caps locatorLen readAmount readCreateTempTail).WaitsForEnd := by
  intro messageType handler h state
  cases messageType with
  | error =>
    cases h
    exact raiseError_waits hend _ _ state
  | lobData | parameter =>
    cases h
    exact .bind _ fun _ => rfl
  | _ =>
    simp only [lobReader] at h
    exact (commonMessage_waits decodeText hend LobReadState.server
      (fun s state => { s with server := state }) _ handler h state).mono fun _ => And.left

/-- The execute reader returns no error before the end of the response. -/
lemma executeReader_patient {V : Type} (codec : ValueCodec V) (request : StatementRequest)
    (messageType : MessageType) (handler : ExecuteState V → Program (Taken (ExecuteState V)))
    (h : (executeReader decodeText caps codec request).message messageType = some handler)
    (state : ExecuteState V) :
    (handler state).Always fun taken => taken.done = false ∧ taken.raised = none := by
  have hdone : (!caps.supportsEndOfResponse) = false := by simp [hend]
  cases messageType with
  | error =>
    cases h
    refine .bind _ fun error => ?_
    dsimp only
    split
    · exact ⟨hdone, rfl⟩
    · split
      · exact ⟨hdone, rfl⟩
      · exact ⟨hdone, rfl⟩
  | rowHeader | rowData | ioVector | describeInfo | bitVector | implicitResultset | parameter =>
    cases h
    exact .bind _ fun _ => ⟨rfl, rfl⟩
  | flushOutBinds =>
    cases h
    exact ⟨rfl, rfl⟩
  | _ =>
    simp only [executeReader] at h
    exact commonMessage_waits decodeText hend ExecuteState.server
      (fun s state => { s with server := state }) _ handler h state

omit hend in
/-- A reader that returns no error before the end has nothing to stop at. -/
lemma Messages.eq_none {σ : Type} {reader : Reader σ}
    (hpatient : ∀ messageType handler, reader.message messageType = some handler →
      ∀ state, (handler state).Always fun taken => taken.done = false ∧ taken.raised = none)
    {state : σ} {c : PacketCursor} (h : Messages reader state c e) : e = none := by
  induction h with
  | endOfResponse _ _ => rfl
  | content _ hhandler hrun _ ih =>
    obtain ⟨type, -, htype⟩ := bind_eq_some_iff.1 hhandler
    have hraised := ((hpatient type _ htype _).of_run hrun).2
    rw [hraised, isSome_none, if_neg Bool.false_ne_true, ih]

end Readers

/-! ### An error response in two packets -/

/-- Capabilities of a current server. -/
def currentCaps : OracleThinCapabilities where
  supportsBigClrChunks := true
  protocolVersion := some 319
  ttcFieldVersion := 24
  serverTtcFieldVersion := 24
  supportsEndOfResponse := true
  supportsEndOfCallStatus := true
  supportsFastSessionAttributes := true

/-- An ERROR message with the code 942 and no text. -/
def errorMessage : Bytes := 4 :: replicate 28 0 ++ [2, 3, 174, 0, 0, 0, 0]

/-- The error in one packet, the end of the response in the next. -/
def splitResponse : List DataPacket := [⟨0, errorMessage⟩, ⟨0x2000, [29]⟩]

/-- A message whose answer tells where the reader stops. -/
lemma Messages.taking {σ : Type} {reader : Reader σ} {state : σ} {c c₁ c₂ : PacketCursor}
    {messageType : UInt8} {handler : σ → Program (Taken σ)} {taken : Taken σ} {e' : Option ℕ}
    (hread : readU8 c = (.ok messageType, c₁))
    (hhandler : (MessageType.ofByte messageType).bind reader.message = some handler)
    (hrun : (handler state).run c₁ = (.ok taken, c₂)) (hnext : Messages reader taken.state c₂ e)
    (he : (if taken.raised.isSome then some c₂.pos else e) = e') : Messages reader state c e' :=
  he ▸ .content hread hhandler hrun hnext

lemma splitResponse_response :
    Response (simpleReader (fun _ => .ok "") currentCaps) currentCaps.toCursorCapabilities {}
      splitResponse (some 36) where
  messages := .taking rfl rfl rfl (.endOfResponse rfl rfl) rfl
  content := by decide
  flags := rfl

/-- Values of which only their number is kept. -/
def unitCodec : ValueCodec Unit where
  null := ()
  isNull _ := true
  boolean _ := ()
  lob _ := ()
  array _ := ()
  refCursor _ _ := ()
  physicalRowid _ _ _ _ := ()
  field _ _ := .ok ()
  urowid _ := .ok ()
  json _ := .ok ()
  vector _ := .ok ()
  xml _ := .ok ()
  object _ _ := .ok ()

/-- A query without binds. -/
def plainQuery : StatementRequest := ⟨true, false, false, [], 0⟩

lemma splitResponse_executeResponse :
    Response (executeReader (fun _ => .ok "") currentCaps unitCodec plainQuery)
      currentCaps.toCursorCapabilities { read := {}, server := {} } splitResponse none where
  messages := .taking rfl rfl rfl (.endOfResponse rfl rfl) rfl
  content := by decide
  flags := rfl

/-! ### The request boundary -/

/-- What the three readers leave on the connection behind a response they answered:
`rest`, and so the next call starts at a request boundary, exactly if the last byte
they read lies in the last packet. `read_simple_response` and
`read_lob_operation_response` read up to the end of the first ERROR message with a
code (`e`), `read_execute_response_with_state` always reads up to the end. -/
theorem readers_leave_rest_iff (decodeText : Bytes → Except OracleThinError String)
    (caps : OracleThinCapabilities) (hend : caps.supportsEndOfResponse = true)
    (server : ServerSidePiggybackState) (skip : Bool) (resp rest : List DataPacket) :
    (∀ e, Response (simpleReader decodeText caps) caps.toCursorCapabilities
        { server with lastWarning := none } resp e →
      Answered (readSimpleResponse decodeText caps server skip (resp ++ rest)).1 →
      ((readSimpleResponse decodeText caps server skip (resp ++ rest)).2 = rest
        ↔ lastPacketStart resp < e.getD (payloads resp).length))
    ∧ (∀ locatorLen readAmount readCreateTempTail e,
      Response (lobReader decodeText caps locatorLen readAmount readCreateTempTail)
        caps.toCursorCapabilities { server := { server with lastWarning := none } } resp e →
      Answered (readLobOperationResponse decodeText caps locatorLen readAmount
        readCreateTempTail server (resp ++ rest)).1 →
      ((readLobOperationResponse decodeText caps locatorLen readAmount readCreateTempTail server
          (resp ++ rest)).2 = rest
        ↔ lastPacketStart resp < e.getD (payloads resp).length))
    ∧ (∀ (V : Type) (codec : ValueCodec V) (request : StatementRequest)
        (state : ExecuteReadState V) (e : Option ℕ),
      Response (executeReader decodeText caps codec request) caps.toCursorCapabilities
        { read := state.forRequest request, server := { server with lastWarning := none } }
        resp e →
      Answered (readExecuteResponseWithState decodeText caps codec request server state skip
        (resp ++ rest)).1 →
      ((readExecuteResponseWithState decodeText caps codec request server state skip
          (resp ++ rest)).2 = rest
        ↔ lastPacketStart resp < (payloads resp).length)) := by
  refine ⟨?_, ?_, ?_⟩
  · intro e hresp hanswered
    rcases readResponse_spec (simpleReader_waits decodeText hend) hresp skip rest with
      ⟨err, herr, hlen⟩ | hstopped
    · rw [readSimpleResponse, herr] at hanswered
      exact absurd hanswered (not_answered_of_lengthError hlen)
    · exact hstopped.left_eq_iff
  · intro locatorLen readAmount readCreateTempTail e hresp hanswered
    rcases readResponse_spec (lobReader_waits decodeText hend locatorLen readAmount
      readCreateTempTail) hresp false rest with ⟨err, herr, hlen⟩ | hstopped
    · rw [readLobOperationResponse, herr] at hanswered
      exact absurd hanswered (not_answered_of_lengthError hlen)
    · exact hstopped.left_eq_iff
  · intro V codec request state e hresp hanswered
    have hpatient := executeReader_patient decodeText hend codec request
    obtain rfl := hresp.messages.eq_none hpatient
    have hwaits : (executeReader decodeText caps codec request).WaitsForEnd :=
      fun messageType handler h state =>
        (hpatient messageType handler h state).mono fun _ => And.left
    rcases readResponse_spec hwaits hresp skip rest with ⟨err, herr, hlen⟩ | hstopped
    · rw [readExecuteResponseWithState, herr] at hanswered
      exact absurd hanswered (not_answered_of_lengthError hlen)
    · exact hstopped.left_eq_iff

/-- The execute reader keeps the error and reads both packets, up to the next
response. -/
theorem readers_leave_rest_iff_execute :
    (readExecuteResponseWithState (fun _ => .ok "") currentCaps unitCodec plainQuery {} {} false
      (splitResponse ++ [⟨0, [4]⟩])).2 = [⟨0, [4]⟩] :=
  ((readers_leave_rest_iff (fun _ => .ok "") currentCaps rfl {} false splitResponse
    [⟨0, [4]⟩]).2.2 Unit unitCodec plainQuery {} none splitResponse_executeResponse trivial).2
    (by decide)

/-- The error comes back while the end of the response is still on the connection. -/
theorem not_readers_leave_rest :
    Response (simpleReader (fun _ => .ok "") currentCaps) currentCaps.toCursorCapabilities {}
        splitResponse (some 36)
      ∧ Answered (readSimpleResponse (fun _ => .ok "") currentCaps {} false splitResponse).1
      ∧ (readSimpleResponse (fun _ => .ok "") currentCaps {} false splitResponse).2
        = [⟨0x2000, [29]⟩] :=
  ⟨splitResponse_response, trivial, rfl⟩

end SpaceQuery.Thin
