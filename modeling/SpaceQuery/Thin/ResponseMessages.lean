import SpaceQuery.Thin.FieldWriter
import SpaceQuery.Thin.RequestBoundary

/-!
A response read message by message, however its bytes are cut into packets. The reader handles the
messages that start in a packet with one cursor and starts a new cursor on the next packet.
-/

namespace SpaceQuery.Thin

open List PacketCursor CursorM

/-! ### Messages -/

section

variable {σ : Type} (reader : Reader σ) (big : Bool)

/-- The bytes are a content message, and this is what its handler makes of it. -/
def Takes (state : σ) (bytes : Bytes) (taken : Taken σ) : Prop :=
  ∃ messageType body handler, bytes = messageType :: body ∧ messageType ≠ tnsMsgTypeEndOfResponse ∧
    (MessageType.ofByte messageType).bind reader.message = some handler ∧
    Yields big (handler state).run body taken

/-- The bytes are content messages, none of which ends the response. -/
inductive TakesAll : σ → Bytes → σ → Prop
  | nil (state : σ) : TakesAll state [] state
  | cons {state next last : σ} {bytes rest : Bytes}
      (htakes : Takes reader big state bytes { state := next })
      (hrest : TakesAll next rest last) : TakesAll state (bytes ++ rest) last

variable {reader big}

lemma TakesAll.append {state next last : σ} {bytes rest : Bytes}
    (h : TakesAll reader big state bytes next) (hrest : TakesAll reader big next rest last) :
    TakesAll reader big state (bytes ++ rest) last := by
  induction h with
  | nil state => exact hrest
  | cons htakes _ ih =>
    rw [append_assoc]
    exact .cons htakes (ih hrest)

lemma Takes.takesAll {state next : σ} {bytes : Bytes}
    (h : Takes reader big state bytes { state := next }) :
    TakesAll reader big state bytes next := by
  have hall := TakesAll.cons h (.nil next)
  rwa [append_nil] at hall

variable (reader big) in
/-- How the bytes that a connection delivers make up a response: behind some messages comes one
that ends it, or END_OF_RESPONSE, or the packet is flagged. -/
inductive Complete (state : σ) (stream : List DataPacket) : σ → Prop
  | done {next last : σ} {bytes final rest : Bytes} (hall : TakesAll reader big state bytes next)
      (hfinal : Takes reader big next final { state := last, done := true })
      (hstream : deliverable stream = bytes ++ (final ++ rest)) : Complete state stream last
  | endOfResponse {last : σ} {bytes rest : Bytes} (hall : TakesAll reader big state bytes last)
      (hcontent : bytes ≠ []) (hstream : deliverable stream
        = bytes ++ tnsMsgTypeEndOfResponse :: rest) : Complete state stream last
  | flagged {last : σ} {bytes : Bytes} (hall : TakesAll reader big state bytes last)
      (hcontent : bytes ≠ []) (hstream : deliverable stream = bytes)
      (hflagged : flagged stream = true) : Complete state stream last

end

/-! ### The end flag -/

namespace PacketCursor

/-- The end of the response is flagged on a packet fetched or still to come. -/
def flagAhead (c : PacketCursor) : Bool := c.endOfResponseSeen || flagged c.packetsLeft

end PacketCursor

lemma flagAhead_streaming (packet : DataPacket) (stream : List DataPacket)
    (caps : CursorCapabilities) :
    (streaming packet stream caps).flagAhead = flagged (packet :: stream) := rfl

/-- Reading never loses the flag. -/
lemma flagAhead_measure : CursorMeasure fun c => if c.flagAhead then 0 else 1 where
  fetch ctx c := by
    obtain ⟨source, pos, big, legacy⟩ := c
    cases source with
    | slice data => exact le_rfl
    | stream source =>
      have hsame := (Fetched.compact_spec source pos).2.2
      cases hseen : source.endFlagsSeen with
      | true =>
        simp [fetchNextPacket, hseen]
      | false =>
        cases hstream : source.stream with
        | nil =>
          simp [fetchNextPacket, flagAhead, endOfResponseSeen, packetsLeft, hsame.1, hsame.2,
            hseen, hstream]
        | cons packet stream =>
          simp [fetchNextPacket, flagAhead, endOfResponseSeen, packetsLeft, hsame.1, hsame.2,
            hseen, hstream, flagged]
  advance _ _ := le_rfl

lemma flagAhead_of_shrinks {α : Type} {m : CursorM α}
    (hm : Comp.Shrinks (fun c : PacketCursor => if c.flagAhead then 0 else 1) m)
    {c c' : PacketCursor} {a : α} (hrun : m c = (.ok a, c')) (h : c.flagAhead) : c'.flagAhead := by
  have hle := hm c
  rw [hrun] at hle
  by_contra hnot
  simp [h, hnot] at hle

/-! ### The loops -/

section

variable {σ : Type} (reader : Reader σ) (caps : CursorCapabilities)

/-- What is left of the packet loop behind the messages of a packet. -/
def afterPacket (fuel : ℕ) (result : Except OracleThinError (Loop σ) × PacketCursor) :
    Except OracleThinError (Loop σ) × List DataPacket :=
  match result with
  | (.error e, c) => (.error e, c.packetsLeft)
  | (.ok l, c) =>
    packetLoop reader caps fuel
      (if l.raised.isSome then l else afterMessages reader c.endOfResponseSeen l) c.packetsLeft

/-- The loops inside a packet: their variables, the cursor and the rounds they may still take. -/
structure Loops (σ : Type) where
  l : Loop σ
  c : PacketCursor
  messages : ℕ
  packets : ℕ

namespace Loops

/-- What the loops come to. -/
def result (s : Loops σ) : Except OracleThinError (Loop σ) × List DataPacket :=
  afterPacket reader caps s.packets (messageLoop reader s.messages s.l s.c)

/-- The loops have rounds enough for what is left. -/
structure Fueled (s : Loops σ) : Prop where
  modes : s.c.bigClrChunks = caps.supportsBigClrChunks
  messages : s.c.unread.length < s.messages
  packets : s.c.packetsLeft.length < s.packets
  skipped : s.l.skippedEmptyEndOfResponse = false
  raised : s.l.raised = none

/-- The loops go on. -/
structure Running (s : Loops σ) : Prop extends s.Fueled caps where
  done : s.l.done = false

/-- The loops get from one point to another. -/
structure Leads (s t : Loops σ) : Prop where
  result : s.result reader caps = t.result reader caps
  flag : s.c.flagAhead = true → t.c.flagAhead = true

variable {reader caps} {s : Loops σ}

lemma Leads.trans {t u : Loops σ} (h : s.Leads reader caps t) (h' : t.Leads reader caps u) :
    s.Leads reader caps u :=
  ⟨h.result.trans h'.result, fun hflag => h'.flag (h.flag hflag)⟩

lemma Running.over (h : s.Running caps) : s.l.over = false := by
  rw [Loop.over, h.done, h.raised]
  rfl

/-- Bytes that are used up, in a packet that is not the last. -/
lemma drop_eq_nil {c : PacketCursor} (hrem : c.remaining = 0) : c.data.drop c.pos = [] := by
  rw [drop_eq_nil_iff]
  exact Nat.sub_eq_zero_iff_le.mp hrem

section

variable (h : s.Running caps)

include h

variable (reader) in
/-- The next packet is taken when the bytes of the last one are used up. -/
lemma next_packet (hrem : s.c.remaining = 0)
    (hseen : s.c.endOfResponseSeen = false) {packet : DataPacket} {stream : List DataPacket}
    (hleft : s.c.packetsLeft = packet :: stream) :
    ∃ t : Loops σ, t.Running caps ∧ s.Leads reader caps t ∧ t.c = streaming packet stream caps ∧
      t.l.state = s.l.state ∧ t.l.responseHadContent = s.l.responseHadContent := by
  obtain ⟨packets, hpackets⟩ : ∃ k, s.packets = k + 1 :=
    ⟨s.packets - 1, by have := h.packets; omega⟩
  have hlt := h.packets
  rw [hleft, length_cons, hpackets] at hlt
  let t : Loops σ := ⟨{ s.l with skippedEmptyEndOfResponse := false }, streaming packet stream caps,
    (streaming packet stream caps).unread.length + 1, packets⟩
  refine ⟨t, ⟨⟨rfl, Nat.lt_succ_self _, Nat.lt_of_succ_lt_succ hlt, rfl, h.raised⟩, h.done⟩,
    ⟨?_, ?_⟩, rfl, rfl, rfl⟩
  · rw [result, messageLoop_of_stop reader (.inl hrem), afterPacket, hseen, hleft, h.raised,
      hpackets]
    change packetLoop reader caps (packets + 1) s.l (packet :: stream) = _
    rw [packetLoop, h.over]
    rfl
  · intro hflag
    rwa [flagAhead, hseen, Bool.false_or, hleft] at hflag

variable (reader) in
/-- The loops get to a packet in which the next byte lies. -/
lemma exists_remaining (hne : s.c.available ≠ []) :
    ∃ t : Loops σ, t.Running caps ∧ s.Leads reader caps t ∧ t.c.available = s.c.available ∧
      t.c.remaining ≠ 0 ∧ t.l.state = s.l.state ∧
      t.l.responseHadContent = s.l.responseHadContent := by
  induction hcnt : s.c.packetsLeft.length using Nat.strong_induction_on generalizing s with
  | _ count ih =>
    by_cases hrem : s.c.remaining = 0
    · have hdrop := drop_eq_nil hrem
      have hseen : s.c.endOfResponseSeen = false := by
        by_contra hseen
        rw [Bool.not_eq_false] at hseen
        rw [available, hdrop, hseen] at hne
        exact hne rfl
      have hleft : s.c.available = deliverable s.c.packetsLeft := by
        rw [available, hdrop, hseen]
        rfl
      cases hpackets : s.c.packetsLeft with
      | nil =>
        rw [hleft, hpackets] at hne
        exact absurd rfl hne
      | cons packet stream =>
        obtain ⟨t, ht, hleads, hc, hst, hcont⟩ := next_packet reader h hrem hseen hpackets
        have havail : t.c.available = s.c.available := by
          rw [hc, hleft, hpackets]
          rfl
        have hlt : t.c.packetsLeft.length < count := by
          rw [hc, ← hcnt, hpackets]
          exact Nat.lt_succ_self _
        obtain ⟨u, hu, hleads', havail', hrem', hst', hcont'⟩ :=
          ih _ hlt ht (by rwa [havail]) rfl
        exact ⟨u, hu, hleads.trans hleads', havail'.trans havail, hrem',
          hst'.trans hst, hcont'.trans hcont⟩
    · exact ⟨s, h, ⟨rfl, id⟩, rfl, hrem, rfl, rfl⟩

/-- A message is taken by its handler. -/
lemma takes {bytes rest : Bytes} {taken : Taken σ}
    (htakes : Takes reader caps.supportsBigClrChunks s.l.state bytes taken)
    (hraised : taken.raised = none) (hbytes : s.c.available = bytes ++ rest) :
    ∃ t : Loops σ, t.Fueled caps ∧ s.Leads reader caps t ∧ t.c.available = rest ∧
      t.l.state = taken.state ∧ t.l.done = taken.done ∧ t.l.responseHadContent := by
  obtain ⟨messageType, body, handler, rfl, hcont, hhandler, hyields⟩ := htakes
  obtain ⟨s', h', hleads, havail, hrem, hst, -⟩ :=
    exists_remaining reader h (by rw [hbytes]; simp)
  rw [hbytes] at havail
  rw [← hst] at hyields
  obtain ⟨c₁, hread, hrest, hmodes⟩ := readU8_yields messageType s'.c _ h'.modes havail
  obtain ⟨c₂, hrun, hrest', hmodes'⟩ := hyields c₁ _ (hmodes.1.trans h'.modes) hrest
  obtain ⟨fuel, hfuel⟩ : ∃ k, s'.messages = k + 1 :=
    ⟨s'.messages - 1, by have := h'.messages; omega⟩
  let next : Loop σ :=
    { s'.l with
      responseHadContent := true
      state := taken.state
      done := taken.done
      raised := taken.raised }
  refine ⟨⟨next, c₂, fuel, s'.packets⟩,
    ⟨hmodes'.1.trans (hmodes.1.trans h'.modes), ?_, ?_, h'.skipped, hraised⟩,
    hleads.trans ⟨?_, ?_⟩, hrest', rfl, rfl, rfl⟩
  · have hlt := bytesLeft_lt_of_readU8 hread
    have hle := Program.run_shrinks bytesLeft_measure (handler s'.l.state) c₁
    rw [hrun] at hle
    have hmsgs := h'.messages
    rw [hfuel] at hmsgs
    change bytesLeft c₂ < fuel
    change bytesLeft s'.c < fuel + 1 at hmsgs
    change bytesLeft c₂ ≤ bytesLeft c₁ at hle
    omega
  · have hle := readU8_shrinks packetsLeft_measure s'.c
    have hle' := Program.run_shrinks packetsLeft_measure (handler s'.l.state) c₁
    rw [hread] at hle
    rw [hrun] at hle'
    exact (hle'.trans hle).trans_lt h'.packets
  · rw [result, hfuel, messageLoop_of_message reader hrem h'.over hread, processMessage,
      if_neg hcont, hhandler, Comp.bind_ok (Comp.bind_ok hrun _)]
    rfl
  · intro hflag
    exact flagAhead_of_shrinks (Program.run_shrinks flagAhead_measure _) hrun
      (flagAhead_of_shrinks (readU8_shrinks flagAhead_measure) hread hflag)

/-- **The messages of a response are taken one after the other.** -/
theorem takesAll {bytes rest : Bytes} {state last : σ}
    (hall : TakesAll reader caps.supportsBigClrChunks state bytes last) (hst : s.l.state = state)
    (hbytes : s.c.available = bytes ++ rest) :
    ∃ t : Loops σ, t.Running caps ∧ s.Leads reader caps t ∧ t.c.available = rest ∧
      t.l.state = last ∧
      (bytes ≠ [] ∨ s.l.responseHadContent → t.l.responseHadContent) := by
  induction hall generalizing s with
  | nil state =>
    exact ⟨s, h, ⟨rfl, id⟩, hbytes, hst, fun hor => hor.resolve_left fun hne => hne rfl⟩
  | cons htakes _ ih =>
    rw [append_assoc] at hbytes
    rw [← hst] at htakes
    obtain ⟨t, ht, hleads, hrest, hst', hdone, hcont⟩ := takes h htakes rfl hbytes
    obtain ⟨u, hu, hleads', hrest', hst'', hcont'⟩ := ih ⟨ht, hdone⟩ hst' hrest
    exact ⟨u, hu, hleads.trans hleads', hrest', hst'', fun _ => hcont' (.inr hcont)⟩

end

/-! ### The end of a response -/

variable (reader) in
lemma afterMessages_state (seen : Bool) (l : Loop σ) :
    (afterMessages reader seen l).state = l.state ∧
      (afterMessages reader seen l).raised = l.raised := by
  rw [afterMessages]
  dsimp only
  split_ifs
  all_goals exact ⟨rfl, rfl⟩

/-- The loops have come to an end with a state. -/
def Ends (reader : Reader σ) (caps : CursorCapabilities) (s : Loops σ) (state : σ) : Prop :=
  ∃ l stream, s.result reader caps = (.ok l, stream) ∧ l.state = state ∧ l.raised = none

lemma Ends.of_leads {t : Loops σ} {state : σ} (hleads : s.Leads reader caps t)
    (h : t.Ends reader caps state) : s.Ends reader caps state := by
  obtain ⟨l, stream, hres, hst⟩ := h
  exact ⟨l, stream, hleads.result.trans hres, hst⟩

variable (reader) in
/-- A response that is done is not read further. -/
lemma ends_of_done (h : s.Fueled caps) (hdone : s.l.done) : s.Ends reader caps s.l.state := by
  have hover : s.l.over := by rw [Loop.over, hdone, Bool.true_or]
  obtain ⟨packets, hpackets⟩ : ∃ k, s.packets = k + 1 :=
    ⟨s.packets - 1, by have := h.packets; omega⟩
  have hafter := afterMessages_over reader s.c.endOfResponseSeen hover
  obtain ⟨hst, hraised⟩ := afterMessages_state reader s.c.endOfResponseSeen s.l
  rw [h.raised] at hafter hraised
  refine ⟨afterMessages reader s.c.endOfResponseSeen s.l, s.c.packetsLeft, ?_, hst, hraised⟩
  rw [result, messageLoop_of_stop reader (.inr hover), afterPacket, h.raised, hpackets]
  exact packetLoop_of_over reader caps packets hafter _

variable (reader) in
/-- END_OF_RESPONSE behind some content ends the response. -/
lemma ends_of_endOfResponse (h : s.Running caps) (hcont : s.l.responseHadContent)
    {rest : Bytes} (hbytes : s.c.available = tnsMsgTypeEndOfResponse :: rest) :
    s.Ends reader caps s.l.state := by
  obtain ⟨t, ht, hleads, havail, hrem, hst, hcont'⟩ :=
    exists_remaining reader h (by rw [hbytes]; simp)
  rw [hbytes] at havail
  rw [hcont] at hcont'
  obtain ⟨c₁, hread, -, hmodes⟩ :=
    readU8_yields tnsMsgTypeEndOfResponse t.c rest ht.modes havail
  obtain ⟨fuel, hfuel⟩ : ∃ k, t.messages = k + 1 :=
    ⟨t.messages - 1, by have := ht.messages; omega⟩
  let u : Loops σ := ⟨{ t.l with done := true }, c₁, fuel, t.packets⟩
  have hu : u.Fueled caps := by
    refine ⟨hmodes.1.trans ht.modes, ?_, ?_, ht.skipped, ht.raised⟩
    · have hlt := bytesLeft_lt_of_readU8 hread
      have hmsgs := ht.messages
      rw [hfuel] at hmsgs
      change bytesLeft t.c < fuel + 1 at hmsgs
      change bytesLeft c₁ < fuel
      omega
    · have hle := readU8_shrinks packetsLeft_measure t.c
      rw [hread] at hle
      exact hle.trans_lt ht.packets
  have hres : t.result reader caps = u.result reader caps := by
    rw [result, hfuel, messageLoop_of_message reader hrem ht.over hread, processMessage, if_pos rfl,
      if_pos hcont']
    rfl
  have hends : u.Ends reader caps t.l.state := ends_of_done reader hu rfl
  rw [hst] at hends
  obtain ⟨l, stream, hres', hrest⟩ := hends
  exact ⟨l, stream, hleads.result.trans (hres.trans hres'), hrest⟩

variable (reader) in
/-- A flagged packet ends the response once its bytes are used up. -/
lemma ends_of_flagged (h : s.Running caps) (hcont : s.l.responseHadContent)
    (hbytes : s.c.available = []) (hflag : s.c.flagAhead) : s.Ends reader caps s.l.state := by
  induction hcnt : s.c.packetsLeft.length using Nat.strong_induction_on generalizing s with
  | _ count ih =>
    have hdrop : s.c.data.drop s.c.pos = [] := (append_eq_nil_iff.mp hbytes).1
    have hrem : s.c.remaining = 0 := by
      rw [drop_eq_nil_iff] at hdrop
      exact Nat.sub_eq_zero_iff_le.mpr hdrop
    cases hseen : s.c.endOfResponseSeen with
    | true =>
      obtain ⟨packets, hpackets⟩ : ∃ k, s.packets = k + 1 :=
        ⟨s.packets - 1, by have := h.packets; omega⟩
      have hafter : afterMessages reader true s.l = { s.l with done := true } := by
        rw [afterMessages, if_pos rfl, hcont, Bool.not_true, Bool.and_false,
          if_neg Bool.false_ne_true]
        dsimp only
        rw [h.skipped, Bool.and_false, if_neg Bool.false_ne_true]
      refine ⟨{ s.l with done := true }, s.c.packetsLeft, ?_, rfl, h.raised⟩
      rw [result, messageLoop_of_stop reader (.inl hrem), afterPacket, hseen, h.raised, hpackets,
        hafter]
      exact packetLoop_of_over reader caps packets rfl _
    | false =>
      rw [flagAhead, hseen, Bool.false_or] at hflag
      cases hpackets : s.c.packetsLeft with
      | nil =>
        rw [hpackets] at hflag
        cases hflag
      | cons packet stream =>
        obtain ⟨t, ht, hleads, hc, hst, hcont'⟩ :=
          next_packet reader h hrem hseen hpackets
        have havail : t.c.available = [] := by
          rw [available, hdrop, hseen, hpackets] at hbytes
          rw [hc]
          exact hbytes
        have hflag' : t.c.flagAhead := by
          rw [hc, flagAhead_streaming, ← hpackets]
          exact hflag
        have hlt : t.c.packetsLeft.length < count := by
          rw [hc, ← hcnt, hpackets]
          exact Nat.lt_succ_self _
        have hends := ih _ hlt ht (hcont'.trans hcont) havail hflag' rfl
        rw [hst] at hends
        exact hends.of_leads hleads

variable (reader) in
/-- A complete response in front of the loops. -/
lemma ends_of_complete (h : s.Running caps) {stream : List DataPacket} {last : σ}
    (hstream : s.c.available = deliverable stream) (hflag : flagged stream → s.c.flagAhead)
    (hcomplete : Complete reader caps.supportsBigClrChunks s.l.state stream last) :
    s.Ends reader caps last := by
  cases hcomplete with
  | done hall hfinal hbytes =>
    obtain ⟨t, ht, hleads, hrest, hst, -⟩ := takesAll h hall rfl (hstream.trans hbytes)
    rw [← hst] at hfinal
    obtain ⟨u, hu, hleads', -, hst', hdone, -⟩ := takes ht hfinal rfl hrest
    have hends := ends_of_done reader hu hdone
    rw [hst'] at hends
    exact hends.of_leads (hleads.trans hleads')
  | endOfResponse hall hcont hbytes =>
    obtain ⟨t, ht, hleads, hrest, hst, hcont'⟩ := takesAll h hall rfl (hstream.trans hbytes)
    have hends := ends_of_endOfResponse reader ht (hcont' (.inl hcont)) hrest
    rw [hst] at hends
    exact hends.of_leads hleads
  | flagged hall hcont hbytes hflagged =>
    rw [← append_nil (deliverable stream)] at hstream
    rw [hbytes] at hstream
    obtain ⟨t, ht, hleads, hrest, hst, hcont'⟩ := takesAll h hall rfl hstream
    have hends := ends_of_flagged reader ht (hcont' (.inl hcont)) hrest
      (hleads.flag (hflag hflagged))
    rw [hst] at hends
    exact hends.of_leads hleads

end Loops

variable {stream : List DataPacket}

lemma Complete.deliverable_ne_nil {state last : σ} {big : Bool}
    (h : Complete reader big state stream last) : deliverable stream ≠ [] := by
  cases h with
  | done hall hfinal hbytes =>
    obtain ⟨messageType, body, handler, rfl, -⟩ := hfinal
    rw [hbytes]
    simp
  | endOfResponse hall hcont hbytes =>
    rw [hbytes]
    simp
  | flagged hall hcont hbytes hflagged => rwa [hbytes]

/-- **A complete response leaves the state that its messages lead to**, whatever packets its bytes
are cut into. -/
theorem readResponse_complete {state last : σ} (skip : Bool)
    (h : Complete reader caps.supportsBigClrChunks state stream last) :
    (readResponse reader caps state skip stream).1 = .ok last := by
  cases stream with
  | nil => exact absurd rfl (h.deliverable_ne_nil reader)
  | cons packet stream =>
    let s : Loops σ := ⟨{ state, skipEmptyEndOfResponse := skip }, streaming packet stream caps,
      (streaming packet stream caps).unread.length + 1, stream.length + 1⟩
    have hrunning : s.Running caps :=
      ⟨⟨rfl, Nat.lt_succ_self _, Nat.lt_succ_self _, rfl, rfl⟩, rfl⟩
    have hflag : flagged (packet :: stream) → s.c.flagAhead := id
    obtain ⟨l, left, hres, hst, hraised⟩ :=
      Loops.ends_of_complete reader hrunning rfl hflag h
    have hloop : packetLoop reader caps ((packet :: stream).length + 1)
        { state, skipEmptyEndOfResponse := skip } (packet :: stream) = s.result reader caps := rfl
    rw [readResponse, hloop, hres]
    dsimp only
    rw [hraised, hst]

end

end SpaceQuery.Thin
