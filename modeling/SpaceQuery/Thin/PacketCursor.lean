import SpaceQuery.Lib.ByteFields
import SpaceQuery.Lib.Simulation

/-!
`PacketCursor` of `tns-thin/src/session.rs`: the reader of TTC messages, over one byte slice or
over a stream of data packets. The connection is the packets it is going to deliver. A loop runs on
fuel that its input provides: the packets there are, or the bytes that every round consumes.
-/

namespace SpaceQuery.Thin

/-- The bytes of a packet or a buffer. -/
abbrev Bytes := List UInt8

def tnsDataFlagsEof : UInt16 := 0x0040

def tnsDataFlagsEndOfResponse : UInt16 := 0x2000

/-- `PACKET_CURSOR_COMPACT_THRESHOLD`. -/
def packetCursorCompactThreshold : ℕ := 16 * 1024

def tnsLegacyNullLengthIndicator : UInt8 := 0xfd

def tnsVersionMinAccepted : ℕ := 315

/-- A data packet: its data flags and its payload. -/
structure DataPacket where
  dataFlags : UInt16
  payload : Bytes
  deriving DecidableEq

/-- The bytes of a sequence of packets. -/
def payloads (packets : List DataPacket) : Bytes := packets.flatMap DataPacket.payload

/-- The data flags end the response. -/
def endFlags (dataFlags : UInt16) : Bool :=
  dataFlags &&& (tnsDataFlagsEndOfResponse ||| tnsDataFlagsEof) != 0

/-- `OracleThinError`, by what it reports. -/
inductive OracleThinError where
  /-- A slice is too short for the read, with the context of the read. -/
  | short (shortContext : String)
  /-- The packets of the response are used up in the middle of a message. -/
  | incomplete
  /-- The connection delivers no further packet. -/
  | disconnected
  /-- The length byte of a universal integer is too large. -/
  | universalLength (len start : ℕ) (context : Bytes)
  /-- The length byte of a signed integer is above its width. -/
  | signedLength (width len : ℕ)
  /-- A universal integer does not fit its type. -/
  | outOfRange (type : String) (value : ℕ)
  /-- A string field is not UTF-8. -/
  | invalidUtf8
  /-- An error the server reports in an ERROR message. -/
  | oracle (text : String) (details : Option (Option ℕ × ℕ × ℤ))
  /-- Any other error, by its text. -/
  | other (text : String)
  deriving DecidableEq

/-- The text of a byte as `{:02x?}` prints it. -/
def hexByte (b : UInt8) : String :=
  let digits := Nat.toDigits 16 b.toNat
  String.ofList (if digits.length < 2 then '0' :: digits else digits)

/-- `StreamingPacketSource`: the bytes fetched, the packets the connection is
going to deliver, and whether the end of the response was flagged. -/
structure StreamingPacketSource where
  buf : Bytes
  stream : List DataPacket
  endFlagsSeen : Bool
  deriving DecidableEq

/-- What a cursor reads. -/
inductive PacketCursorSource where
  | slice (data : Bytes)
  | stream (source : StreamingPacketSource)
  deriving DecidableEq

/-- Where a response is read. -/
structure PacketCursor where
  source : PacketCursorSource
  pos : ℕ
  bigClrChunks : Bool
  legacyNullClr : Bool
  deriving DecidableEq

/-- The fields of `OracleThinCapabilities` a cursor is built from. -/
structure CursorCapabilities where
  supportsBigClrChunks : Bool
  protocolVersion : Option ℕ
  deriving DecidableEq

def CursorCapabilities.legacyNullClr (caps : CursorCapabilities) : Bool :=
  caps.protocolVersion.any (· < tnsVersionMinAccepted)

namespace PacketCursor

/-- `PacketCursor::with_capabilities`. -/
def withCapabilities (data : Bytes) (caps : CursorCapabilities) : PacketCursor where
  source := .slice data
  pos := 0
  bigClrChunks := caps.supportsBigClrChunks
  legacyNullClr := caps.legacyNullClr

/-- `PacketCursor::streaming`, on a packet just read and the connection behind
it. -/
def streaming (packet : DataPacket) (stream : List DataPacket) (caps : CursorCapabilities) :
    PacketCursor where
  source := .stream ⟨packet.payload, stream, endFlags packet.dataFlags⟩
  pos := 0
  bigClrChunks := caps.supportsBigClrChunks
  legacyNullClr := caps.legacyNullClr

def data (c : PacketCursor) : Bytes :=
  match c.source with
  | .slice data => data
  | .stream source => source.buf

variable (c : PacketCursor)

def endOfResponseSeen : Bool :=
  match c.source with
  | .slice _ => false
  | .stream source => source.endFlagsSeen

def remaining : ℕ := c.data.length - c.pos

/-- The packets still to come from the connection; none for a slice. -/
def packetsLeft : List DataPacket :=
  match c.source with
  | .slice _ => []
  | .stream source => source.stream

/-- The bytes not yet read: those in the buffer and those still to come. -/
def unread : Bytes := c.data.drop c.pos ++ payloads c.packetsLeft

end PacketCursor

/-- A method of the cursor. -/
abbrev CursorM := Comp PacketCursor OracleThinError

namespace CursorM

open PacketCursor ByteFields Comp

/-- The consumed bytes are dropped before a packet is appended, unless many
unread ones would have to move. -/
def compact (source : StreamingPacketSource) (pos : ℕ) : StreamingPacketSource × ℕ :=
  if 0 < pos && source.buf.length - pos ≤ packetCursorCompactThreshold then
    ({ source with buf := source.buf.drop pos }, 0)
  else (source, pos)

/-- Fetches the next data packet into the buffer. -/
def fetchNextPacket (shortContext : String) : CursorM Unit := fun c =>
  match c.source with
  | .slice _ => (.error (.short shortContext), c)
  | .stream source =>
    if source.endFlagsSeen then (.error .incomplete, c)
    else
      let (source, pos) := compact source c.pos
      match source.stream with
      | [] => (.error .disconnected, { c with source := .stream source, pos := pos })
      | packet :: stream =>
        (.ok (), { c with
          source := .stream
            { buf := source.buf ++ packet.payload
              stream := stream
              endFlagsSeen := source.endFlagsSeen || endFlags packet.dataFlags }
          pos := pos })

/-- The loop of `ensureAvailable`. -/
def ensureLoop (len : ℕ) (shortContext : String) : ℕ → CursorM Unit
  | 0 => pure ()
  | fuel + 1 => do
      if (← get remaining) < len then
        fetchNextPacket shortContext
        ensureLoop len shortContext fuel

/-- Fetches packets until `len` bytes are unread. -/
def ensureAvailable (len : ℕ) (shortContext : String) : CursorM Unit := do
  ensureLoop len shortContext ((← get packetsLeft).length + 1)

/-- The next byte, if there is one; at the end of the buffer one packet is
fetched. -/
def peekU8 : CursorM (Option UInt8) := do
  if (← get remaining) = 0 then
    match ← get source with
    | .slice _ => return none
    | .stream source =>
      if source.endFlagsSeen then return none
      fetchNextPacket "short TTC packet while reading u8"
  get fun c => c.data[c.pos]?

def readU8 : CursorM UInt8 := do
  ensureAvailable 1 "short TTC packet while reading u8"
  let value ← get fun c => c.data.getD c.pos 0
  modify fun c => { c with pos := c.pos + 1 }
  return value

def readRaw (len : ℕ) : CursorM Bytes := do
  ensureAvailable len "short TTC packet while reading bytes"
  let bytes ← get fun c => (c.data.drop c.pos).take len
  modify fun c => { c with pos := c.pos + len }
  return bytes

def skip (len : ℕ) : CursorM Unit := do
  let _ ← readRaw len

/-- The loop of `readNullTerminatedBytes`: `scanned` bytes from `pos` on hold no
terminator. The result is the distance of the terminator from `pos`. -/
def findTerminator : ℕ → ℕ → CursorM ℕ
  | 0, scanned => pure scanned
  | fuel + 1, scanned => do
      match (← get fun c => (c.data.drop (c.pos + scanned)).findIdx? (· == 0)) with
      | some offset => return scanned + offset
      | none =>
        let scanned ← get remaining
        fetchNextPacket "unterminated TTC null-terminated byte field"
        findTerminator fuel scanned

def readNullTerminatedBytes : CursorM Bytes := do
  let length ← findTerminator ((← get packetsLeft).length + 1) 0
  let bytes ← get fun c => (c.data.drop c.pos).take length
  modify fun c => { c with pos := c.pos + length + 1 }
  return bytes

def readUniversalUint (maxLen : ℕ) : CursorM ℕ := do
  let start ← get pos
  let len := (← readU8).toNat
  if len = 0 then return 0
  if len > maxLen ∨ len > 8 then
    let context ← get fun c => (c.data.drop (c.pos - 1)).take 16
    fail (.universalLength len start context)
  else
    return beValue (← readRaw len)

def readUb2 : CursorM ℕ := do
  let value ← readUniversalUint 2
  if value < 2 ^ 16 then return value else fail (.outOfRange "ub2" value)

def readUb4 : CursorM ℕ := do
  let value ← readUniversalUint 4
  if value < 2 ^ 32 then return value else fail (.outOfRange "ub4" value)

def readUb8 : CursorM ℕ := readUniversalUint 8

/-- `read_sb2`, `read_sb4` and `read_sb8`: a length byte whose top bit is the
sign, then the magnitude, in the arithmetic of the `width`-byte integer type (the
negation of the least value wraps). -/
def readSigned (width : ℕ) : CursorM ℤ := do
  let lenByte ← readU8
  let isNegative := lenByte &&& 0x80 != 0
  let len := (lenByte &&& 0x7f).toNat
  if len = 0 then return 0
  if len > width then fail (.signedLength width len)
  else
    let value := BitVec.ofNat (8 * width) (beValue (← readRaw len))
    return (if isNegative then -value else value).toInt

def readSb2 : CursorM ℤ := readSigned 2

def readSb4 : CursorM ℤ := readSigned 4

def readSb8 : CursorM ℤ := readSigned 8

/-- The length of the next chunk of a long field. -/
def readChunkLen : CursorM ℕ := do
  if (← get bigClrChunks) then readUb4
  else return (← readU8).toNat

/-- The chunk loop of `readBytes`. -/
def chunkLoop : ℕ → Bytes → CursorM Bytes
  | 0, out => pure out
  | fuel + 1, out => do
      let chunkLen ← readChunkLen
      if chunkLen = 0 then return out
      else chunkLoop fuel (out ++ (← readRaw chunkLen))

/-- The chunks of a long field. Every round consumes a byte, so the bytes left
bound the rounds. -/
def readChunks : CursorM Bytes := do
  chunkLoop ((← get unread).length + 1) []

def readBytes : CursorM (Option Bytes) := do
  let len ← readU8
  if len = 0 ∨ len = 0xff then return none
  else if len = tnsLegacyNullLengthIndicator ∧ (← get legacyNullClr) = true then return none
  else if len = 0xfe then
    return some (← readChunks)
  else
    return some (← readRaw len.toNat)

end CursorM

end SpaceQuery.Thin
