import SpaceQuery.Thin.ExecuteMessages

/-!
The three readers of a response in `tns-thin/src/session.rs`: `read_execute_response_with_state`,
`read_simple_response` and `read_lob_operation_response`.

They repeat one loop, `readResponse`: read a data packet, process the messages that start in it, and
go on with the next packet until the response is done. A `Reader` is what they do differently. What
a reader leaves on the connection is part of its result.
-/

namespace SpaceQuery.Thin

open PacketCursor CursorM

/-! ### The message types -/

/-- The constants `TNS_MSG_TYPE_*` of the messages of a response. -/
inductive MessageType where
  | error | rowHeader | rowData | parameter | status | ioVector | lobData | warning
  | describeInfo | flushOutBinds | bitVector | serverSidePiggyback | implicitResultset | token
  deriving DecidableEq

def MessageType.ofByte (messageType : UInt8) : Option MessageType :=
  match messageType.toNat with
  | 4 => some .error
  | 6 => some .rowHeader
  | 7 => some .rowData
  | 8 => some .parameter
  | 9 => some .status
  | 11 => some .ioVector
  | 14 => some .lobData
  | 15 => some .warning
  | 16 => some .describeInfo
  | 19 => some .flushOutBinds
  | 21 => some .bitVector
  | 23 => some .serverSidePiggyback
  | 27 => some .implicitResultset
  | 33 => some .token
  | _ => none

def tnsMsgTypeEndOfResponse : UInt8 := 29

/-! ### The loop -/

/-- How a message was taken: the new state, whether the response is done with it,
and the error the reader returns at once. -/
structure Taken (σ : Type) where
  state : σ
  done : Bool := false
  raised : Option OracleThinError := none

/-- What a reader does with the messages of a response. -/
structure Reader (σ : Type) where
  /-- The handler of a content message; none for a type the reader does not expect. -/
  message : MessageType → Option (σ → Program (Taken σ))
  /-- The error for an unexpected type, at an offset of the bytes fetched. -/
  unexpected : UInt8 → ℕ → Bytes → OracleThinError
  /-- An end of response before any content is skipped. -/
  skipsEmptyEnd : Bool

/-- The variables of the loop. -/
structure Loop (σ : Type) where
  state : σ
  done : Bool := false
  raised : Option OracleThinError := none
  responseHadContent : Bool := false
  skipEmptyEndOfResponse : Bool
  skippedEmptyEndOfResponse : Bool := false

/-- The loop is left: the response is done, or the reader returns an error. -/
def Loop.over {σ : Type} (l : Loop σ) : Bool := l.done || l.raised.isSome

section Loops

variable {σ : Type} (reader : Reader σ)

/-- One message, behind its type byte. -/
def processMessage (messageOffset : ℕ) (messageType : UInt8) (l : Loop σ) : CursorM (Loop σ) := do
  if messageType = tnsMsgTypeEndOfResponse then
    if l.responseHadContent then return { l with done := true }
    else return { l with skipEmptyEndOfResponse := false, skippedEmptyEndOfResponse := true }
  else
    let l := { l with responseHadContent := true }
    match (MessageType.ofByte messageType).bind reader.message with
    | some handler =>
      let taken ← (handler l.state).run
      return { l with state := taken.state, done := taken.done, raised := taken.raised }
    | none =>
      let data ← Comp.get data
      Comp.fail (reader.unexpected messageType messageOffset data)

/-- `while cursor.remaining() > 0 && !done`. Every round reads a byte, so the bytes
in front of the cursor bound the rounds. -/
def messageLoop : ℕ → Loop σ → CursorM (Loop σ)
  | 0, l => pure l
  | fuel + 1, l => do
      if 0 < (← Comp.get remaining) ∧ l.over = false then
        let messageOffset ← Comp.get pos
        let messageType ← readU8
        messageLoop fuel (← processMessage reader messageOffset messageType l)
      else return l

/-- What the loop makes of the packets fetched so far ending the response. -/
def afterMessages (endOfResponseSeen : Bool) (l : Loop σ) : Loop σ :=
  if endOfResponseSeen then
    let l := if l.skipEmptyEndOfResponse && !l.responseHadContent then
        { l with skipEmptyEndOfResponse := false, skippedEmptyEndOfResponse := true }
      else l
    if reader.skipsEmptyEnd && l.skippedEmptyEndOfResponse then l else { l with done := true }
  else l

/-- `while !done`: one data packet after the other, with the packets still on the
connection. A round takes at least one packet. -/
def packetLoop (caps : CursorCapabilities) :
    ℕ → Loop σ → List DataPacket → Except OracleThinError (Loop σ) × List DataPacket
  | 0, l, stream => (.ok l, stream)
  | fuel + 1, l, stream =>
    if l.over then (.ok l, stream)
    else match stream with
      | [] => (.error .disconnected, [])
      | packet :: stream =>
        let cursor := streaming packet stream caps
        match messageLoop reader (cursor.unread.length + 1)
            { l with skippedEmptyEndOfResponse := false } cursor with
        | (.error e, cursor) => (.error e, cursor.packetsLeft)
        | (.ok l, cursor) =>
          packetLoop caps fuel
            (if l.raised.isSome then l else afterMessages reader cursor.endOfResponseSeen l)
            cursor.packetsLeft

/-- A response is read: the state at the end of it or the error returned, and what
is left on the connection. -/
def readResponse (caps : CursorCapabilities) (state : σ) (skipEmptyEndOfResponse : Bool)
    (stream : List DataPacket) : Except OracleThinError σ × List DataPacket :=
  match packetLoop reader caps (stream.length + 1) { state, skipEmptyEndOfResponse } stream with
  | (.error e, stream) => (.error e, stream)
  | (.ok l, stream) =>
    match l.raised with
    | some e => (.error e, stream)
    | none => (.ok l.state, stream)

end Loops

section Readers

variable (decodeText : Bytes → Except OracleThinError String) (caps : OracleThinCapabilities)

/-- The message of an error without details. -/
def ExecuteError.text (error : ExecuteError) : String :=
  error.message.getD ("Oracle error " ++ oraCode error.code)

/-- What every reader does to the server state for an ERROR message. -/
def noteError (state : ServerSidePiggybackState) (error : ExecuteError) :
    ServerSidePiggybackState :=
  let state := updateTransactionStatusFromCallStatus caps state error.callStatus
  match error.warning with
  | some warning => { state with lastWarning := some warning }
  | none => state

/-- What every reader does for a WARNING message. -/
def noteWarning (state : ServerSidePiggybackState) (warning : Option OracleThinWarning) :
    ServerSidePiggybackState :=
  match warning with
  | some warning => { state with lastWarning := some warning }
  | none => state

/-- The handlers the readers share, on the server state inside theirs. -/
def commonMessage {σ : Type} (get : σ → ServerSidePiggybackState)
    (set : σ → ServerSidePiggybackState → σ) (messageType : MessageType) :
    Option (σ → Program (Taken σ)) :=
  match messageType with
  | .status => some fun s => do
      return ⟨set s (← processStatus caps (get s)), !caps.supportsEndOfResponse, none⟩
  | .token => some fun s => do
      processToken tnsDefaultTokenNum
      return { state := s }
  | .warning => some fun s => do
      return { state := set s (noteWarning (get s) (← processWarning decodeText)) }
  | .serverSidePiggyback => some fun s => do
      return { state := set s (← processServerSidePiggyback decodeText (get s)) }
  | _ => none

/-- An ERROR message of a reader that returns it at once. -/
def raiseError {σ : Type} (get : σ → ServerSidePiggybackState)
    (set : σ → ServerSidePiggybackState → σ) (s : σ) : Program (Taken σ) := do
  let error ← processExecuteError caps
  let s := set s (noteError caps (get s) error)
  if error.code ≠ 0 then return ⟨s, false, some (.oracle error.text none)⟩
  else return ⟨s, !caps.supportsEndOfResponse, none⟩

def simpleReader : Reader ServerSidePiggybackState where
  message
    | .error => some (raiseError caps id fun _ state => state)
    | .parameter => some fun state => do
        return { state := ← processReturnParameters decodeText state }
    | messageType => commonMessage decodeText caps id (fun _ state => state) messageType
  unexpected messageType _ _ :=
    .other ("unexpected Oracle response message type " ++ toString messageType.toNat)
  skipsEmptyEnd := true

def readSimpleResponse (serverState : ServerSidePiggybackState) (skipEmptyEndOfResponse : Bool)
    (stream : List DataPacket) :
    Except OracleThinError ServerSidePiggybackState × List DataPacket :=
  readResponse (simpleReader decodeText caps) caps.toCursorCapabilities
    { serverState with lastWarning := none } skipEmptyEndOfResponse stream

/-- What a LOB operation collects, with the server state. -/
structure LobReadState where
  server : ServerSidePiggybackState
  data : Bytes := []
  amount : Option ℤ := none
  locator : Option Bytes := none
  deriving DecidableEq

section Lob

variable (locatorLen : ℕ) (readAmount readCreateTempTail : Bool)

def processLobReturnParameters : Program (Option Bytes × Option ℤ) := do
  let locator ← if 0 < locatorLen then some <$> Program.readRaw locatorLen else pure none
  if readCreateTempTail then Program.discard [.readUb2, .readU8]
  let amount ← if readAmount then some <$> Program.op .readSb8 else pure none
  return (locator, amount)

def lobReader : Reader LobReadState where
  message
    | .lobData => some fun s => do
        return { state := { s with data := s.data ++ (← Program.readBytes).getD [] } }
    | .parameter => some fun s => do
        let (locator, amount) ←
          processLobReturnParameters locatorLen readAmount readCreateTempTail
        return { state := { s with locator := locator.or s.locator, amount := amount.or s.amount } }
    | .error => some (raiseError caps LobReadState.server fun s state => { s with server := state })
    | messageType => commonMessage decodeText caps LobReadState.server
        (fun s state => { s with server := state }) messageType
  unexpected messageType _ _ :=
    .other ("unexpected Oracle LOB response message type " ++ toString messageType.toNat)
  skipsEmptyEnd := false

def readLobOperationResponse (serverState : ServerSidePiggybackState)
    (stream : List DataPacket) : Except OracleThinError LobReadState × List DataPacket :=
  readResponse (lobReader decodeText caps locatorLen readAmount readCreateTempTail)
    caps.toCursorCapabilities { server := { serverState with lastWarning := none } } false stream

end Lob

/-- The state of an execute response: the rows read, the server state and the error
that is returned when the response is done. -/
structure ExecuteState (V : Type) where
  read : ExecuteReadState V
  server : ServerSidePiggybackState
  pendingError : Option OracleThinError := none

section Execute

variable {V : Type} (codec : ValueCodec V) (request : StatementRequest)

def tnsErrNoDataFound : ℕ := 1403

/-- An ERROR message of an execute response: the end of a query's rows, or an error
that is kept until the response is done. -/
def keepError (s : ExecuteState V) : Program (Taken (ExecuteState V)) := do
  let error ← processExecuteError caps
  let read := if error.cursorId ≠ 0 then { s.read with cursorId := some error.cursorId }
    else s.read
  let read := if error.code = 0 ∧ request.isQuery = false then
      { read with rowCount := some (if request.isPlsql then 0 else error.rowcount) }
    else read
  let s := { s with server := noteError caps s.server error, read := read }
  if error.code = tnsErrNoDataFound ∧ request.isQuery = true then
    return ⟨{ s with read := { read with exhausted := true } }, !caps.supportsEndOfResponse, none⟩
  else if error.code ≠ 0 then
    let pendingError := s.pendingError.or
      (some (.oracle error.text (some (read.cursorId, error.code, error.errorPos))))
    return ⟨{ s with pendingError }, !caps.supportsEndOfResponse, none⟩
  else return ⟨s, !caps.supportsEndOfResponse, none⟩

/-- A handler on the rows read so far. -/
def onRead (handler : ExecuteReadState V → Program (ExecuteReadState V)) (s : ExecuteState V) :
    Program (Taken (ExecuteState V)) := do
  return { state := { s with read := ← handler s.read } }

/-- `hex_encode_upper`. -/
def hexEncodeUpper (bytes : Bytes) : String :=
  String.ofList ((bytes.flatMap fun b => (hexByte b).toList).map Char.toUpper)

open ExecuteState

def executeReader : Reader (ExecuteState V) where
  message
    | .rowHeader => some (onRead processRowHeader)
    | .rowData => some (onRead (processRowData codec caps))
    | .ioVector => some (onRead (processIoVector request))
    -- the reader answers with the same message and reads on
    | .flushOutBinds => some fun s => pure { state := s }
    | .describeInfo => some (onRead (processDescribeInfo caps))
    | .bitVector => some (onRead processBitVector)
    | .implicitResultset => some (onRead (processImplicitResults caps))
    | .parameter => some fun s => do
        return { state := { s with server := ← processReturnParameters decodeText s.server } }
    | .error => some (keepError caps request)
    | messageType => commonMessage decodeText caps server
        (fun s state => { s with server := state }) messageType
  unexpected messageType messageOffset data :=
    .other ("unexpected Oracle execute response message type " ++ toString messageType.toNat
      ++ " at offset " ++ toString messageOffset ++ "; context="
      ++ hexEncodeUpper ((data.drop messageOffset).take 32))
  skipsEmptyEnd := true

/-- The output binds of a DML RETURNING statement are known before its response. -/
def ExecuteReadState.forRequest (state : ExecuteReadState V) : ExecuteReadState V :=
  if request.isDmlReturning && state.outBindColumns.isEmpty then
    let binds := (request.binds.zipIdx.filter (·.1.canReturnValue)).map fun (b, i) => (i, b)
    { state.setOutBinds binds with
      readingDmlReturning := !binds.isEmpty
      dmlReturningBatch := 1 < request.bindRows }
  else state

/-- The error kept during the response is returned at its end. -/
def ExecuteState.result (s : ExecuteState V) : Except OracleThinError (ExecuteState V) :=
  match s.pendingError with
  | some e => .error e
  | none => .ok s

def readExecuteResponseWithState (serverState : ServerSidePiggybackState)
    (state : ExecuteReadState V) (skipEmptyEndOfResponse : Bool) (stream : List DataPacket) :
    Except OracleThinError (ExecuteState V) × List DataPacket :=
  let response := readResponse (executeReader decodeText caps codec request)
    caps.toCursorCapabilities
    { read := state.forRequest request, server := { serverState with lastWarning := none } }
    skipEmptyEndOfResponse stream
  (response.1.bind result, response.2)

end Execute

end Readers

end SpaceQuery.Thin
