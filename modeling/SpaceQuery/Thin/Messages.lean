import SpaceQuery.Thin.Program

/-!
The TTC messages that every response may hold: PARAMETER, STATUS, TOKEN, WARNING,
ERROR and SERVER_SIDE_PIGGYBACK, with the handlers of `tns-thin/src/session.rs`.

A handler is a `Program` of cursor reads that takes the state it updates and
returns the new one. The decoding of texts in the database character set is a
parameter (`decodeText`).
-/

namespace SpaceQuery.Thin

open RustText

/-! ### The state the messages update -/

/-- The fields of `OracleThinCapabilities` that the handlers read. -/
structure OracleThinCapabilities extends CursorCapabilities where
  ttcFieldVersion : ℕ
  serverTtcFieldVersion : ℕ
  supportsEndOfResponse : Bool
  supportsEndOfCallStatus : Bool
  supportsFastSessionAttributes : Bool
  deriving DecidableEq

/-- A warning of the server. -/
structure OracleThinWarning where
  code : ℕ
  message : String
  deriving DecidableEq

/-- What the server tells beside its answers. -/
structure ServerSidePiggybackState where
  ltxid : Bytes := []
  sessionId : Option ℕ := none
  serialNum : Option ℕ := none
  sessionChanged : Bool := false
  currentSchema : Option String := none
  edition : Option String := none
  sessionlessTransactionId : Option Bytes := none
  sessionlessStartedOnServer : Bool := false
  transactionInProgress : Bool := false
  lastWarning : Option OracleThinWarning := none
  deriving DecidableEq

/-- The contents of an ERROR message. -/
structure ExecuteError where
  code : ℕ
  errorPos : ℤ
  cursorId : ℕ
  callStatus : ℕ
  rowcount : ℕ
  message : Option String
  warning : Option OracleThinWarning
  deriving DecidableEq

def tnsKeywordNumCurrentSchema : ℕ := 168

def tnsKeywordNumEdition : ℕ := 172

def tnsKeywordNumTransactionId : ℕ := 201

def tnsTpcTxnidSyncServer : UInt8 := 0x01

def tnsTpcTxnidSyncSet : UInt8 := 0x40

def tnsTpcTxnidSyncUnset : UInt8 := 0x80

def tnsEocsFlagsTxnInProgress : ℕ := 0x00000002

def tnsDefaultTokenNum : ℕ := 0

def tnsWarnCompilationError : ℕ := 24344

def tnsCcapFieldVersion20_1 : ℕ := 14

/-- The opcodes of a server-side piggyback. -/
inductive PiggybackOpcode where
  | queryCacheInvalidation | osPidMts | traceEvent | sessRet | sync | ltxid | acReplayContext
  | extSync | sessSignature
  deriving DecidableEq

/-- The constants `TNS_SERVER_PIGGYBACK_*`. -/
def PiggybackOpcode.ofByte (opcode : UInt8) : Option PiggybackOpcode :=
  match opcode.toNat with
  | 1 => some .queryCacheInvalidation
  | 2 => some .osPidMts
  | 3 => some .traceEvent
  | 4 => some .sessRet
  | 5 => some .sync
  | 7 => some .ltxid
  | 8 => some .acReplayContext
  | 9 => some .extSync
  | 10 => some .sessSignature
  | _ => none

/-! ### Session messages -/

/-- The sync data of a sessionless transaction: its id, a state byte and a version
byte. -/
def updateSessionlessTransactionState (state : ServerSidePiggybackState) (data : Bytes) :
    Except OracleThinError ServerSidePiggybackState :=
  if data.length < 2 then .error (.other "short Oracle sessionless transaction sync data")
  else
    let transactionId := data.take (data.length - 2)
    let sessionlessState := data.getD (data.length - 2) 0
    let syncVersion := data.getD (data.length - 1) 0
    if syncVersion ≠ 1 then
      .error (.other ("unknown Oracle sessionless transaction sync version "
        ++ toString syncVersion.toNat))
    else if sessionlessState &&& tnsTpcTxnidSyncUnset ≠ 0 then
      .ok { state with
        sessionlessTransactionId := none
        sessionlessStartedOnServer := false
        transactionInProgress := false }
    else if sessionlessState &&& tnsTpcTxnidSyncSet ≠ 0 then
      .ok { state with
        sessionlessTransactionId := some transactionId
        sessionlessStartedOnServer := sessionlessState &&& tnsTpcTxnidSyncServer != 0
        transactionInProgress := true }
    else .ok state

section Handlers

open Program

-- `decode_oracle_text` in the database character set
variable (decodeText : Bytes → Except OracleThinError String)

/-- One round of `process_keyword_value_pairs`. -/
def processKeywordValuePair (state : ServerSidePiggybackState) :
    Program ServerSidePiggybackState := do
  let textValue ← if 0 < (← readUb2) then
      match ← readBytes with
      | some bytes => some <$> ofExcept (decodeText bytes)
      | none => pure none
    else pure none
  let binaryValue ← if 0 < (← readUb2) then readBytes else pure none
  let keywordNum ← readUb2
  if keywordNum = tnsKeywordNumCurrentSchema then return { state with currentSchema := textValue }
  else if keywordNum = tnsKeywordNumEdition then return { state with edition := textValue }
  else if keywordNum = tnsKeywordNumTransactionId then
    match binaryValue with
    | some value => ofExcept (updateSessionlessTransactionState state value)
    | none => return state
  else return state

def processKeywordValuePairs : ℕ → ServerSidePiggybackState → Program ServerSidePiggybackState
  | 0, state => pure state
  | n + 1, state => do processKeywordValuePairs n (← processKeywordValuePair decodeText state)

def processReturnParameters (state : ServerSidePiggybackState) :
    Program ServerSidePiggybackState := do
  times (← readUb2) (discard [.readUb4])
  skipCounted
  let state ← processKeywordValuePairs decodeText (← readUb2) state
  skipCounted
  return state

def processServerSidePiggyback (state : ServerSidePiggybackState) :
    Program ServerSidePiggybackState := do
  let opcode ← readU8
  match PiggybackOpcode.ofByte opcode with
  | some .ltxid => return { state with ltxid := (← readBytesWithUb4Length).getD [] }
  | some .queryCacheInvalidation | some .traceEvent => return state
  | some .osPidMts =>
    discard [.readUb2, .readBytes]
    return state
  | some .sync =>
    discard [.readUb2, .skip 1]
    let numElements ← readUb2
    skip 1
    let state ← processKeywordValuePairs decodeText numElements state
    discard [.readUb4]
    return state
  | some .extSync =>
    discard [.readUb2, .skip 1]
    return state
  | some .acReplayContext =>
    discard [.readUb2, .skip 1, .readUb4, .readUb4, .skip 1]
    skipBytesWithUb4Length
    return state
  | some .sessRet =>
    discard [.readUb2, .skip 1]
    let numElements ← readUb2
    if 0 < numElements then
      skip 1
      times numElements do
        if 0 < (← readUb2) then discard [.readBytes]
        if 0 < (← readUb2) then discard [.readBytes]
        discard [.readUb2]
    let flags ← readUb4
    let sessionId ← readUb4
    let serialNum ← readUb2
    return { state with
      sessionChanged := flags &&& 4 != 0
      sessionId := some sessionId
      serialNum := some serialNum }
  | some .sessSignature =>
    discard [.readUb2, .skip 1, .readUb8, .readUb8, .readUb8]
    return state
  | none => fail (.other ("unknown Oracle server-side piggyback opcode " ++ toString opcode.toNat))

def processWarning : Program (Option OracleThinWarning) := do
  let code ← readUb2
  let numBytes ← readUb2
  discard [.readUb2]
  if code = 0 ∨ numBytes = 0 then return none
  let message ← ofExcept (decodeText (← readRaw numBytes))
  return some { code := code, message := String.ofList (trimEnd message.toList) }

variable (caps : OracleThinCapabilities)

def updateTransactionStatusFromCallStatus (state : ServerSidePiggybackState) (callStatus : ℕ) :
    ServerSidePiggybackState :=
  if caps.supportsEndOfCallStatus then
    { state with transactionInProgress := callStatus &&& tnsEocsFlagsTxnInProgress != 0 }
  else state

def processStatus (state : ServerSidePiggybackState) : Program ServerSidePiggybackState := do
  let callStatus ← readUb4
  discard [.readUb2]
  return updateTransactionStatusFromCallStatus caps state callStatus

def processToken (expected : ℕ) : Program Unit := do
  let token ← readUb8
  if token ≠ expected then
    fail (.other ("mismatched Oracle token number " ++ toString token ++ "; expected "
      ++ toString expected))

/-! ### Errors -/

/-- `format!("ORA-{:05}", code)`. -/
def oraCode (code : ℕ) : String := "ORA-" ++ padded 5 code

def executeErrorMessage (code : ℕ) : Program (Option String) := do
  if code = 0 then return none
  let rawMessage := (← readStr).getD ""
  let hasVisibleMessage := rawMessage.toList.any fun ch => !isControl ch && !isWhitespace ch
  let message := trimEnd (if hasVisibleMessage then rawMessage else oraCode code).toList
  return some (if "ORA-".toList <:+: message then String.ofList message
    else oraCode code ++ ": " ++ String.ofList message)

def executeLegacyErrorMessage (code : ℕ) : Program (Option String) := do
  if code = 0 then return none
  return some (String.ofList (trimEnd ((← readStr).getD "").toList))

/-- The batch error messages in an ERROR message. -/
def skipBatchMessages : Program Unit := do
  let numMessages ← readUb2
  if 0 < numMessages then
    skip 1
    times numMessages (discard [.readUb2, .readBytes, .skip 2])

/-- A counted array of batch error codes or offsets: a byte `0xfe` announces a
length before each element and a byte behind them. -/
def skipBatchArray (count : ℕ) (chunkLen element : Op) : Program Unit := do
  if 0 < count then
    let firstByte ← readU8
    times count do
      if firstByte = 0xfe then discard [chunkLen]
      discard [element]
    if firstByte = 0xfe then skip 1

/-- The batch offsets of a current ERROR message: the first one replaces the error
position. -/
def batchOffsets (chunked : Bool) : ℕ → ℕ → ℤ → Program ℤ
  | 0, _, errorPos => pure errorPos
  | n + 1, index, errorPos => do
      if chunked then discard [.readUb4]
      let batchOffset ← readUb4
      batchOffsets chunked n (index + 1)
        (if index = 0 then min (batchOffset : ℤ) (2 ^ 31 - 1) else errorPos)

def processLegacyExecuteError : Program ExecuteError := do
  let callStatus ← if caps.supportsEndOfCallStatus then readUb4 else pure 0
  if 3 ≤ caps.ttcFieldVersion ∧ caps.supportsFastSessionAttributes = true then discard [.readUb2]
  let curRowNumber ← readUb4
  let initialCode ← readUb2
  discard [.readUb2, .readUb2]
  let cursorId ← readUb2
  let errorPos ← op .readSb2
  discard [.skip 2, .skip 2, .skip 2, .readUb4, .readUb2, .skip 1, .readUb4, .readUb2, .readUb4,
    .skip 2, .readUb2, .readUb4]
  skipBytesWithUb4Length
  let chunkLen : Op := if caps.supportsBigClrChunks then .readUb4 else .readU8
  let (code, rowcount) ← if caps.ttcFieldVersion < 7 then do
      skipBytesWithUb4Length
      skipBytesWithUb4Length
      skipBytesWithUb4Length
      pure (initialCode, curRowNumber)
    else do
      skipBatchArray (← readUb2) chunkLen .readUb2
      skipBatchArray (← readUb4) chunkLen .readUb4
      skipBatchMessages
      let code ← readUb4
      let rowcount ← readUb8
      pure (code, rowcount)
  let (code, rowcount) ←
    if caps.ttcFieldVersion < 7 ∧ code ≠ 0 ∧ 7 ≤ caps.serverTtcFieldVersion then do
      let code ← readUb4
      let rowcount ← readUb8
      pure (code, rowcount)
    else pure (code, rowcount)
  if tnsCcapFieldVersion20_1 ≤ caps.ttcFieldVersion ∨ (caps.ttcFieldVersion < 7 ∧ code ≠ 0
      ∧ tnsCcapFieldVersion20_1 ≤ caps.serverTtcFieldVersion) then discard [.readUb4, .readUb4]
  let message ← executeLegacyErrorMessage code
  return { code, errorPos, cursorId, callStatus, rowcount, message, warning := none }

def processExecuteError : Program ExecuteError := do
  if caps.legacyNullClr then processLegacyExecuteError caps
  else do
    let callStatus ← readUb4
    discard [.readUb2, .readUb4, .readUb2, .readUb2, .readUb2]
    let cursorId ← readUb2
    let errorPos ← op .readSb2
    skip 5
    let flags ← readU8
    discard [.readUb4, .readUb2, .skip 1, .readUb4, .readUb2, .readUb4, .skip 2, .readUb2, .readUb4]
    skipBytesWithUb4Length
    skipBatchArray (← readUb2) .readUb4 .readUb2
    let numOffsets ← readUb4
    let errorPos ← if 0 < numOffsets then do
        let chunked := (← readU8) == 0xfe
        let errorPos ← batchOffsets chunked numOffsets 0 errorPos
        if chunked then skip 1
        pure errorPos
      else pure errorPos
    skipBatchMessages
    let code ← readUb4
    let rowcount ← readUb8
    if tnsCcapFieldVersion20_1 ≤ caps.ttcFieldVersion then discard [.readUb4, .readUb4]
    let message ← executeErrorMessage code
    let warning := if flags &&& 0x20 ≠ 0 then
        some ⟨tnsWarnCompilationError, "creation succeeded with compilation errors"⟩
      else none
    return { code, errorPos, cursorId, callStatus, rowcount, message, warning }

end Handlers

end SpaceQuery.Thin
