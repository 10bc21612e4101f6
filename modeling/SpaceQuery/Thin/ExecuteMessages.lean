import SpaceQuery.Thin.Messages

/-!
The messages of an execute or fetch response in `tns-thin/src/session.rs`:
DESCRIBE_INFO, IO_VECTOR, ROW_HEADER, ROW_DATA, BIT_VECTOR and IMPLICIT_RESULTSET.

What a column value is and how its bytes are decoded is a parameter (`ValueCodec`);
which reads fetch those bytes, for every Oracle type, is `readColumnValue`.
-/

namespace SpaceQuery.Thin

open Program

/-! ### Columns -/

/-- The types of columns. -/
inductive OracleColumnType where
  | varchar | number | binaryFloat | binaryDouble | date | timestamp | boolean | raw | rowid
  | urowid | long | clob | nclob | blob | bfile | cursor | intervalYearMonth | intervalDaySecond
  | vector | json | xml | object | objectRef
  | unsupported (oraTypeNum : UInt8)
  deriving DecidableEq

inductive JsonEncoding where
  | none | text | oson
  deriving DecidableEq

/-- A column, as it is described. -/
structure ThinColumn where
  name : String
  columnType : OracleColumnType
  precision : ℤ
  scale : ℤ
  oraTypeNum : UInt8
  charsetForm : UInt8
  bufferSize : ℕ
  schemaName : String
  typeName : String
  jsonEncoding : JsonEncoding
  deriving DecidableEq

/-- How the bytes of a value are laid out, by the Oracle type of its column. -/
inductive ValueForm where
  | field | long | boolean | lob | json | named | vector | bfile | rowid | urowid | cursor
  | unsupported
  deriving DecidableEq

variable (oraTypeNum : UInt8)

/-- The cases of `read_column_value`, by the constants `ORA_TYPE_NUM_*` and
`TNS_DATA_TYPE_*`. -/
def valueForm : ValueForm :=
  match oraTypeNum.toNat with
  -- numbers, with the unsigned integers of `TNS_DATA_TYPE_UB8`
  | 2 | 3 | 4 | 6 | 7 | 68 | 91 | 152 | 153 | 154 | 172 | 233 => .field
  -- texts, and `TNS_DATA_TYPE_VBI`, which old servers send as bytes
  | 1 | 5 | 9 | 15 | 94 | 96 | 97 | 146 | 155 => .field
  -- times, dates, timestamps and intervals
  | 178 | 179 | 185 | 186 | 12 | 156 | 184 | 180 | 181 | 187 | 188 | 231 | 232 => .field
  | 182 | 183 | 189 | 190 => .field
  -- raw bytes, references and binary floating-point numbers
  | 23 | 95 | 110 | 111 | 21 | 22 | 100 | 101 => .field
  | 8 | 24 => .long
  | 252 => .boolean
  | 112 | 113 | 195 | 196 => .lob
  | 119 | 198 => .json
  | 108 | 109 | 241 => .named
  | 127 => .vector
  | 114 | 115 | 197 => .bfile
  | 11 | 104 => .rowid
  | 208 => .urowid
  | 102 | 116 => .cursor
  | _ => .unsupported

/-- The types whose values are sent although the column has no buffer size. -/
def sentWithoutBuffer : Bool :=
  oraTypeNum ∈ [(8 : UInt8), 24, 208, 114, 197, 127]

def storesBinaryPayload : Bool :=
  oraTypeNum ∈ [(119 : UInt8), 198, 113, 196, 23, 24, 95]

/-- `oracle_column_type_from_ora_type_for_protocol`. -/
def oracleColumnTypeFromOraType (legacyMappings : Bool) : OracleColumnType :=
  match oraTypeNum.toNat with
  | 2 | 3 | 4 | 6 | 7 | 68 | 91 | 152 | 153 | 154 | 172 | 233 => .number
  | 12 | 156 | 184 => .date
  | 180 | 181 | 187 | 188 | 231 | 232 => .timestamp
  | 23 | 95 | 24 => .raw
  | 100 | 21 => .binaryFloat
  | 101 | 22 => .binaryDouble
  | 8 => .long
  | 112 | 195 => .clob
  | 113 | 196 => .blob
  | 114 | 115 | 197 => .bfile
  | 127 => .vector
  | 119 | 198 => .json
  | 102 | 116 => .cursor
  | 252 => .boolean
  | 182 | 189 => .intervalYearMonth
  | 183 | 190 => .intervalDaySecond
  | 11 | 104 => .rowid
  | 208 => .urowid
  | 109 | 108 | 241 => .object
  | 110 | 111 => .objectRef
  | 15 => if legacyMappings then .raw else .varchar
  | 5 | 1 | 9 | 94 | 155 | 146 | 178 | 179 | 185 | 186 | 96 | 97 => .varchar
  | _ => .unsupported oraTypeNum

def isXmltypeMetadata (schemaName typeName : String) : Bool :=
  oraTypeNum ∈ [(109 : UInt8), 108, 241] && RustText.eqIgnoreAsciiCase typeName.toList "XMLTYPE"
    && (schemaName.isEmpty || RustText.eqIgnoreAsciiCase schemaName.toList "SYS")

def jsonEncodingFromUdsFlags (udsFlags : ℕ) : JsonEncoding :=
  if udsFlags &&& 0x800 ≠ 0 then .oson
  else if udsFlags &&& 0x100 ≠ 0 then .text
  else .none

def normalizeMetadataCharsetForm (columnType : OracleColumnType) (charsetForm : UInt8) : UInt8 :=
  match columnType with
  | .varchar | .long | .clob | .nclob => charsetForm
  | _ => 0

/-- A column that the previous describe defined as a long keeps that type. -/
def adjustColumnAfterDefine (previous column : ThinColumn) : ThinColumn :=
  if previous.oraTypeNum ∈ [(96 : UInt8), 8, 1] ∧ column.oraTypeNum = 112 then
    { column with oraTypeNum := 8, columnType := .long, charsetForm := previous.charsetForm }
  else if previous.oraTypeNum ∈ [(23 : UInt8), 24] ∧ column.oraTypeNum = 113 then
    { column with oraTypeNum := 24, columnType := .raw }
  else column

def adjustColumnsAfterDefine : List ThinColumn → List ThinColumn → List ThinColumn
  | previous :: ps, column :: cs =>
    adjustColumnAfterDefine previous column :: adjustColumnsAfterDefine ps cs
  | _, columns => columns

section Describe

variable (caps : OracleThinCapabilities)

/-- `read_i8`. -/
def readI8 : Program ℤ := do return (← readU8).toInt8.toInt

def processColumnMetadata : Program ThinColumn := do
  let oraTypeNum ← readU8
  skip 1
  let precision ← readI8
  let scale ← readI8
  let bufferSize ← readUb4
  discard [.readUb4, .readUb8]
  let _ ← readBytesWithUb4Length
  discard [.readUb2, .readUb2]
  let charsetForm ← readU8
  discard [.readUb4]
  if 8 ≤ caps.ttcFieldVersion then discard [.readUb4]
  discard [.readU8, .skip 1]
  let name := (← readStrWithLength).getD ""
  let schemaName := (← readStrWithLength).getD ""
  let typeName := (← readStrWithLength).getD ""
  discard [.readUb2]
  let udsFlags ← readUb4
  if 17 ≤ caps.ttcFieldVersion then
    let _ ← readStrWithLength
    let _ ← readStrWithLength
  if 20 ≤ caps.ttcFieldVersion then
    if 0 < (← readUb4) then
      skip 1
      let repeatedAnnotations ← readUb4
      skip 1
      times repeatedAnnotations do
        let _ ← readStrWithLength
        let _ ← readStrWithLength
        discard [.readUb4]
      discard [.readUb4]
  if 24 ≤ caps.ttcFieldVersion then discard [.readUb4, .skip 2]
  let jsonEncoding := jsonEncodingFromUdsFlags udsFlags
  let columnType :=
    if isXmltypeMetadata oraTypeNum schemaName typeName then .xml
    else if jsonEncoding = .oson ∧ storesBinaryPayload oraTypeNum = true then .json
    else oracleColumnTypeFromOraType oraTypeNum caps.legacyNullClr
  return {
    name, columnType, precision, scale, oraTypeNum
    charsetForm := normalizeMetadataCharsetForm columnType charsetForm
    bufferSize, schemaName, typeName, jsonEncoding }

def processColumns : ℕ → Program (List ThinColumn)
  | 0 => pure []
  | n + 1 => do
      let column ← processColumnMetadata caps
      return column :: (← processColumns n)

/-- `process_describe_body`, on the columns known before it. -/
def processDescribeBody (previousColumns : List ThinColumn) : Program (List ThinColumn) := do
  discard [.readUb4]
  let numColumns ← readUb4
  if 0 < numColumns then skip 1
  let columns ← processColumns caps numColumns
  skipBytesWithUb4Length
  if 3 ≤ caps.ttcFieldVersion then discard [.readUb4, .readUb4]
  if 4 ≤ caps.ttcFieldVersion then discard [.readUb4, .readUb4]
  if 5 ≤ caps.ttcFieldVersion then skipBytesWithUb4Length
  return adjustColumnsAfterDefine previousColumns columns

end Describe

/-! ### Column values -/

/-- The values of columns and the decoders of their bytes. -/
structure ValueCodec (V : Type) where
  null : V
  isNull : V → Bool
  boolean : Bool → V
  lob : Bytes → V
  array : List V → V
  refCursor : ℕ → List ThinColumn → V
  /-- `encode_physical_rowid`. -/
  physicalRowid : ℕ → ℕ → ℕ → ℕ → V
  /-- The decoder of the column's type, for a value sent as one byte field. -/
  field : ThinColumn → Bytes → Except OracleThinError V
  /-- `read_urowid_value` behind its length test. -/
  urowid : Bytes → Except OracleThinError V
  /-- `decode_json_payload_value`. -/
  json : Bytes → Except OracleThinError V
  /-- `decode_oracle_vector`. -/
  vector : Bytes → Except OracleThinError V
  /-- `decode_xmltype_payload`. -/
  xml : Bytes → Except OracleThinError V
  /-- `decode_collection_payload` or `decode_object_payload`. -/
  object : ThinColumn → Bytes → Except OracleThinError V

section Values

variable {V : Type} (codec : ValueCodec V) (caps : OracleThinCapabilities)
  (decode : Bytes → Except OracleThinError V)

/-- A byte field and the decoder of its bytes; a missing field is NULL. -/
def readDecoded : Program V := do
  match ← readBytes with
  | some bytes => ofExcept (decode bytes)
  | none => return codec.null

def finishColumnValue (value : V) (outBind : Bool) (oraTypeNum : UInt8) : Program V := do
  if outBind then
    let actualNumBytes ← op .readSb4
    if actualNumBytes < 0 ∧ oraTypeNum = 252 then return codec.null
    else if actualNumBytes ≠ 0 ∧ codec.isNull value = false then
      fail (.other ("Oracle OUT bind value truncated: actual length " ++ toString actualNumBytes))
    else return value
  else return value

def readBooleanValue : Program V := do
  let len ← readU8
  if len = 0 ∨ len = 0xff then return codec.null
  else if len = tnsLegacyNullLengthIndicator ∧ (← op .legacyNullClr) = true then return codec.null
  else if len = 0xfd then
    let marker ← readU8
    if marker = 1 then return codec.null
    else fail (.other ("unsupported Oracle BOOLEAN escape marker " ++ toString marker.toNat))
  else if len = 0xfe then return codec.boolean ((← op .readChunks) == [1, 1])
  else return codec.boolean ((← readRaw len.toNat) == [1, 1])

def readRowidValue : Program V := do
  let numBytes ← readU8
  if numBytes = 0 ∨ numBytes = 0xff ∨
      ((← op .legacyNullClr) = true ∧ numBytes = tnsLegacyNullLengthIndicator) then
    return codec.null
  else
    let rba ← readUb4
    let partitionId ← readUb2
    skip 1
    let blockNum ← readUb4
    let slotNum ← readUb2
    return codec.physicalRowid rba partitionId blockNum slotNum

def readUrowidValue : Program V := do
  match ← readBytes with
  | none => return codec.null
  | some _ =>
    match ← readBytes with
    | none => return codec.null
    | some bytes =>
      if bytes.length < 13 then
        fail (.other ("short Oracle UROWID data: " ++ toString bytes.length ++ " bytes"))
      else ofExcept (codec.urowid bytes)

def readBfileLocator : Program V := do
  if (← readUb4) = 0 then return codec.null
  else readDecoded codec fun bytes => .ok (codec.lob bytes)

variable (column : ThinColumn)

def readLobWithLength : Program V := do
  if (← readUb4) = 0 then return codec.null
  else
    if valueForm column.oraTypeNum ≠ .bfile then discard [.readUb8, .readUb4]
    readDecoded codec fun bytes => .ok (codec.lob bytes)

/-- The tail of a JSON or VECTOR value behind its size: the payload and a locator. -/
def readPayloadTail : Program V := do
  let data ← readBytes
  let _ ← readBytes
  match data with
  | some bytes => if bytes.isEmpty then return codec.null else ofExcept (decode bytes)
  | none => return codec.null

def readJsonValue : Program V := do
  if (← readUb4) = 0 then return codec.null
  else
    discard [.readUb8, .readUb4]
    readPayloadTail codec codec.json

def readVectorValue : Program V :=
  .bytesOrUb false fun
    | .inl bytes => pure (bytes.elim codec.null codec.lob)
    | .inr numBytes =>
      if numBytes = 0 then pure codec.null
      else .bytesOrUb true fun
        | .inl bytes => pure (bytes.elim codec.null codec.lob)
        | .inr _ => do
            discard [.readUb4]
            readPayloadTail codec codec.vector

/-- The header of an object or XMLTYPE value; the result is the size of its image. -/
def readObjectHeader : Program ℕ := do
  skipBytesWithUb4Length
  skipBytesWithUb4Length
  skipBytesWithUb4Length
  discard [.readUb2]
  let numBytes ← readUb4
  discard [.readUb2]
  return numBytes

def readXmltypeValue : Program V := do
  let numBytes ← readObjectHeader
  if numBytes = 0 then return codec.null
  else readDecoded codec fun packedData =>
    if packedData.length < numBytes then
      .error (.other ("short Oracle XMLTYPE payload: expected " ++ toString numBytes
        ++ " bytes, got " ++ toString packedData.length))
    else codec.xml (packedData.take numBytes)

def readObjectValue : Program V := do
  if (← readObjectHeader) = 0 then return codec.null
  else readDecoded codec (codec.object column)

/-- `read_column_value`. The columns of the REF CURSORs met so far are threaded
through it. -/
def readColumnValue (outBind : Bool) (cursorColumns : List (ℕ × List ThinColumn)) :
    Program (V × List (ℕ × List ThinColumn)) := do
  let finish (value : V) : Program (V × List (ℕ × List ThinColumn)) := do
    return (← finishColumnValue codec value outBind column.oraTypeNum, cursorColumns)
  if column.bufferSize = 0 ∧ sentWithoutBuffer column.oraTypeNum = false then finish codec.null
  else match valueForm column.oraTypeNum with
  | .field => finish (← readDecoded codec (codec.field column))
  | .long =>
    let value ← readDecoded codec (codec.field column)
    if outBind then finish value
    else
      discard [.readSb4, .readUb4]
      return (value, cursorColumns)
  | .boolean => finish (← readBooleanValue codec)
  | .lob =>
    if outBind then finish (← readLobWithLength codec column)
    else finish (← readDecoded codec fun bytes => .ok (codec.lob bytes))
  | .json => finish (← readJsonValue codec)
  | .named =>
    if column.columnType = .xml then finish (← readXmltypeValue codec)
    else finish (← readObjectValue codec column)
  | .vector => finish (← readVectorValue codec)
  | .bfile => finish (← readBfileLocator codec)
  | .rowid =>
    if outBind then finish (← readDecoded codec (codec.field column))
    else finish (← readRowidValue codec)
  | .urowid =>
    if outBind then finish (← readDecoded codec (codec.field column))
    else finish (← readUrowidValue codec)
  | .cursor =>
    discard [.readU8]
    let columns ← processDescribeBody caps []
    let cursorId ← readUb2
    let value ← finishColumnValue codec (codec.refCursor cursorId columns) outBind
      column.oraTypeNum
    return (value, cursorColumns ++ [(cursorId, columns)])
  | .unsupported =>
    fail (.other ("Oracle thin TTC cannot decode Oracle type " ++ toString column.oraTypeNum.toNat))

/-- Some values of one column, one after the other. -/
def readColumnValues (column : ThinColumn) :
    ℕ → List (ℕ × List ThinColumn) → Program (List V × List (ℕ × List ThinColumn))
  | 0, cursorColumns => pure ([], cursorColumns)
  | n + 1, cursorColumns => do
      let (value, cursorColumns) ← readColumnValue codec caps column true cursorColumns
      let (values, cursorColumns) ← readColumnValues column n cursorColumns
      return (value :: values, cursorColumns)

end Values

/-! ### Rows -/

/-- A bind of the request, by what a response reads of it: its column metadata,
whether it can return a value and whether it is an output array. -/
structure BindValue where
  column : ThinColumn
  canReturnValue : Bool
  outArray : Bool
  deriving DecidableEq

/-- The fields of `StatementRequest` that a response reads. -/
structure StatementRequest where
  isQuery : Bool
  isPlsql : Bool
  isDmlReturning : Bool
  binds : List BindValue
  bindRows : ℕ
  deriving DecidableEq

/-- What has been read of an execute response. -/
structure ExecuteReadState (V : Type) where
  columns : List ThinColumn := []
  rows : List (List V) := []
  outBindColumns : List ThinColumn := []
  outBindArrayFlags : List Bool := []
  outBindIndices : List ℕ := []
  outBindRows : List (List V) := []
  implicitResults : List (ℕ × List ThinColumn) := []
  cursorColumns : List (ℕ × List ThinColumn) := []
  lastRow : Option (List V) := none
  bitVector : Option Bytes := none
  readingOutBinds : Bool := false
  readingDmlReturning : Bool := false
  dmlReturningBatch : Bool := false
  cursorId : Option ℕ := none
  exhausted : Bool := false
  rowCount : Option ℕ := none

section Rows

variable {V : Type} (codec : ValueCodec V) (caps : OracleThinCapabilities)

def isDuplicateColumn (index : ℕ) (bitVector : Option Bytes) : Bool :=
  match bitVector with
  | none => false
  | some bits => !((bits.getD (index / 8) 0).toNat.testBit (index % 8))

variable (state : ExecuteReadState V)

def processDescribeInfo : Program (ExecuteReadState V) := do
  discard [.readBytes]
  return { state with columns := ← processDescribeBody caps state.columns }

def processRowHeader : Program (ExecuteReadState V) := do
  discard [.skip 1, .readUb2, .readUb4, .readUb4, .readUb2]
  let numBytes ← readUb4
  let bitVector ← if 0 < numBytes then do
      skip 1
      some <$> readRaw numBytes
    else pure none
  skipBytesWithUb4Length
  return { state with bitVector }

def processBitVector : Program (ExecuteReadState V) := do
  discard [.readUb2]
  return { state with bitVector := some (← readRaw ((state.columns.length + 7) / 8)) }

/-- The direction bytes of the binds; the binds that are not inputs are collected. -/
def readBindDirections (binds : List BindValue) : ℕ → ℕ → Program (List (ℕ × BindValue))
  | 0, _ => pure []
  | n + 1, index => do
      let bindDir ← readU8
      let rest ← readBindDirections binds n (index + 1)
      if bindDir = 32 then return rest
      else match binds[index]? with
        | some bind => return (index, bind) :: rest
        | none => return rest

/-- The output binds are the columns of the rows to come. -/
def ExecuteReadState.setOutBinds (binds : List (ℕ × BindValue)) : ExecuteReadState V :=
  { state with
    outBindColumns := binds.map (·.2.column)
    outBindArrayFlags := binds.map (·.2.outArray)
    outBindIndices := binds.map (·.1)
    readingOutBinds := !binds.isEmpty }

def processIoVector (request : StatementRequest) (state : ExecuteReadState V) :
    Program (ExecuteReadState V) := do
  skip 1
  let lowBinds ← readUb2
  let highBinds ← readUb4
  let numBinds := min (min (highBinds * 256) (2 ^ 32 - 1) + lowBinds) (2 ^ 32 - 1)
  discard [.readUb4, .readUb2]
  skipCounted
  skipCounted
  return state.setOutBinds (← readBindDirections request.binds numBinds 0)

def readImplicitResults : ℕ → Program (List (ℕ × List ThinColumn))
  | 0 => pure []
  | n + 1 => do
      let numBytes ← readU8
      if 0 < numBytes.toNat then skip numBytes.toNat
      let columns ← processDescribeBody caps []
      let cursorId ← readUb2
      return (cursorId, columns) :: (← readImplicitResults n)

def processImplicitResults : Program (ExecuteReadState V) := do
  let results ← readImplicitResults caps (← readUb4)
  return { state with
    cursorColumns := state.cursorColumns ++ results
    implicitResults := state.implicitResults ++ results }

/-- The values of a row, from the column `index` on. -/
def readRow (state : ExecuteReadState V) : ℕ → List ThinColumn → List (ℕ × List ThinColumn) →
      Program (List V × List (ℕ × List ThinColumn))
  | _, [], cursorColumns => pure ([], cursorColumns)
  | index, column :: columns, cursorColumns => do
      let rows := if state.readingOutBinds then state.outBindRows else state.rows
      let (value, cursorColumns) ←
        if isDuplicateColumn index state.bitVector then
          let lastRow := rows.getLast?.or state.lastRow
          pure ((lastRow.bind (·[index]?)).getD codec.null, cursorColumns)
        else if state.readingOutBinds && state.outBindArrayFlags.getD index false then do
          let (values, cursorColumns) ←
            readColumnValues codec caps column (← readUb4) cursorColumns
          pure (codec.array values, cursorColumns)
        else readColumnValue codec caps column state.readingOutBinds cursorColumns
      let (values, cursorColumns) ← readRow state (index + 1) columns cursorColumns
      return (value :: values, cursorColumns)

/-- The values returned for each output bind of a DML RETURNING statement. -/
def readReturned : List ThinColumn → List (ℕ × List ThinColumn) →
    Program (List (List V) × List (ℕ × List ThinColumn))
  | [], cursorColumns => pure ([], cursorColumns)
  | column :: columns, cursorColumns => do
      let (values, cursorColumns) ← readColumnValues codec caps column (← readUb4) cursorColumns
      let (returned, cursorColumns) ← readReturned columns cursorColumns
      return (values :: returned, cursorColumns)

def processDmlReturningRowData : Program (ExecuteReadState V) := do
  let (returned, cursorColumns) ←
    readReturned codec caps state.outBindColumns state.cursorColumns
  let rows := if state.dmlReturningBatch then [returned.map codec.array]
    else (List.range (returned.foldl (fun n values => max n values.length) 0)).map fun i =>
      returned.map fun values => values[i]?.getD codec.null
  return { state with
    outBindRows := state.outBindRows ++ rows
    cursorColumns
    bitVector := none }

def processRowData : Program (ExecuteReadState V) := do
  if state.readingDmlReturning then processDmlReturningRowData codec caps state
  else
    let columns := if state.readingOutBinds then state.outBindColumns else state.columns
    let (row, cursorColumns) ← readRow codec caps state 0 columns state.cursorColumns
    if state.readingOutBinds then
      return { state with outBindRows := state.outBindRows ++ [row], cursorColumns,
                          bitVector := none }
    else return { state with rows := state.rows ++ [row], cursorColumns, bitVector := none }

end Rows

end SpaceQuery.Thin
