import SpaceQuery.Thin.OsonEncoder

/-!
The decoder of JSON values in `tns-thin/src/session.rs`: `OsonDecoder` and `decode_oson_to_json`.

The decoder moves a position over the document, jumps to the children of a container by their
offsets and remembers the offsets of the containers it is in. `decodeNode` counts the levels that
are left where the source counts the levels taken: no level is left at depth 65.

The decoders of the scalar types that the encoder never writes are parameters. The text that the
UTF-8 decoder appends to its errors is left out.
-/

namespace SpaceQuery.Thin

open RustText ByteFields Comp

def maxOsonDecodeNestingDepth : ℕ := 64

@[match_pattern]
abbrev tnsJsonTypeBinaryDouble : UInt8 := 0x36

@[match_pattern]
abbrev tnsJsonTypeTimestamp : UInt8 := 0x39

@[match_pattern]
abbrev tnsJsonTypeBinaryLengthUint16 : UInt8 := 0x3a

@[match_pattern]
abbrev tnsJsonTypeBinaryLengthUint32 : UInt8 := 0x3b

@[match_pattern]
abbrev tnsJsonTypeDate : UInt8 := 0x3c

@[match_pattern]
abbrev tnsJsonTypeIntervalYm : UInt8 := 0x3d

@[match_pattern]
abbrev tnsJsonTypeIntervalDs : UInt8 := 0x3e

@[match_pattern]
abbrev tnsJsonTypeTimestampTz : UInt8 := 0x7c

@[match_pattern]
abbrev tnsJsonTypeTimestamp7 : UInt8 := 0x7d

@[match_pattern]
abbrev tnsJsonTypeId : UInt8 := 0x7e

@[match_pattern]
abbrev tnsJsonTypeBinaryFloat : UInt8 := 0x7f

@[match_pattern]
abbrev tnsJsonTypeExtended : UInt8 := 0x7b

def tnsJsonTypeVector : UInt8 := 0x01

/-! ### JSON text -/

open String

/-- One character of a quoted string. -/
def jsonEscape (ch : Char) : String :=
  if ch = '"' then "\\\""
  else if ch = '\\' then "\\\\"
  else if ch = '\n' then "\\n"
  else if ch = '\r' then "\\r"
  else if ch = '\t' then "\\t"
  else if ch.toNat = 0x08 then "\\b"
  else if ch.toNat = 0x0c then "\\f"
  else if ch.toNat ≤ 0x1f then
    let digits := Nat.toDigits 16 ch.toNat
    "\\u" ++ ofList (List.replicate (4 - digits.length) '0' ++ digits)
  else ch.toString

def jsonQuote (value : String) : String :=
  "\"" ++ join (value.toList.map jsonEscape) ++ "\""

def hexString (bytes : Bytes) : String := join (bytes.map hexByte)

def jsonRawhexObject (bytes : Bytes) : String :=
  "\x7b\"$rawhex\":\"" ++ hexString bytes ++ "\"\x7d"

/-! ### Reading -/

/-- The decoder between two reads. -/
structure OsonDecoder where
  data : Bytes
  pos : ℕ
  fieldNames : List String
  fieldIdLength : ℕ
  treeSegPos : ℕ
  relativeOffsets : Bool
  activeContainerOffsets : List ℕ

/-- The decoders of the other scalar types, each on the bytes of its value. -/
structure ScalarDecoders where
  datetime : Bytes → Except OracleThinError String
  binaryFloat : Bytes → Except OracleThinError String
  binaryDouble : Bytes → Except OracleThinError String
  intervalDs : Bytes → Except OracleThinError String
  intervalYm : Bytes → Except OracleThinError String
  vector : Bytes → Except OracleThinError String

/-- The result of a method of the decoder. -/
abbrev OsonM (α : Type) := Comp OsonDecoder OracleThinError α

namespace OsonDecoder

def new (data : Bytes) : OsonDecoder where
  data := data
  pos := 0
  fieldNames := []
  fieldIdLength := 1
  treeSegPos := 0
  relativeOffsets := false
  activeContainerOffsets := []

/-- `self.pos = pos`. -/
def seek (pos : ℕ) : OsonM Unit := modify fun d => { d with pos := pos }

def readRaw (len : ℕ) : OsonM Bytes := fun d =>
  if d.pos + len ≤ d.data.length then
    (.ok ((d.data.drop d.pos).take len), { d with pos := d.pos + len })
  else (.error (.other "short OSON data while reading bytes"), d)

def skip (len : ℕ) : OsonM Unit := do
  let _ ← readRaw len

def readU8 : OsonM UInt8 := fun d =>
  match d.data[d.pos]? with
  | some value => (.ok value, { d with pos := d.pos + 1 })
  | none => (.error (.other "short OSON data while reading u8"), d)

/-- The big-endian integers `read_u16_be` and `read_u32_be`, by their width. -/
def readBe (width : ℕ) : OsonM ℕ := do
  return beValue (← readRaw width)

def readU16Be : OsonM ℕ := readBe 2

def readU32Be : OsonM ℕ := readBe 4

def readUtf8 (len : ℕ) : OsonM String := do
  match fromUtf8 (← readRaw len) with
  | some text => return text
  | none => fail (.other "invalid OSON UTF-8 string")

def readNumChildren (nodeType : UInt8) : OsonM (ℕ × Bool) := do
  if nodeType &&& 0x18 = 0 then return ((← readU8).toNat, false)
  else if nodeType &&& 0x18 = 0x08 then return (← readU16Be, false)
  else if nodeType &&& 0x18 = 0x10 then return (← readU32Be, false)
  else return (0, true)

def readOffset (nodeType : UInt8) : OsonM ℕ :=
  if nodeType &&& 0x20 ≠ 0 then readU32Be else readU16Be

open OsonDecoder (pos fieldIdLength treeSegPos fieldNames)

/-- The field id of a member. -/
def readFieldId : OsonM ℕ := do
  let fieldIdLength ← get fieldIdLength
  if fieldIdLength = 1 then return (← readU8).toNat
  else if fieldIdLength = 2 then readU16Be
  else if fieldIdLength = 4 then readU32Be
  else fail (.other ("invalid OSON field id length " ++ toString fieldIdLength))

/-! ### Nodes -/

variable (scalars : ScalarDecoders)

/-- The nodes of `decode_node` that are no containers. -/
def decodeScalar (nodeType : UInt8) : OsonM String := do
  match nodeType with
  | tnsJsonTypeNull => return "null"
  | tnsJsonTypeTrue => return "true"
  | tnsJsonTypeFalse => return "false"
  | tnsJsonTypeDate => return jsonQuote (← lift (scalars.datetime (← readRaw 7)))
  | tnsJsonTypeTimestamp7 => return jsonQuote (← lift (scalars.datetime (← readRaw 7)))
  | tnsJsonTypeTimestamp => return jsonQuote (← lift (scalars.datetime (← readRaw 11)))
  | tnsJsonTypeTimestampTz => return jsonQuote (← lift (scalars.datetime (← readRaw 13)))
  | tnsJsonTypeBinaryFloat => lift (scalars.binaryFloat (← readRaw 4))
  | tnsJsonTypeBinaryDouble => lift (scalars.binaryDouble (← readRaw 8))
  | tnsJsonTypeIntervalDs => return jsonQuote (← lift (scalars.intervalDs (← readRaw 11)))
  | tnsJsonTypeIntervalYm => return jsonQuote (← lift (scalars.intervalYm (← readRaw 5)))
  | tnsJsonTypeStringLengthUint8 => return jsonQuote (← readUtf8 (← readU8).toNat)
  | tnsJsonTypeStringLengthUint16 => return jsonQuote (← readUtf8 (← readU16Be))
  | tnsJsonTypeStringLengthUint32 => return jsonQuote (← readUtf8 (← readU32Be))
  | tnsJsonTypeNumberLengthUint8 => lift (decodeOracleNumber (← readRaw (← readU8).toNat))
  | tnsJsonTypeId => return jsonQuote (hexString (← readRaw (← readU8).toNat))
  | tnsJsonTypeBinaryLengthUint16 => return jsonRawhexObject (← readRaw (← readU16Be))
  | tnsJsonTypeBinaryLengthUint32 => return jsonRawhexObject (← readRaw (← readU32Be))
  | tnsJsonTypeExtended =>
    let extendedType ← readU8
    if extendedType = tnsJsonTypeVector then
      lift (scalars.vector (← readRaw (← readU32Be)))
    else fail (.other ("unsupported OSON extended node type " ++ toString extendedType))
  | _ =>
    if nodeType &&& 0xf0 = 0x20 ∨ nodeType &&& 0xf0 = 0x60 then
      lift (decodeOracleNumber (← readRaw ((nodeType &&& 0x0f).toNat + 1)))
    else if nodeType &&& 0xf0 = 0x40 ∨ nodeType &&& 0xf0 = 0x50 then
      lift (decodeOracleNumber (← readRaw (nodeType &&& 0x0f).toNat))
    else if nodeType &&& 0xe0 = 0 then return jsonQuote (← readUtf8 nodeType.toNat)
    else fail (.other ("unsupported OSON node type " ++ toString nodeType))

/-- The name of the next member, and the position of the field id behind its own. -/
def readChildName (nextFieldIdsPos : ℕ) : OsonM (String × ℕ) := do
  seek nextFieldIdsPos
  let fieldId ← readFieldId
  let nextFieldIdsPos ← get pos
  let names ← get fieldNames
  match names[fieldId - 1]? with
  | some name => return (name, nextFieldIdsPos)
  | none => fail (.other ("OSON field id " ++ toString fieldId ++ " out of range"))

variable (decodeChild : OsonM String)

/-- The value of the next child, and the position of the offset behind its own. -/
def readChildValue (nodeType : UInt8) (containerOffset : ℕ)
    (nextOffsetsPos : ℕ) : OsonM (String × ℕ) := do
  seek nextOffsetsPos
  let offset ← readOffset nodeType
  let relativeOffsets ← get OsonDecoder.relativeOffsets
  let offset := if relativeOffsets then offset + containerOffset else offset
  let nextOffsetsPos ← get pos
  let treeSegPos ← get treeSegPos
  seek (treeSegPos + offset)
  let value ← decodeChild
  return (value, nextOffsetsPos)

/-- The loop over the children of an array. -/
def decodeItems (decodeChild : OsonM String) (nodeType : UInt8) (containerOffset : ℕ) :
    (numChildren nextOffsetsPos : ℕ) → OsonM (List String)
  | 0, _ => return []
  | numChildren + 1, nextOffsetsPos => do
      let (value, nextOffsetsPos) ←
        readChildValue decodeChild nodeType containerOffset nextOffsetsPos
      let values ← decodeItems decodeChild nodeType containerOffset numChildren nextOffsetsPos
      return value :: values

/-- The loop over the children of an object. -/
def decodeMembers (decodeChild : OsonM String) (nodeType : UInt8) (containerOffset : ℕ) :
    (numChildren nextFieldIdsPos nextOffsetsPos : ℕ) → OsonM (List String)
  | 0, _, _ => return []
  | numChildren + 1, nextFieldIdsPos, nextOffsetsPos => do
      let (name, nextFieldIdsPos) ← readChildName nextFieldIdsPos
      let (value, nextOffsetsPos) ←
        readChildValue decodeChild nodeType containerOffset nextOffsetsPos
      let values ← decodeMembers decodeChild nodeType containerOffset numChildren
        nextFieldIdsPos nextOffsetsPos
      return (jsonQuote name ++ ":" ++ value) :: values

/-- Where the children of a container are found: their number and the positions of
the field ids and of the offsets. A shared container has the field ids of another. -/
def readChildTables (nodeType : UInt8) (isObject : Bool) : OsonM (ℕ × ℕ × ℕ) := do
  let (numChildren, isShared) ← readNumChildren nodeType
  if isShared then
    let offset ← readOffset nodeType
    let offsetsPos ← get pos
    let treeSegPos ← get treeSegPos
    seek (treeSegPos + offset)
    let sharedNodeType ← readU8
    let (numChildren, _) ← readNumChildren sharedNodeType
    return (numChildren, ← get pos, offsetsPos)
  else
    let pos ← get pos
    let fieldIdLength ← get fieldIdLength
    return (numChildren, pos, if isObject then pos + fieldIdLength * numChildren else pos)

/-- The children of a container, as JSON text. -/
def decodeChildren (nodeType : UInt8) (containerOffset : ℕ) :
    OsonM String := do
  let isObject := nodeType &&& 0x40 == 0
  let (numChildren, fieldIdsPos, offsetsPos) ← readChildTables nodeType isObject
  if isObject then
    let values ← decodeMembers decodeChild nodeType containerOffset numChildren fieldIdsPos
      offsetsPos
    return "\x7b" ++ intercalate "," values ++ "\x7d"
  else
    let values ← decodeItems decodeChild nodeType containerOffset numChildren offsetsPos
    return "[" ++ intercalate "," values ++ "]"

/-- The offset of the container is active while its children are decoded, and removed
also when they fail. -/
def decodeContainerNode (nodeType : UInt8) : OsonM String := fun d =>
  let containerOffset := d.pos - d.treeSegPos - 1
  if containerOffset ∈ d.activeContainerOffsets then
    (.error (.other ("cyclic Oracle OSON container offset " ++ toString containerOffset)), d)
  else
    let (result, d) := decodeChildren decodeChild nodeType containerOffset
      { d with activeContainerOffsets := containerOffset :: d.activeContainerOffsets }
    (result, { d with activeContainerOffsets := d.activeContainerOffsets.erase containerOffset })

def decodeNode : ℕ → OsonM String
  | 0 => fail (.other ("Oracle OSON nesting exceeds "
      ++ toString maxOsonDecodeNestingDepth ++ " levels"))
  | levels + 1 => do
      let nodeType ← readU8
      if nodeType &&& 0x80 ≠ 0 then decodeContainerNode (decodeNode levels) nodeType
      else decodeScalar scalars nodeType

/-! ### Documents -/

def skipTreeSegmentSize (primaryFlags : UInt16) : OsonM Unit := do
  if primaryFlags &&& tnsJsonFlagTreeSegUint32 ≠ 0 then
    let _ ← readU32Be
  else
    let _ ← readU16Be

/-- The bytes `start..start + len` of a segment, if it has them. -/
def segmentBytes (segment : Bytes) (start len : ℕ) : Option Bytes :=
  if start + len ≤ segment.length then some ((segment.drop start).take len) else none

/-- The name at an offset of a segment, behind its length. -/
def fieldNameAt (longNames : Bool) (segment : Bytes) (offset : ℕ) : Except OracleThinError String :=
  let kind := if longNames then "long field name" else "field name"
  let width := if longNames then 2 else 1
  match segmentBytes segment offset width with
  | none => .error (.other ("short OSON " ++ kind ++ " length"))
  | some len =>
    match segmentBytes segment (offset + width) (beValue len) with
    | none => .error (.other ("short OSON " ++ kind ++ " bytes"))
    | some name =>
      match fromUtf8 name with
      | some name => .ok name
      | none => .error (.other ("invalid OSON " ++ kind ++ " UTF-8"))

/-- The offset of a name. -/
def readNameOffset (offsetsSize : ℕ) : OsonM ℕ := if offsetsSize = 2 then readU16Be else readU32Be

/-- The loop over the offsets of the names. -/
def readFieldNames (offsetsSize : ℕ) (segment : Bytes) (longNames : Bool) : ℕ → OsonM (List String)
  | 0 => return []
  | numFields + 1 => do
      let offset ← readNameOffset offsetsSize
      let name ← lift (fieldNameAt longNames segment offset)
      let names ← readFieldNames offsetsSize segment longNames numFields
      return name :: names

def readFieldNamesSegment (numFields offsetsSize segmentSize : ℕ) (longNames : Bool) :
    OsonM (List String) := do
  skip (numFields * if longNames then 2 else 1)
  let offsetsPos ← get pos
  skip (numFields * offsetsSize)
  let segment ← readRaw segmentSize
  let finalPos ← get pos
  seek offsetsPos
  let names ← readFieldNames offsetsSize segment longNames numFields
  seek finalPos
  return names

/-- The names of a segment are appended to the field names. -/
def extendFieldNames (numFields offsetsSize segmentSize : ℕ) (longNames : Bool) : OsonM Unit := do
  if 0 < numFields then
    let names ← readFieldNamesSegment numFields offsetsSize segmentSize longNames
    modify fun d => { d with fieldNames := d.fieldNames ++ names }

/-- The number of short names sets the width of the field ids. -/
def readNumShortFieldNames (primaryFlags : UInt16) : OsonM ℕ := do
  let width := if primaryFlags &&& tnsJsonFlagNumFnamesUint32 ≠ 0 then 4
    else if primaryFlags &&& tnsJsonFlagNumFnamesUint16 ≠ 0 then 2 else 1
  modify fun d => { d with fieldIdLength := width }
  if width = 4 then readU32Be
  else if width = 2 then readU16Be
  else return (← readU8).toNat

variable (version : UInt8)

/-- The number of long names, the width of their offsets and the length of their
segment. -/
def readLongFieldCounts : OsonM (ℕ × ℕ × ℕ) := do
  if version = tnsJsonVersionMaxFname65535 then
    let secondaryFlags := UInt16.ofNat (← readU16Be)
    let offsetsSize := if secondaryFlags &&& tnsJsonFlagSecFnamesSegUint16 ≠ 0 then 2 else 4
    return (← readU32Be, offsetsSize, ← readU32Be)
  else return (0, 0, 0)

/-- The header of a document with field names, and the names. -/
def readFieldNamesHeader (primaryFlags : UInt16) : OsonM Unit := do
  let numShort ← readNumShortFieldNames primaryFlags
  let shortOffsetsSize := if primaryFlags &&& tnsJsonFlagFnamesSegUint32 ≠ 0 then 4 else 2
  let shortSegSize ← readBe shortOffsetsSize
  let (numLong, longOffsetsSize, longSegSize) ← readLongFieldCounts version
  skipTreeSegmentSize primaryFlags
  let _ ← readU16Be
  extendFieldNames numShort shortOffsetsSize shortSegSize false
  extendFieldNames numLong longOffsetsSize longSegSize true

/-- What stands between the flags and the tree. -/
def readHeader (primaryFlags : UInt16) : OsonM Unit :=
  if primaryFlags &&& tnsJsonFlagIsScalar ≠ 0 then skipTreeSegmentSize primaryFlags
  else readFieldNamesHeader version primaryFlags

def decode : OsonM String := do
  let magic ← readRaw 3
  if magic ≠ tnsJsonMagicBytes then
    fail (.other ("unexpected OSON magic bytes: [" ++ intercalate ", " (magic.map hexByte) ++ "]"))
  else
    let version ← readU8
    if version ≠ tnsJsonVersionMaxFname255 ∧ version ≠ tnsJsonVersionMaxFname65535 then
      fail (.other ("unsupported OSON version " ++ toString version))
    else
      let primaryFlags := UInt16.ofNat (← readU16Be)
      modify fun d =>
        { d with relativeOffsets := primaryFlags &&& tnsJsonFlagRelOffsetMode != 0 }
      readHeader version primaryFlags
      modify fun d => { d with treeSegPos := d.pos }
      decodeNode scalars (maxOsonDecodeNestingDepth + 1)

end OsonDecoder

def decodeOsonToJson (scalars : ScalarDecoders) (bytes : Bytes) : Except OracleThinError String :=
  (OsonDecoder.decode scalars (.new bytes)).1

end SpaceQuery.Thin
