import SpaceQuery.Thin.OracleNumber

/-!
The encoder of JSON bind values in `tns-thin/src/session.rs`: `encode_oson_json` and the functions
below it.

A document is a header, up to two segments of field names and the tree of nodes. A container node
holds a table of the offsets of its children, an object also a table of field ids; both are laid out
as zeros and patched while the children are encoded.

Lengths are natural numbers, and a `try_from` of the source is `tryFrom` with the width of its
target.
-/

namespace SpaceQuery.Thin

open RustText ByteFields

/-- `serde_json::Value`: a number is the text it is printed as, an object the list of
its members in the order of the map. -/
inductive Json where
  | null
  | bool (value : Bool)
  | number (text : String)
  | string (value : String)
  | array (values : List Json)
  | object (values : List (String × Json))

/-! ### Constants -/

def tnsJsonMagicBytes : Bytes := [0xff, 0x4a, 0x5a]

def tnsJsonVersionMaxFname255 : UInt8 := 1

def tnsJsonVersionMaxFname65535 : UInt8 := 3

def tnsJsonFlagHashIdUint8 : UInt16 := 0x0100

def tnsJsonFlagNumFnamesUint16 : UInt16 := 0x0400

def tnsJsonFlagFnamesSegUint32 : UInt16 := 0x0800

def tnsJsonFlagTreeSegUint32 : UInt16 := 0x1000

def tnsJsonFlagTinyNodesStat : UInt16 := 0x2000

def tnsJsonFlagRelOffsetMode : UInt16 := 0x01

def tnsJsonFlagInlineLeaf : UInt16 := 0x02

def tnsJsonFlagNumFnamesUint32 : UInt16 := 0x08

def tnsJsonFlagIsScalar : UInt16 := 0x10

def tnsJsonFlagSecFnamesSegUint16 : UInt16 := 0x0100

def maxOracleValueNestingDepth : ℕ := 128

@[match_pattern]
abbrev tnsJsonTypeNull : UInt8 := 0x30

@[match_pattern]
abbrev tnsJsonTypeTrue : UInt8 := 0x31

@[match_pattern]
abbrev tnsJsonTypeFalse : UInt8 := 0x32

@[match_pattern]
abbrev tnsJsonTypeStringLengthUint8 : UInt8 := 0x33

@[match_pattern]
abbrev tnsJsonTypeNumberLengthUint8 : UInt8 := 0x34

@[match_pattern]
abbrev tnsJsonTypeStringLengthUint16 : UInt8 := 0x37

@[match_pattern]
abbrev tnsJsonTypeStringLengthUint32 : UInt8 := 0x38

def tnsJsonTypeObject : UInt8 := 0x84

def tnsJsonTypeArray : UInt8 := 0xc0

/-! ### Counts and lengths -/

/-- `try_from` to an unsigned integer of a width in bytes, with the text of the error. -/
def tryFrom (width : ℕ) (error : String) (n : ℕ) : Except OracleThinError ℕ :=
  if n < 256 ^ width then .ok n else .error (.other error)

lemma tryFrom_eq_ok {width n m : ℕ} {error : String} (h : tryFrom width error n = .ok m) :
    n < 256 ^ width ∧ n = m := by
  rw [tryFrom] at h
  split at h
  · exact ⟨‹_›, Except.ok.inj h⟩
  · cases h

variable (out : Bytes)

def pushOsonChildCount (count : ℕ) : Except OracleThinError Bytes := do
  if count < 256 then return out ++ beBytes 1 count
  else if count < 65536 then return out ++ beBytes 2 count
  else return out ++ beBytes 4 (← tryFrom 4 "Oracle JSON bind has too many children" count)

def pushOsonCountWithSize (count size : ℕ) : Except OracleThinError Bytes := do
  if size = 1 ∨ size = 2 ∨ size = 4 then
    return out ++ beBytes size (← tryFrom size "Oracle JSON bind field count is too large" count)
  else .error (.other "invalid Oracle JSON bind count size")

def pushOsonSegmentLen (len : ℕ) (useU32 : Bool) : Except OracleThinError Bytes := do
  let width := if useU32 then 4 else 2
  return out ++ beBytes width (← tryFrom width "Oracle JSON bind segment is too large" len)

def osonFieldIdSize (numFields : ℕ) : ℕ :=
  if numFields ≤ 255 then 1 else if numFields ≤ 65535 then 2 else 4

/-- `write_oson_field_id`: the bytes it writes to a slot of a size. -/
def writeOsonFieldId (size fieldId : ℕ) : Except OracleThinError Bytes := do
  if size = 1 ∨ size = 2 ∨ size = 4 then
    return beBytes size (← tryFrom size "Oracle JSON bind field id is too large" fieldId)
  else .error (.other ("invalid Oracle JSON bind field id size " ++ toString size))

def osonContainerNodeType (baseType : UInt8) (numChildren : ℕ) : UInt8 :=
  let nodeType := baseType ||| 0x20
  if 65535 < numChildren then nodeType ||| 0x10
  else if 255 < numChildren then nodeType ||| 0x08
  else nodeType

/-! ### Field names -/

/-- A field name, and where it is stored. -/
structure OsonFieldName where
  name : String
  bytes : Bytes
  hashId : UInt32
  offset : ℕ
  fieldId : ℕ
  deriving DecidableEq

def osonFieldHash (bytes : Bytes) : UInt32 :=
  bytes.foldl (fun hash byte => (hash ^^^ byte.toUInt32) * 16777619) 0x811c9dc5

/-- The field name of a member that is met for the first time. -/
def OsonFieldName.ofName (name : String) : OsonFieldName where
  name := name
  bytes := asBytes name
  hashId := osonFieldHash (asBytes name)
  offset := 0
  fieldId := 0

/-- The comparison of `sort_oson_field_names`: low byte of the hash, length, bytes. -/
def osonFieldNameLe (left right : OsonFieldName) : Prop :=
  let leftHash := left.hashId &&& 0xff
  let rightHash := right.hashId &&& 0xff
  leftHash < rightHash ∨ leftHash = rightHash ∧
    (left.bytes.length < right.bytes.length ∨ left.bytes.length = right.bytes.length ∧
      left.bytes ≤ right.bytes)

instance : DecidableRel osonFieldNameLe := fun _ _ =>
  inferInstanceAs (Decidable (_ ∨ _ ∧ (_ ∨ _ ∧ _)))

variable (fields : List OsonFieldName)

/-- The sort of the source is stable, like insertion sort. -/
def sortOsonFieldNames : List OsonFieldName :=
  fields.insertionSort osonFieldNameLe

/-- The field name of a member is appended unless it is already there. -/
def addOsonFieldName (name : String) (fields : List OsonFieldName) :
    Except OracleThinError (List OsonFieldName) :=
  if fields.any (fun field => field.name == name) then .ok fields
  else if 65535 < (asBytes name).length then
    .error (.other "Oracle JSON bind field names longer than 65535 bytes are not supported")
  else .ok (fields ++ [OsonFieldName.ofName name])

/-- The error of a value that is nested too deeply. -/
def bindNestingError : OracleThinError :=
  .other ("Oracle JSON bind nesting exceeds " ++ toString maxOracleValueNestingDepth ++ " levels")

mutual

def collectOsonFieldNames (depth : ℕ) (value : Json) (fields : List OsonFieldName) :
    Except OracleThinError (List OsonFieldName) :=
  if maxOracleValueNestingDepth < depth then .error bindNestingError
  else
    match value with
    | .array values => collectOfItems (depth + 1) values fields
    | .object values => collectOfMembers (depth + 1) values fields
    | _ => .ok fields

/-- The loop over the values of an array. -/
def collectOfItems (depth : ℕ) (values : List Json) (fields : List OsonFieldName) :
    Except OracleThinError (List OsonFieldName) :=
  match values with
  | [] => .ok fields
  | value :: rest => do
      let fields ← collectOsonFieldNames depth value fields
      collectOfItems depth rest fields

/-- The loop over the members of an object. -/
def collectOfMembers (depth : ℕ) (values : List (String × Json)) (fields : List OsonFieldName) :
    Except OracleThinError (List OsonFieldName) :=
  match values with
  | [] => .ok fields
  | (name, value) :: rest => do
      let fields ← addOsonFieldName name fields
      let fields ← collectOsonFieldNames depth value fields
      collectOfMembers depth rest fields

end

/-- The names of at most 255 bytes, and the longer ones. -/
def splitFieldNames (supportsLongFieldNames : Bool) :
    List OsonFieldName → Except OracleThinError (List OsonFieldName × List OsonFieldName)
  | [] => .ok ([], [])
  | field :: rest => do
      if field.bytes.length ≤ 255 then
        let (short, long) ← splitFieldNames supportsLongFieldNames rest
        return (field :: short, long)
      else if !supportsLongFieldNames then
        .error (.other ("Oracle JSON bind field names longer than 255 bytes require OSON long "
          ++ "field name support"))
      else
        let (short, long) ← splitFieldNames supportsLongFieldNames rest
        return (short, field :: long)

/-- The fields numbered from behind `start` on. -/
def numberFields (start : ℕ) (fields : List OsonFieldName) : List OsonFieldName :=
  fields.mapIdx fun index field => { field with fieldId := start + index + 1 }

/-- The length in front of a name. -/
def fieldNameLen (longNames : Bool) (len : ℕ) : Except OracleThinError Bytes := do
  if longNames then
    return beBytes 2 (← tryFrom 2 "Oracle JSON bind long field name is too large" len)
  else return beBytes 1 len

/-- The names one after the other, each behind its length, and the fields with the
offsets of their names. -/
def layFieldNames (longNames : Bool) : List OsonFieldName → Bytes →
    Except OracleThinError (List OsonFieldName × Bytes)
  | [], names => .ok ([], names)
  | field :: rest, names => do
      let len ← fieldNameLen longNames field.bytes.length
      let (fields, names') ← layFieldNames longNames rest (names ++ len ++ field.bytes)
      return ({ field with offset := names.length } :: fields, names')

/-- The table of the offsets of the names. -/
def fieldOffsets (width : ℕ) : List OsonFieldName → Except OracleThinError Bytes
  | [] => .ok []
  | field :: rest => do
      let offset ← tryFrom width "Oracle JSON bind field segment is too large" field.offset
      return beBytes width offset ++ (← fieldOffsets width rest)

/-- `encode_oson_field_names_segment`: hashes, offsets and names, and the length of
the names. -/
def encodeOsonFieldNamesSegment (longNames : Bool) : Except OracleThinError (Bytes × ℕ) := do
  let (fields, names) ← layFieldNames longNames fields []
  let hashes := fields.flatMap fun field =>
    beBytes (if longNames then 2 else 1) field.hashId.toNat
  let offsets ← fieldOffsets (if 65535 < names.length then 4 else 2) fields
  return (hashes ++ offsets ++ names, names.length)

/-! ### Nodes -/

def encodeOsonString (value : String) (out : Bytes) : Except OracleThinError Bytes := do
  let bytes := asBytes value
  if bytes.length < 256 then
    return out ++ [tnsJsonTypeStringLengthUint8] ++ beBytes 1 bytes.length ++ bytes
  else if bytes.length < 65536 then
    return out ++ [tnsJsonTypeStringLengthUint16] ++ beBytes 2 bytes.length ++ bytes
  else
    let len ← tryFrom 4 "Oracle JSON string bind is too large" bytes.length
    return out ++ [tnsJsonTypeStringLengthUint32] ++ beBytes 4 len ++ bytes

def encodeOsonNumber (text : String) (out : Bytes) : Except OracleThinError Bytes := do
  let bytes ← encodeOracleNumber text
  let len ← tryFrom 1 "Oracle JSON number bind is too large" bytes.length
  return out ++ [tnsJsonTypeNumberLengthUint8] ++ beBytes 1 len ++ bytes

/-- The node type and the number of children of a container. -/
def openContainer (baseType : UInt8) (numChildren : ℕ) (out : Bytes) :
    Except OracleThinError Bytes :=
  pushOsonChildCount (out ++ [osonContainerNodeType baseType numChildren]) numChildren

/-- The offset of the next child is the length of the tree so far; it goes to a slot
of the offset table. -/
def patchOffset (slot : ℕ) (out : Bytes) : Except OracleThinError Bytes := do
  let offset ← tryFrom 4 "Oracle JSON bind tree segment is too large" out.length
  return patch out slot (beBytes 4 offset)

/-- The id of a member's field goes to a slot of the table of field ids. -/
def patchFieldId (slot : ℕ) (name : String) (out : Bytes) :
    Except OracleThinError Bytes := do
  match fields.find? (fun field => field.name == name) with
  | none => .error (.other ("missing Oracle JSON bind field " ++ name))
  | some field => return patch out slot (← writeOsonFieldId (osonFieldIdSize fields.length)
      field.fieldId)

mutual

def encodeOsonNode (fields : List OsonFieldName) (depth : ℕ) (value : Json) (out : Bytes) :
    Except OracleThinError Bytes :=
  if maxOracleValueNestingDepth < depth then .error bindNestingError
  else
    match value with
    | .null => .ok (out ++ [tnsJsonTypeNull])
    | .bool true => .ok (out ++ [tnsJsonTypeTrue])
    | .bool false => .ok (out ++ [tnsJsonTypeFalse])
    | .number text => encodeOsonNumber text out
    | .string value => encodeOsonString value out
    -- `encode_oson_array`
    | .array values => do
        let out ← openContainer tnsJsonTypeArray values.length out
        let offsetsPos := out.length
        encodeOsonItems fields (depth + 1) offsetsPos values
          (out ++ List.replicate (values.length * 4) 0)
    -- `encode_oson_object`
    | .object values => do
        let fieldIdSize := osonFieldIdSize fields.length
        let out ← openContainer tnsJsonTypeObject values.length out
        let fieldIdsPos := out.length
        let offsetsPos := fieldIdsPos + values.length * fieldIdSize
        encodeOsonMembers fields (depth + 1) fieldIdsPos offsetsPos values
          (out ++ List.replicate (values.length * fieldIdSize + values.length * 4) 0)

/-- The loop of `encode_oson_array`, from the slot of the next offset on. -/
def encodeOsonItems (fields : List OsonFieldName) (depth offsetSlot : ℕ) (values : List Json)
    (out : Bytes) : Except OracleThinError Bytes :=
  match values with
  | [] => .ok out
  | value :: rest => do
      let out ← patchOffset offsetSlot out
      let out ← encodeOsonNode fields depth value out
      encodeOsonItems fields depth (offsetSlot + 4) rest out

/-- The loop of `encode_oson_object`, from the slots of the next field id and of the
next offset on. -/
def encodeOsonMembers (fields : List OsonFieldName) (depth fieldIdSlot offsetSlot : ℕ)
    (values : List (String × Json)) (out : Bytes) : Except OracleThinError Bytes :=
  match values with
  | [] => .ok out
  | (name, value) :: rest => do
      let out ← patchFieldId fields fieldIdSlot name out
      let out ← patchOffset offsetSlot out
      let out ← encodeOsonNode fields depth value out
      encodeOsonMembers fields depth (fieldIdSlot + osonFieldIdSize fields.length)
        (offsetSlot + 4) rest out

end

/-! ### Documents -/

def Json.isScalar : Json → Bool
  | .array _ => false
  | .object _ => false
  | _ => true

/-- The segment of some names; there is none without names. -/
def fieldSegment (longNames : Bool) : Except OracleThinError (Bytes × ℕ) :=
  if fields = [] then .ok ([], 0) else encodeOsonFieldNamesSegment fields longNames

/-- The primary flags of a document. -/
def osonFlags (isScalar : Bool) (numFields shortLen treeLen : ℕ) : UInt16 :=
  let flags := tnsJsonFlagInlineLeaf
  let flags :=
    if isScalar then flags ||| tnsJsonFlagIsScalar
    else
      let flags := flags ||| (tnsJsonFlagHashIdUint8 ||| tnsJsonFlagTinyNodesStat)
      if 65535 < numFields then flags ||| tnsJsonFlagNumFnamesUint32
      else if 255 < numFields then flags ||| tnsJsonFlagNumFnamesUint16
      else flags
  let flags := if 65535 < shortLen then flags ||| tnsJsonFlagFnamesSegUint32 else flags
  if 65535 < treeLen then flags ||| tnsJsonFlagTreeSegUint32 else flags

/-- The counts and segment lengths of the field names. -/
def pushFieldCounts (flags : UInt16) (version : UInt8)
    (short long : List OsonFieldName) (shortLen longLen : ℕ) : Except OracleThinError Bytes := do
  let out ← pushOsonCountWithSize out short.length (osonFieldIdSize (short.length + long.length))
  let out ← pushOsonSegmentLen out shortLen (flags &&& tnsJsonFlagFnamesSegUint32 != 0)
  if version = tnsJsonVersionMaxFname65535 then
    let secondaryFlags := if longLen ≤ 65535 then tnsJsonFlagSecFnamesSegUint16 else 0
    let longCount ← tryFrom 4 "Oracle JSON bind has too many long fields" long.length
    let longLen ← tryFrom 4 "Oracle JSON bind long field segment is too large" longLen
    return out ++ beBytes 2 secondaryFlags.toNat ++ beBytes 4 longCount ++ beBytes 4 longLen
  else return out

/-- The field names of a value in the order of their ids: the short ones, and the long
ones. -/
def osonFields (value : Json) (supportsLongFieldNames : Bool) :
    Except OracleThinError (List OsonFieldName × List OsonFieldName) := do
  let fields ← collectOsonFieldNames 0 value []
  let (short, long) ← splitFieldNames supportsLongFieldNames fields
  return (numberFields 0 (sortOsonFieldNames short),
    numberFields short.length (sortOsonFieldNames long))

def encodeOsonJson (value : Json) (supportsLongFieldNames : Bool) :
    Except OracleThinError Bytes := do
  let (short, long) ← osonFields value supportsLongFieldNames
  let (shortSegment, shortLen) ← fieldSegment short false
  let (longSegment, longLen) ← fieldSegment long true
  let tree ← encodeOsonNode (short ++ long) 0 value []
  let flags := osonFlags value.isScalar (short.length + long.length) shortLen tree.length
  let version := if long = [] then tnsJsonVersionMaxFname255 else tnsJsonVersionMaxFname65535
  let out := tnsJsonMagicBytes ++ [version] ++ beBytes 2 flags.toNat
  let treeIsLong := flags &&& tnsJsonFlagTreeSegUint32 != 0
  if value.isScalar then
    let out ← pushOsonSegmentLen out tree.length treeIsLong
    return out ++ tree
  else
    let out ← pushFieldCounts out flags version short long shortLen longLen
    let out ← pushOsonSegmentLen out tree.length treeIsLong
    return out ++ beBytes 2 0 ++ shortSegment ++ longSegment ++ tree

end SpaceQuery.Thin
