import SpaceQuery.Thin.ExecuteMessages
import SpaceQuery.Thin.FieldWriter
import SpaceQuery.Thin.OracleDateTime
import SpaceQuery.Thin.OsonEncoder

/-!
Values of object and collection types in `tns-thin/src/session.rs`: `decode_object_payload`,
`read_object_attrs`, `read_object_attr_value` and `decode_collection_payload`.

The payloads of objects and collections carry their own image and are decoded under a depth that
is checked. An object inside an object has no image of its own: its attributes are read from the
same cursor, and the depth is handed on without a check. The recursion is modelled with the levels
it may still nest; running out of them is a failure of its own.
-/

namespace SpaceQuery.Thin

open List PacketCursor CursorM Comp

open Option hiding any any_eq_false any_eq_true bind_apply
open ByteFields (beBytes beValue)

/-! ### Columns and values -/

def oraTypeNumVarchar : UInt8 := 1
def oraTypeNumNumber : UInt8 := 2
def tnsDataTypeBinaryInteger : UInt8 := 3
def oraTypeNumLong : UInt8 := 8
def oraTypeNumDate : UInt8 := 12
def oraTypeNumRaw : UInt8 := 23
def oraTypeNumLongRaw : UInt8 := 24
def oraTypeNumChar : UInt8 := 96
def oraTypeNumBinaryFloat : UInt8 := 100
def oraTypeNumBinaryDouble : UInt8 := 101
def oraTypeNumObject : UInt8 := 109
def oraTypeNumClob : UInt8 := 112
def oraTypeNumBlob : UInt8 := 113
def oraTypeNumBfile : UInt8 := 114
def oraTypeNumTimestamp : UInt8 := 180
def oraTypeNumTimestampTz : UInt8 := 181
def oraTypeNumIntervalYm : UInt8 := 182
def oraTypeNumIntervalDs : UInt8 := 183
def oraTypeNumIntervalYmDty : UInt8 := 189
def oraTypeNumIntervalDsDty : UInt8 := 190
def oraTypeNumTimestampLtz : UInt8 := 231
def oraTypeNumBoolean : UInt8 := 252

def tnsLongLengthIndicator : UInt8 := 0xfe
def tnsObjIsDegenerate : UInt8 := 0x10
def tnsObjNoPrefixSeg : UInt8 := 0x04
def tnsObjHasIndexes : UInt8 := 0x10
def tnsXmlTypeLob : ℕ := 0x0001
def tnsXmlTypeString : ℕ := 0x0004
def tnsXmlTypeFlagSkipNext4 : ℕ := 0x00100000
def csFormImplicit : UInt8 := 1

/-- The values of `OracleValue` that an object can hold. -/
inductive OracleValue where
  | null
  | number (text : String)
  | text (text : String)
  | boolean (value : Bool)
  | dateTime (value : OracleDateTime)
  | timestamp (value : OracleDateTime)
  | bytes (bytes : Bytes)
  | lob (locator : Bytes)
  | object (attrs : List (String × OracleValue))
  | array (values : List OracleValue)
  | indexedArray (values : List (ℤ × OracleValue))

/-- Why decoding stops: an error of the source, or the levels are used up. -/
inductive Stop where
  | error (error : OracleThinError)
  | outOfLevels
  deriving DecidableEq

abbrev ObjectM := Comp PacketCursor Stop

/-- A method of the cursor that cannot nest. -/
def plain {α : Type} (m : CursorM α) : ObjectM α := m.mapError Stop.error

/-- The type metadata, the capabilities of the session, and the decoders of those scalar values
that are not modelled here. -/
structure ObjectTypes where
  objectAttrsByType : String × String → Option (List ThinColumn)
  collectionElementByType : String × String → Option ThinColumn
  capabilities : CursorCapabilities
  zones : ZoneOffsets
  decodeOracleText : Bytes → UInt8 → Except OracleThinError String
  decodeOracleBinaryFloat : Bytes → Except OracleThinError String
  decodeOracleBinaryDouble : Bytes → Except OracleThinError String
  decodeOracleIntervalYmWithPrecision : Bytes → ℤ → Except OracleThinError String
  decodeOracleIntervalDsWithPrecision : Bytes → ℤ → ℤ → Except OracleThinError String

/-- A name without the double quotes around it. -/
def trimQuotes (name : String) : String :=
  String.ofList ((name.toList.dropWhile (· == '"')).rdropWhile (· == '"'))

def objectTypeKey (schemaName typeName : String) : String × String :=
  (trimQuotes schemaName, trimQuotes typeName)

def ThinColumn.key (column : ThinColumn) : String × String :=
  objectTypeKey column.schemaName column.typeName

/-- The column holds an object or a collection. -/
def ThinColumn.nests (column : ThinColumn) : Bool :=
  column.oraTypeNum == oraTypeNumObject && column.columnType != .xml

/-! ### Fields of a payload -/

def readU32Be : CursorM ℕ := do
  return beValue (← readRaw 4)

def readPickleLength : CursorM ℕ := do
  let len ← readU8
  if len = tnsLongLengthIndicator then readU32Be
  else return len.toNat

def readObjectPickleBytes : CursorM (Option Bytes) := do
  let len ← readU8
  if len = 0 ∨ len = 0xff then return none
  else if len = tnsLegacyNullLengthIndicator ∧ (← get legacyNullClr) = true then return none
  else if len = tnsLongLengthIndicator then
    return some (← readRaw (← readU32Be))
  else
    return some (← readRaw len.toNat)

/-- The image header of an object or a collection. -/
def readImageHeader : CursorM Unit := do
  let imageFlags ← readU8
  let _ ← readU8
  let _ ← readPickleLength
  if imageFlags &&& tnsObjIsDegenerate ≠ 0 then
    fail (.other "Oracle DbObject stored in a LOB is not supported")
  else if imageFlags &&& tnsObjNoPrefixSeg = 0 then
    let prefixSegLength ← readPickleLength
    skip prefixSegLength
  else return ()

def readObjectCollectionIndex : CursorM ℤ := do
  return (BitVec.ofNat 32 (beValue (← readRaw 4))).toInt

def decodeObjectBinaryInteger (bytes : Bytes) : Except OracleThinError String :=
  if 1 ≤ bytes.length ∧ bytes.length ≤ 8 then
    .ok (toString (BitVec.ofNat 32 (beValue bytes)).toInt)
  else
    .error (.other ("invalid Oracle DbObject BINARY_INTEGER length " ++ toString bytes.length))

namespace ObjectTypes

variable (types : ObjectTypes)

def readXmltypePayload : CursorM OracleValue := do
  let imageFlags ← readU8
  let _ ← readU8
  let _ ← readPickleLength
  if imageFlags &&& tnsObjNoPrefixSeg = 0 ∧ imageFlags &&& tnsObjIsDegenerate = 0 then
    skip (← readPickleLength)
  skip 1
  let xmlFlag ← readU32Be
  if xmlFlag &&& tnsXmlTypeFlagSkipNext4 ≠ 0 then skip 4
  let data ← readRaw (← get remaining)
  if xmlFlag &&& tnsXmlTypeString ≠ 0 then
    .text <$> lift (types.decodeOracleText data csFormImplicit)
  else if xmlFlag &&& tnsXmlTypeLob ≠ 0 then return .lob data
  else
    fail (.other ("unexpected Oracle XMLTYPE flag 0x" ++ String.ofList (Nat.toDigits 16 xmlFlag)))

def decodeXmltypePayload (bytes : Bytes) : Except OracleThinError OracleValue :=
  (types.readXmltypePayload (withCapabilities bytes types.capabilities)).1

/-- The arms of `read_object_attr_value` that read the bytes of one scalar value. -/
def decodeScalar (attr : ThinColumn) : Option (Bytes → Except OracleThinError OracleValue) :=
  let num := attr.oraTypeNum
  if num = oraTypeNumNumber then some fun bytes => .number <$> decodeOracleNumber bytes
  else if num = tnsDataTypeBinaryInteger then
    some fun bytes => .number <$> decodeObjectBinaryInteger bytes
  else if num = oraTypeNumVarchar ∨ num = oraTypeNumChar ∨ num = oraTypeNumLong then
    some fun bytes => .text <$> types.decodeOracleText bytes attr.charsetForm
  else if num = oraTypeNumRaw ∨ num = oraTypeNumLongRaw then some fun bytes => .ok (.bytes bytes)
  else if num = oraTypeNumDate then
    some fun bytes => .dateTime <$> decodeOracleDatetime types.zones bytes
  else if num = oraTypeNumTimestamp ∨ num = oraTypeNumTimestampTz ∨ num = oraTypeNumTimestampLtz
  then some fun bytes => .timestamp <$> decodeOracleDatetime types.zones bytes
  else if num = oraTypeNumBinaryFloat then
    some fun bytes => .number <$> types.decodeOracleBinaryFloat bytes
  else if num = oraTypeNumBinaryDouble then
    some fun bytes => .number <$> types.decodeOracleBinaryDouble bytes
  else if num = oraTypeNumBoolean then some fun bytes => .ok (.boolean (bytes.any (· != 0)))
  else if num = oraTypeNumIntervalYm ∨ num = oraTypeNumIntervalYmDty then
    some fun bytes => .text <$> types.decodeOracleIntervalYmWithPrecision bytes attr.precision
  else if num = oraTypeNumIntervalDs ∨ num = oraTypeNumIntervalDsDty then
    some fun bytes =>
      .text <$> types.decodeOracleIntervalDsWithPrecision bytes attr.precision attr.scale
  else if num = oraTypeNumClob ∨ num = oraTypeNumBlob ∨ num = oraTypeNumBfile then
    some fun bytes => .ok (.lob bytes)
  else if num = oraTypeNumObject ∧ attr.columnType = .xml then
    some fun bytes => types.decodeXmltypePayload bytes
  else none

/-! ### The recursion -/

/-- The functions as they are called one level down. -/
structure Nested where
  readObjectAttrs : List ThinColumn → ObjectM OracleValue
  decodeObjectPayload : Bytes → ThinColumn → Except Stop OracleValue
  decodeCollectionPayload : Bytes → ThinColumn → Except Stop OracleValue

/-- A value with a length in front of it. -/
def readPickled (decode : Bytes → Except Stop OracleValue) : ObjectM OracleValue := do
  match ← plain readObjectPickleBytes with
  | none => return .null
  | some bytes => lift (decode bytes)

/-- An object inside an object: a marker, then its attributes. -/
def readInline (inner : Nested) (attrs : List ThinColumn) : ObjectM OracleValue := do
  let marker ← plain readU8
  if marker = tnsLegacyNullLengthIndicator then return .null
  else if marker ≠ 0 then
    modify fun c => { c with pos := c.pos - 1 }
    inner.readObjectAttrs attrs
  else inner.readObjectAttrs attrs

def readObjectAttrValue (inner : Nested) (attr : ThinColumn) (objectValuesAreWrapped : Bool) :
    ObjectM OracleValue :=
  if attr.nests then
    match types.collectionElementByType attr.key with
    | some element => readPickled fun bytes => inner.decodeCollectionPayload bytes element
    | none =>
      if objectValuesAreWrapped then
        readPickled fun bytes => inner.decodeObjectPayload bytes attr
      else
        match types.objectAttrsByType attr.key with
        | some attrs => readInline inner attrs
        | none => fail (.error (.other
            ("Oracle thin TTC cannot decode nested Oracle object " ++ attr.key.1 ++ "." ++
              attr.key.2 ++ " without type metadata")))
  else
    match types.decodeScalar attr with
    | some decode => readPickled fun bytes => (decode bytes).mapError Stop.error
    | none => fail (.error (.other
        ("Oracle thin TTC cannot decode Oracle object attribute " ++ attr.name ++ " type " ++
          toString attr.oraTypeNum)))

def readObjectAttrs (inner : Nested) :
    List ThinColumn → List (String × OracleValue) → ObjectM OracleValue
  | [], values => return .object values
  | attr :: attrs, values => do
      let value ← types.readObjectAttrValue inner attr false
      readObjectAttrs inner attrs (values ++ [(attr.name, value)])

/-- The loops over the elements of a collection. -/
def readElements {α : Type} (read : ObjectM α) : ℕ → List α → ObjectM (List α)
  | 0, values => return values
  | count + 1, values => do
      let value ← read
      readElements read count (values ++ [value])

def nestingError (kind : String) : Stop :=
  .error (.other ("Oracle " ++ kind ++ " nesting exceeds " ++ toString maxOracleValueNestingDepth ++
    " levels"))

def decodeObjectPayload (depth : ℕ) (readAttrs : List ThinColumn → ObjectM OracleValue)
    (bytes : Bytes) (column : ThinColumn) : Except Stop OracleValue :=
  if maxOracleValueNestingDepth < depth then .error (nestingError "object")
  else
    match types.objectAttrsByType column.key with
    | none => .error (.error (.other ("Oracle thin TTC cannot decode Oracle object " ++
        column.key.1 ++ "." ++ column.key.2 ++ " without type metadata")))
    | some attrs =>
      ((plain readImageHeader >>= fun _ => readAttrs attrs)
        (withCapabilities bytes types.capabilities)).1

/-- The elements of a collection, behind its header. -/
def readCollection (readElement : ObjectM OracleValue) : ObjectM OracleValue := do
  let collectionFlags ← plain readU8
  let numElements ← plain readPickleLength
  if collectionFlags &&& tnsObjHasIndexes ≠ 0 then
    let readEntry : ObjectM (ℤ × OracleValue) := do
      let index ← plain readObjectCollectionIndex
      let value ← readElement
      return (index, value)
    let values ← readElements readEntry numElements []
    return .indexedArray values
  else
    let values ← readElements readElement numElements []
    return .array values

def decodeCollectionPayload (depth : ℕ) (readElement : ThinColumn → ObjectM OracleValue)
    (bytes : Bytes) (element : ThinColumn) : Except Stop OracleValue :=
  if maxOracleValueNestingDepth < depth then .error (nestingError "collection")
  else
    ((plain readImageHeader >>= fun _ => readCollection (readElement element))
      (withCapabilities bytes types.capabilities)).1

/-- The functions at a depth, with the levels they may still nest, this one included. -/
def nested : ℕ → ℕ → Nested
  | 0, depth =>
    { readObjectAttrs := fun _ => fail .outOfLevels
      decodeObjectPayload := types.decodeObjectPayload depth fun _ => fail .outOfLevels
      decodeCollectionPayload :=
        types.decodeCollectionPayload depth fun _ => fail .outOfLevels }
  | levels + 1, depth =>
    let inner := nested levels (depth + 1)
    { readObjectAttrs := fun attrs => types.readObjectAttrs inner attrs []
      decodeObjectPayload :=
        types.decodeObjectPayload depth fun attrs => types.readObjectAttrs inner attrs []
      decodeCollectionPayload :=
        types.decodeCollectionPayload depth fun element =>
          types.readObjectAttrValue inner element true }

/-- What is decoded at depth 0: an object of the type of a column, or a collection of elements. -/
inductive Root where
  | object (column : ThinColumn)
  | collection (element : ThinColumn)

/-- A payload decoded with the given levels. -/
def decode (levels : ℕ) (bytes : Bytes) : Root → Except Stop OracleValue
  | .object column => (types.nested levels 0).decodeObjectPayload bytes column
  | .collection element => (types.nested levels 0).decodeCollectionPayload bytes element

/-- Depth 0 and the depths up to the limit. -/
def levelLimit : ℕ := maxOracleValueNestingDepth + 1

/-! ### Where the types nest -/

/-- A place of the recursion: the attributes of an object, or the elements of a collection. -/
inductive Place where
  | attrs (attrs : List ThinColumn)
  | elements (element : ThinColumn)

/-- The place that a value of the column leads to, and whether the depth is checked on the way. -/
def nestedIn (column : ThinColumn) (wrapped : Bool) : Option (Place × Bool) :=
  if column.nests then
    match types.collectionElementByType column.key with
    | some element => some (.elements element, true)
    | none => (types.objectAttrsByType column.key).map fun attrs => (.attrs attrs, wrapped)
  else none

/-- An attribute that can be read, as a null at least. -/
def readable (attr : ThinColumn) : Bool :=
  if attr.nests then
    (types.collectionElementByType attr.key).isSome || (types.objectAttrsByType attr.key).isSome
  else (types.decodeScalar attr).isSome

/-- The attributes up to the first that cannot be read. -/
def reached : List ThinColumn → List ThinColumn
  | [] => []
  | attr :: attrs => attr :: if types.readable attr then reached attrs else []

/-- The places one level down. -/
def nestedPlaces : Place → List (Place × Bool)
  | .attrs attrs => (types.reached attrs).filterMap fun attr => types.nestedIn attr false
  | .elements element => (types.nestedIn element true).toList

/-- Some place the given number of levels down holds an object inside an object. -/
def nestsDeeper : ℕ → Place → Bool
  | 0, place => (types.nestedPlaces place).any fun next => !next.2
  | levels + 1, place => (types.nestedPlaces place).any fun next => nestsDeeper levels next.1

/-- The place at which decoding starts. -/
def Root.place (types : ObjectTypes) : Root → Option Place
  | .object column => (types.objectAttrsByType column.key).map .attrs
  | .collection element => some (.elements element)

/-! ### Values within the levels -/

/-- A computation that never runs out of levels. -/
def Stays {α : Type} (m : ObjectM α) : Prop := ∀ c, (m c).1 ≠ .error .outOfLevels

variable {inner : Nested}

namespace Stays

variable {α β : Type}

lemma pure (a : α) : Stays (Pure.pure a : ObjectM α) := fun _ h => by cases h

lemma fail (e : OracleThinError) : Stays (fail (.error e) : ObjectM α) := fun _ h => by cases h

lemma lift {r : Except Stop α} (h : r ≠ .error .outOfLevels) : Stays (lift r) := fun _ => h

lemma plain (m : CursorM α) : Stays (plain m) := by
  intro c h
  rw [Thin.plain, mapError] at h
  cases hm : (m c).1 with
  | error e | ok a =>
    rw [hm] at h
    cases h

lemma bind {m : ObjectM α} {f : α → ObjectM β} (hm : Stays m) (hf : ∀ a, Stays (f a)) :
    Stays (m >>= f) := by
  intro c
  have hstay := hm c
  rcases hmc : m c with ⟨e | a, c'⟩
  · rw [bind_error hmc]
    rw [hmc] at hstay
    intro h
    exact hstay (congrArg Except.error (Except.error.inj h))
  · rw [bind_ok hmc]
    exact hf a c'

lemma readElements {read : ObjectM α} (h : Stays read) (count : ℕ) (values : List α) :
    Stays (readElements read count values) := by
  induction count generalizing values with
  | zero => exact pure values
  | succ count ih => exact h.bind fun value => ih _

lemma readPickled {decode : Bytes → Except Stop OracleValue}
    (h : ∀ bytes, decode bytes ≠ .error .outOfLevels) : Stays (readPickled decode) := by
  refine (plain _).bind fun value => ?_
  cases value with
  | none => exact pure _
  | some bytes => exact lift (h bytes)

lemma readInline {attrs : List ThinColumn}
    (h : Stays (inner.readObjectAttrs attrs)) : Stays (readInline inner attrs) := by
  refine (plain _).bind fun marker => ?_
  split_ifs
  · exact pure _
  · exact bind (fun c hc => by cases hc) fun _ => h
  · exact h

lemma readCollection {readElement : ObjectM OracleValue} (h : Stays readElement) :
    Stays (readCollection readElement) := by
  refine (plain _).bind fun flags => (plain _).bind fun count => ?_
  split_ifs
  · refine (readElements ?_ count []).bind fun values => pure _
    exact (plain _).bind fun index => h.bind fun value => pure _
  · exact (h.readElements count []).bind fun values => pure _

end Stays

variable {types : ObjectTypes} {levels depth : ℕ}

lemma nested_decodeObjectPayload (types : ObjectTypes) (levels depth : ℕ) :
    (types.nested levels depth).decodeObjectPayload
      = types.decodeObjectPayload depth (types.nested levels depth).readObjectAttrs := by
  cases levels with
  | zero => rfl
  | succ levels => rfl

lemma nested_decodeCollectionPayload (types : ObjectTypes) (levels depth : ℕ) :
    (types.nested (levels + 1) depth).decodeCollectionPayload
      = types.decodeCollectionPayload depth fun element =>
          types.readObjectAttrValue (types.nested levels (depth + 1)) element true := rfl

lemma nested_zero_decodeCollectionPayload (types : ObjectTypes) (depth : ℕ) :
    (types.nested 0 depth).decodeCollectionPayload
      = types.decodeCollectionPayload depth fun _ => fail .outOfLevels := rfl

lemma decodeObjectPayload_stays {readAttrs : List ThinColumn → ObjectM OracleValue}
    {column : ThinColumn} (h : ∀ attrs, types.objectAttrsByType column.key = some attrs →
      Stays (readAttrs attrs) ∨ maxOracleValueNestingDepth < depth) (bytes : Bytes) :
    types.decodeObjectPayload depth readAttrs bytes column ≠ .error .outOfLevels := by
  rw [decodeObjectPayload]
  split_ifs with hdepth
  · intro hstop
    cases hstop
  · cases hattrs : types.objectAttrsByType column.key with
    | none =>
      intro hstop
      cases hstop
    | some attrs =>
      have hstays := (h attrs hattrs).resolve_right hdepth
      exact ((Stays.plain _).bind fun _ => hstays) _

lemma decodeCollectionPayload_stays {readElement : ThinColumn → ObjectM OracleValue}
    {element : ThinColumn} (h : Stays (readElement element)) (bytes : Bytes) :
    types.decodeCollectionPayload depth readElement bytes element ≠ .error .outOfLevels := by
  rw [decodeCollectionPayload]
  split_ifs with hdepth
  · intro hstop
    cases hstop
  · exact ((Stays.plain _).bind fun _ => h.readCollection) _

/-- The functions at a depth stay within their levels at a place, or the depth is checked on the
way and above the limit. -/
def StaysAt (types : ObjectTypes) (levels depth : ℕ) : Place × Bool → Prop
  | (.attrs attrs, checked) => Stays ((types.nested levels depth).readObjectAttrs attrs) ∨
      checked = true ∧ maxOracleValueNestingDepth < depth
  | (.elements element, _) => ∀ bytes,
      (types.nested levels depth).decodeCollectionPayload bytes element ≠ .error .outOfLevels

variable {attr : ThinColumn}

/-- A value stays within the levels if the place it leads to does. -/
lemma readObjectAttrValue_stays {wrapped : Bool}
    (h : ∀ next ∈ types.nestedIn attr wrapped, types.StaysAt levels depth next) :
    Stays (types.readObjectAttrValue (types.nested levels depth) attr wrapped) := by
  rw [readObjectAttrValue]
  rw [nestedIn] at h
  by_cases hnests : attr.nests
  · rw [if_pos hnests] at h ⊢
    cases helement : types.collectionElementByType attr.key with
    | some element =>
      rw [helement] at h
      exact Stays.readPickled (h _ rfl)
    | none =>
      rw [helement] at h
      cases wrapped with
      | true =>
        rw [nested_decodeObjectPayload]
        refine Stays.readPickled (decodeObjectPayload_stays fun attrs hattrs => ?_)
        rw [hattrs] at h
        exact (h _ rfl).imp_right And.right
      | false =>
        cases hattrs : types.objectAttrsByType attr.key with
        | none => exact Stays.fail _
        | some attrs =>
          rw [hattrs] at h
          have hstays := (h _ rfl).resolve_right fun hchecked => by cases hchecked.1
          exact hstays.readInline
  · rw [if_neg hnests]
    cases hscalar : types.decodeScalar attr with
    | none => exact Stays.fail _
    | some decode =>
      refine Stays.readPickled fun bytes hstop => ?_
      cases hdecode : decode bytes with
      | error e | ok value =>
        rw [hdecode] at hstop
        cases hstop

/-- An attribute that cannot be read ends the object. -/
lemma readObjectAttrValue_error (h : types.readable attr = false)
    (inner : Nested) (c : PacketCursor) :
    ∃ e, types.readObjectAttrValue inner attr false c = (.error (.error e), c) := by
  rw [readable] at h
  rw [readObjectAttrValue]
  by_cases hnests : attr.nests
  · rw [if_pos hnests] at h ⊢
    rw [Bool.or_eq_false_iff, isSome_eq_false_iff, isSome_eq_false_iff,
      isNone_iff_eq_none, isNone_iff_eq_none] at h
    rw [h.1, h.2]
    exact ⟨_, rfl⟩
  · rw [if_neg hnests] at h ⊢
    rw [isSome_eq_false_iff, isNone_iff_eq_none] at h
    rw [h]
    exact ⟨_, rfl⟩

variable {attrs : List ThinColumn} {big : Bool} {bytes : Bytes}

/-- The attributes of an object stay within the levels if those that are reached do. -/
lemma readObjectAttrs_stays
    (h : ∀ attr ∈ types.reached attrs, Stays (types.readObjectAttrValue inner attr false))
    (values : List (String × OracleValue)) : Stays (types.readObjectAttrs inner attrs values) := by
  induction attrs generalizing values with
  | nil => exact Stays.pure _
  | cons attr attrs ih =>
    rw [reached, forall_mem_cons] at h
    rw [readObjectAttrs]
    cases hreadable : types.readable attr with
    | true =>
      rw [hreadable] at h
      exact h.1.bind fun value => ih h.2 _
    | false =>
      intro c hstop
      obtain ⟨e, he⟩ := readObjectAttrValue_error hreadable inner c
      rw [bind_error he] at hstop
      cases hstop

variable {place : Place}

/-- A place stays within the levels if the places one level down do. -/
lemma staysAt_succ (h : ∀ next ∈ types.nestedPlaces place, types.StaysAt levels (depth + 1) next)
    (checked : Bool) : types.StaysAt (levels + 1) depth (place, checked) := by
  cases place with
  | attrs attrs =>
    refine .inl (readObjectAttrs_stays (fun attr hattr => ?_) [])
    refine readObjectAttrValue_stays fun next hnext => h next ?_
    exact mem_filterMap.mpr ⟨attr, hattr, hnext⟩
  | elements element =>
    intro bytes
    rw [nested_decodeCollectionPayload]
    have hval : Stays (types.readObjectAttrValue (types.nested levels (depth + 1)) element true) :=
      readObjectAttrValue_stays fun next hnext => h next (mem_toList.mpr hnext)
    exact decodeCollectionPayload_stays hval bytes

/-- **Types that do not nest deeper keep every value within the levels.** -/
theorem nested_stays (hdepth : depth + levels = maxOracleValueNestingDepth)
    (h : types.nestsDeeper levels place = false) (checked : Bool) :
    types.StaysAt (levels + 1) depth (place, checked) := by
  induction levels generalizing depth place checked with
  | zero =>
    -- one level down the depth is above the limit, and it is checked on every way there
    have habove : maxOracleValueNestingDepth < depth + 1 := by omega
    rw [nestsDeeper, any_eq_false] at h
    refine staysAt_succ (fun next hnext => ?_) checked
    obtain ⟨nextPlace, nextChecked⟩ := next
    have hchecked : nextChecked := by simpa using h _ hnext
    cases nextPlace with
    | attrs attrs => exact .inr ⟨hchecked, habove⟩
    | elements element =>
      intro bytes hstop
      rw [nested_zero_decodeCollectionPayload, decodeCollectionPayload, if_pos habove] at hstop
      cases hstop
  | succ levels ih =>
    rw [nestsDeeper, any_eq_false] at h
    refine staysAt_succ (fun next hnext => ?_) checked
    exact ih (by omega) (by simpa using h next hnext) next.2

/-! ### Payloads that run out of levels -/

/-- A computation that returns the value of some bytes and leaves the cursor behind them. -/
def Reads {α : Type} (m : ObjectM α) (bytes : Bytes) (value : α) : Prop :=
  ∀ (c : PacketCursor) (rest : Bytes), c.available = bytes ++ rest →
    ∃ c', m c = (.ok value, c') ∧ c'.available = rest

/-- A computation that runs out of levels on some bytes. -/
def Overruns {α : Type} (m : ObjectM α) (bytes : Bytes) : Prop :=
  ∀ (c : PacketCursor) (rest : Bytes), c.available = bytes ++ rest → (m c).1 = .error .outOfLevels

section

variable {α β : Type} {bytes' : Bytes}

lemma Reads.plain {m : CursorM α} {value : α} (h : ∀ big, Yields big m bytes value) :
    Reads (plain m) bytes value := by
  intro c rest hc
  obtain ⟨c', hrun, hrest, -⟩ := h c.bigClrChunks c rest rfl hc
  refine ⟨c', ?_, hrest⟩
  rw [Thin.plain, mapError, hrun]
  rfl

lemma Reads.pure (a : α) : Reads (Pure.pure a) [] a := fun c _ h => ⟨c, rfl, h⟩

variable {f : α → ObjectM β} {m : ObjectM α}

lemma Reads.bind {a : α} {b : β} (hm : Reads m bytes a) (hf : Reads (f a) bytes' b) :
    Reads (m >>= f) (bytes ++ bytes') b := by
  intro c rest hc
  rw [append_assoc] at hc
  obtain ⟨c₁, hrun, hrest⟩ := hm c _ hc
  rw [bind_ok hrun]
  exact hf c₁ rest hrest

lemma Reads.bind_nil {a : α} {b : β} (hm : Reads m bytes a) (hf : Reads (f a) [] b) :
    Reads (m >>= f) bytes b := by
  simpa using hm.bind hf

lemma Reads.overruns {a : α} (hm : Reads m bytes a) (hf : Overruns (f a) bytes') :
    Overruns (m >>= f) (bytes ++ bytes') := by
  intro c rest hc
  rw [append_assoc] at hc
  obtain ⟨c₁, hrun, hrest⟩ := hm c _ hc
  rw [bind_ok hrun]
  exact hf c₁ rest hrest

lemma Reads.overruns_nil {a : α} (hm : Reads m bytes a) (hf : Overruns (f a) []) :
    Overruns (m >>= f) bytes := by
  simpa using hm.overruns hf

lemma Overruns.bind (h : Overruns m bytes) (f : α → ObjectM β) : Overruns (m >>= f) bytes := by
  intro c rest hc
  have hstop := h c rest hc
  rcases hmc : m c with ⟨e | a, c'⟩
  · rw [hmc] at hstop
    rw [bind_error hmc]
    exact congrArg Except.error (Except.error.inj hstop)
  · rw [hmc] at hstop
    cases hstop

end

open Yields

lemma readU32Be_yields {n : ℕ} (hn : n < 2 ^ 32) : Yields big readU32Be (beBytes 4 n) n := by
  have hread : Yields big (readRaw (beBytes 4 n).length) (beBytes 4 n) (beBytes 4 n) :=
    readRaw_yields _
  refine hread.bind_nil ?_
  rw [ByteFields.beValue_beBytes hn]
  exact pure n

lemma readPickleLength_yields {len : UInt8} (h : len ≠ tnsLongLengthIndicator) :
    Yields big readPickleLength [len] len.toNat := by
  refine (readU8_yields len).bind_nil ?_
  rw [if_neg h]
  exact pure _

lemma readObjectPickleBytes_null : Yields big readObjectPickleBytes [0] none :=
  (readU8_yields 0).bind_nil (pure none)

/-- A value behind a length of four bytes. -/
lemma readObjectPickleBytes_yields (h : bytes.length < 2 ^ 32) : Yields big readObjectPickleBytes
      ([tnsLongLengthIndicator] ++ (beBytes 4 bytes.length ++ bytes)) (some bytes) := by
  refine (readU8_yields _).bind ?_
  refine get fun c rest hbig hc => ?_
  refine ((readU32Be_yields h).bind ?_) c rest hbig hc
  exact (readRaw_yields bytes).bind_nil (pure _)

lemma readImageHeader_yields :
    Yields big readImageHeader ([tnsObjNoPrefixSeg] ++ ([1] ++ [0])) () := by
  refine (readU8_yields _).bind ((readU8_yields 1).bind ?_)
  exact (readPickleLength_yields (by decide)).bind_nil (pure ())

lemma readPickled_null (decode : Bytes → Except Stop OracleValue) :
    Reads (readPickled decode) [0] .null :=
  (Reads.plain fun _ => readObjectPickleBytes_null).bind_nil (Reads.pure _)

lemma readPickled_overruns {decode : Bytes → Except Stop OracleValue}
    (hdecode : decode bytes = .error .outOfLevels) (h : bytes.length < 2 ^ 32) :
    Overruns (readPickled decode)
      ([tnsLongLengthIndicator] ++ (beBytes 4 bytes.length ++ bytes)) := by
  refine (Reads.plain fun _ => readObjectPickleBytes_yields h).overruns_nil ?_
  intro c rest hc
  exact hdecode

lemma readInline_null (inner : Nested) (attrs : List ThinColumn) :
    Reads (readInline inner attrs) [tnsLegacyNullLengthIndicator] .null :=
  (Reads.plain fun _ => readU8_yields _).bind_nil (Reads.pure _)

lemma readInline_overruns (h : Overruns (inner.readObjectAttrs attrs) bytes) :
    Overruns (readInline inner attrs) ([0] ++ bytes) :=
  (Reads.plain fun _ => readU8_yields 0).overruns h

lemma decodeObjectPayload_overruns {readAttrs : List ThinColumn → ObjectM OracleValue}
    {column : ThinColumn} (hdepth : depth ≤ maxOracleValueNestingDepth)
    (hattrs : types.objectAttrsByType column.key = some attrs)
    (h : Overruns (readAttrs attrs) bytes) :
    types.decodeObjectPayload depth readAttrs ([tnsObjNoPrefixSeg] ++ ([1] ++ [0]) ++ bytes) column
      = .error .outOfLevels := by
  rw [decodeObjectPayload, if_neg (not_lt.mpr hdepth), hattrs]
  refine (Reads.plain fun _ => readImageHeader_yields).overruns h _ [] ?_
  rfl

lemma decodeCollectionPayload_overruns {readElement : ThinColumn → ObjectM OracleValue}
    {element : ThinColumn} (hdepth : depth ≤ maxOracleValueNestingDepth)
    (h : Overruns (readElement element) bytes) :
    types.decodeCollectionPayload depth readElement
      ([tnsObjNoPrefixSeg] ++ ([1] ++ [0]) ++ ([0] ++ ([1] ++ bytes))) element
      = .error .outOfLevels := by
  rw [decodeCollectionPayload, if_neg (not_lt.mpr hdepth)]
  have hcollection : Overruns (readCollection (readElement element)) ([0] ++ ([1] ++ bytes)) := by
    refine (Reads.plain fun _ => readU8_yields 0).overruns ?_
    refine (Reads.plain fun _ => readPickleLength_yields (by decide)).overruns ?_
    exact (h.bind _).bind _
  refine (Reads.plain fun _ => readImageHeader_yields).overruns hcollection _ [] ?_
  rfl

/-- The functions at a depth run out of levels at a place, on a payload of limited length. -/
def OverrunsAt (types : ObjectTypes) (levels depth limit : ℕ) : Place → Prop
  | .attrs attrs => ∃ bytes : Bytes, bytes.length ≤ limit ∧
      Overruns ((types.nested levels depth).readObjectAttrs attrs) bytes
  | .elements element => ∃ bytes : Bytes, bytes.length ≤ limit ∧
      (types.nested levels depth).decodeCollectionPayload bytes element = .error .outOfLevels

variable {next : Place × Bool}

/-- A value runs out of levels if the place it leads to does. -/
lemma readObjectAttrValue_overruns {limit : ℕ} {wrapped : Bool}
    (hnext : types.nestedIn attr wrapped = some next)
    (h : types.OverrunsAt levels depth limit next.1)
    (hdepth : next.2 → depth ≤ maxOracleValueNestingDepth) (hlimit : limit + 3 < 2 ^ 32) :
    ∃ bytes : Bytes, bytes.length ≤ limit + 8 ∧
      Overruns (types.readObjectAttrValue (types.nested levels depth) attr wrapped) bytes := by
  rw [nestedIn] at hnext
  split_ifs at hnext with hnests
  rw [readObjectAttrValue, if_pos hnests]
  cases helement : types.collectionElementByType attr.key with
  | some element =>
    rw [helement] at hnext
    cases hnext
    obtain ⟨bytes, hlen, hdecode⟩ := h
    refine ⟨_, ?_, readPickled_overruns hdecode (by omega)⟩
    simp only [length_append, length_singleton, ByteFields.beBytes_length]
    omega
  | none =>
    rw [helement] at hnext
    obtain ⟨attrs, hattrs, rfl⟩ := map_eq_some_iff.mp hnext
    obtain ⟨bytes, hlen, hattrsRead⟩ := h
    cases wrapped with
    | true =>
      have hdecode := decodeObjectPayload_overruns (hdepth rfl) hattrs hattrsRead
      rw [← nested_decodeObjectPayload] at hdecode
      refine ⟨_, ?_, readPickled_overruns hdecode ?_⟩
      · simp only [length_append, length_singleton, ByteFields.beBytes_length]
        omega
      · simp only [length_append, length_singleton]
        omega
    | false =>
      rw [hattrs]
      refine ⟨_, ?_, readInline_overruns hattrsRead⟩
      simp only [length_append, length_singleton]
      omega

/-- An attribute that can be read can be read as a null. -/
lemma readObjectAttrValue_null (h : types.readable attr) (inner : Nested) :
    ∃ byte, Reads (types.readObjectAttrValue inner attr false) [byte] .null := by
  rw [readable] at h
  rw [readObjectAttrValue]
  by_cases hnests : attr.nests
  · rw [if_pos hnests] at h ⊢
    cases helement : types.collectionElementByType attr.key with
    | some element => exact ⟨_, readPickled_null _⟩
    | none =>
      rw [helement, isSome_none, Bool.false_or, isSome_iff_exists] at h
      obtain ⟨attrs, hattrs⟩ := h
      rw [hattrs]
      exact ⟨_, readInline_null inner attrs⟩
  · rw [if_neg hnests] at h ⊢
    obtain ⟨decode, hdecode⟩ := isSome_iff_exists.mp h
    rw [hdecode]
    exact ⟨_, readPickled_null _⟩

/-- The attributes before one that is reached are read as nulls. -/
lemma readObjectAttrs_overruns (hattr : attr ∈ types.reached attrs)
    (h : Overruns (types.readObjectAttrValue inner attr false) bytes)
    (values : List (String × OracleValue)) :
    ∃ bytes' : Bytes, bytes'.length ≤ attrs.length + bytes.length ∧
      Overruns (types.readObjectAttrs inner attrs values) bytes' := by
  induction attrs generalizing values with
  | nil => exact absurd hattr not_mem_nil
  | cons first attrs ih =>
    obtain rfl | hattr := mem_cons.mp hattr
    · exact ⟨bytes, Nat.le_add_left _ _, h.bind _⟩
    · split_ifs at hattr with hreadable
      · obtain ⟨byte, hnull⟩ := readObjectAttrValue_null hreadable inner
        obtain ⟨bytes', hlen, hrest⟩ := ih hattr (values ++ [(first.name, .null)])
        refine ⟨[byte] ++ bytes', ?_, hnull.overruns hrest⟩
        rw [length_append, length_singleton, length_cons]
        omega
      · exact absurd hattr not_mem_nil

/-- The attributes of a place are at most so many. -/
def Place.Small (count : ℕ) : Place → Prop
  | .attrs columns => columns.length ≤ count
  | .elements _ => True

/-- A place runs out of levels if a place one level down does. -/
lemma overrunsAt_succ {limit count : ℕ} (hnext : next ∈ types.nestedPlaces place)
    (h : types.OverrunsAt levels (depth + 1) limit next.1)
    (hchecked : next.2 → depth + 1 ≤ maxOracleValueNestingDepth)
    (hdepth : depth ≤ maxOracleValueNestingDepth) (hlimit : limit + 3 < 2 ^ 32)
    (hsmall : place.Small count) :
    types.OverrunsAt (levels + 1) depth (limit + (count + 13)) place := by
  cases place with
  | attrs attrs =>
    obtain ⟨attr, hattr, hin⟩ := mem_filterMap.mp hnext
    obtain ⟨bytes, hlen, hval⟩ := readObjectAttrValue_overruns hin h hchecked hlimit
    obtain ⟨bytes', hlen', hattrs⟩ := readObjectAttrs_overruns hattr hval []
    have hcnt : attrs.length ≤ count := hsmall
    exact ⟨bytes', by omega, hattrs⟩
  | elements element =>
    have hin := mem_toList.mp hnext
    obtain ⟨bytes, hlen, hval⟩ := readObjectAttrValue_overruns hin h hchecked hlimit
    rw [OverrunsAt, nested_decodeCollectionPayload]
    refine ⟨_, ?_, decodeCollectionPayload_overruns hdepth hval⟩
    simp only [length_append, length_singleton]
    omega

/-- What a place one level down is: elements behind a check, or the attributes of a type. -/
lemma nestedPlaces_cases (hnext : next ∈ types.nestedPlaces place) :
    (∃ element, next = (.elements element, true)) ∨
      ∃ key attrs checked, types.objectAttrsByType key = some attrs ∧
        next = (.attrs attrs, checked) := by
  have hin : ∃ column wrapped, types.nestedIn column wrapped = some next := by
    cases place with
    | attrs attrs =>
      obtain ⟨attr, -, hin⟩ := mem_filterMap.mp hnext
      exact ⟨attr, false, hin⟩
    | elements element => exact ⟨element, true, mem_toList.mp hnext⟩
  obtain ⟨column, wrapped, hin⟩ := hin
  rw [nestedIn] at hin
  split_ifs at hin
  cases helement : types.collectionElementByType column.key with
  | some element =>
    rw [helement] at hin
    exact .inl ⟨element, (some.inj hin).symm⟩
  | none =>
    rw [helement] at hin
    obtain ⟨attrs, hattrs, heq⟩ := map_eq_some_iff.mp hin
    exact .inr ⟨column.key, attrs, wrapped, hattrs, heq.symm⟩

/-- **Types that nest deeper have a payload that runs out of levels.** -/
theorem nested_overruns {count : ℕ} (hcnt : count ≤ 2 ^ 24)
    (hsmall : ∀ key attrs, types.objectAttrsByType key = some attrs → attrs.length ≤ count)
    (hdepth : depth + levels = maxOracleValueNestingDepth) (place : Place)
    (hplace : place.Small count) (h : types.nestsDeeper levels place) :
    types.OverrunsAt (levels + 1) depth ((levels + 1) * (count + 13)) place := by
  have hbound : levels * (count + 13) + 3 < 2 ^ 32 := by
    have hlevels : levels ≤ 128 := by
      rw [maxOracleValueNestingDepth] at hdepth
      omega
    calc levels * (count + 13) + 3 ≤ 128 * (2 ^ 24 + 13) + 3 := by gcongr
      _ < 2 ^ 32 := by norm_num
  induction levels generalizing depth place with
  | zero =>
    -- the attributes of an object inside an object are read one level too deep
    rw [nestsDeeper, any_eq_true] at h
    obtain ⟨next, hnext, hunchecked⟩ := h
    rcases nestedPlaces_cases hnext with ⟨element, rfl⟩ | ⟨key, attrs, checked, -, rfl⟩
    · cases hunchecked
    · have hover : types.OverrunsAt 0 (depth + 1) 0 (.attrs attrs) :=
        ⟨[], le_rfl, fun _ _ _ => rfl⟩
      have hsucc := overrunsAt_succ hnext hover
        (fun hchecked => by rw [hchecked] at hunchecked; cases hunchecked) (by omega) (by omega)
        hplace
      simpa using hsucc
  | succ levels ih =>
    rw [nestsDeeper, any_eq_true] at h
    obtain ⟨next, hnext, hdeeper⟩ := h
    have hnextSmall : next.1.Small count := by
      rcases nestedPlaces_cases hnext with ⟨element, rfl⟩ | ⟨key, attrs, checked, hattrs, rfl⟩
      · trivial
      · exact hsmall key attrs hattrs
    have hover :
        types.OverrunsAt (levels + 1) (depth + 1) ((levels + 1) * (count + 13)) next.1 := by
      refine ih (by omega) next.1 hnextSmall hdeeper ?_
      rw [Nat.succ_mul] at hbound
      omega
    have hsucc := overrunsAt_succ hnext hover (fun _ => by omega) (by omega) hbound hplace
    rwa [← Nat.succ_mul] at hsucc

/-! ### The limit -/

/-- No object inside an object lies below the limit. -/
def KeepsLimit (types : ObjectTypes) (root : Root) : Prop :=
  ∀ place ∈ root.place types, types.nestsDeeper maxOracleValueNestingDepth place = false

/-- **Types without an object inside an object below the limit keep every payload within it; the
others have a payload that nests deeper**, as long as no type has so many attributes that the nulls
before the object do not fit the length of a payload. -/
theorem decode_within_levels_iff (types : ObjectTypes) (root : Root) :
    (types.KeepsLimit root → ∀ bytes, types.decode levelLimit bytes root ≠ .error .outOfLevels) ∧
      ((∀ key attrs, types.objectAttrsByType key = some attrs → attrs.length ≤ 2 ^ 24) →
        (∀ bytes, types.decode levelLimit bytes root ≠ .error .outOfLevels) →
          types.KeepsLimit root) := by
  have hdepth : 0 + maxOracleValueNestingDepth = maxOracleValueNestingDepth := zero_add _
  constructor
  · intro hkeeps bytes
    cases root with
    | object column =>
      rw [decode, nested_decodeObjectPayload]
      refine decodeObjectPayload_stays (fun attrs hattrs => .inl ?_) bytes
      have hplace : Place.attrs attrs ∈ (Root.object column).place types := by
        rw [Root.place, hattrs]
        rfl
      have hstays := nested_stays hdepth (hkeeps _ hplace) false
      exact hstays.resolve_right fun hchecked => by cases hchecked.1
    | collection element => exact nested_stays hdepth (hkeeps _ rfl) true bytes
  · intro hsmall hwithin place hplace
    by_contra hdeeper
    rw [Bool.not_eq_false] at hdeeper
    cases root with
    | object column =>
      obtain ⟨attrs, hattrs, rfl⟩ := map_eq_some_iff.mp hplace
      obtain ⟨bytes, -, hover⟩ :=
        nested_overruns le_rfl hsmall hdepth (.attrs attrs) (hsmall _ _ hattrs) hdeeper
      have hdecode := decodeObjectPayload_overruns (Nat.zero_le _) hattrs hover
      exact hwithin _ hdecode
    | collection element =>
      cases hplace
      obtain ⟨bytes, -, hover⟩ :=
        nested_overruns le_rfl hsmall hdepth (.elements element) trivial hdeeper
      exact hwithin bytes hover

/-- An attribute that refers to its own type. -/
def nodeColumn : ThinColumn where
  name := "NEXT"
  columnType := .object
  precision := 0
  scale := 0
  oraTypeNum := oraTypeNumObject
  charsetForm := 0
  bufferSize := 0
  jsonEncoding := .none
  schemaName := "APP"
  typeName := "NODE_T"

def nodeTypes : ObjectTypes where
  objectAttrsByType key := if key = ("APP", "NODE_T") then some [nodeColumn] else none
  collectionElementByType _ := none
  capabilities := ⟨true, some 319⟩
  zones := ⟨fun _ _ => none, fun _ _ => none⟩
  decodeOracleText _ _ := .ok ""
  decodeOracleBinaryFloat _ := .ok ""
  decodeOracleBinaryDouble _ := .ok ""
  decodeOracleIntervalYmWithPrecision _ _ := .ok ""
  decodeOracleIntervalDsWithPrecision _ _ _ := .ok ""

/-- An object header, and a byte that is no marker of a null. -/
def nodePayload : Bytes := [0x04, 1, 0, 1]

/-- The byte is read and put back at every level. -/
lemma nodeTypes_readObjectAttrs (levels depth : ℕ) :
    ((nodeTypes.nested levels depth).readObjectAttrs [nodeColumn]
      { withCapabilities nodePayload nodeTypes.capabilities with pos := 3 }).1
      = .error .outOfLevels := by
  induction levels generalizing depth with
  | zero => rfl
  | succ levels ih =>
    have hval : nodeTypes.readObjectAttrValue (nodeTypes.nested levels (depth + 1)) nodeColumn false
          = readInline (nodeTypes.nested levels (depth + 1)) [nodeColumn] := by
      rfl
    have hinline : readInline (nodeTypes.nested levels (depth + 1)) [nodeColumn]
        { withCapabilities nodePayload nodeTypes.capabilities with pos := 3 }
        = (nodeTypes.nested levels (depth + 1)).readObjectAttrs [nodeColumn]
          { withCapabilities nodePayload nodeTypes.capabilities with pos := 3 } := rfl
    have hstop := ih (depth + 1)
    rw [← hinline, ← hval] at hstop
    change ((nodeTypes.readObjectAttrValue (nodeTypes.nested levels (depth + 1)) nodeColumn false
      >>= fun value => _) _).1 = _
    rw [bind_apply]
    split
    · next heq => rw [heq] at hstop; cases hstop
    · next heq => rw [heq] at hstop; exact congrArg Except.error (Except.error.inj hstop)

/-- The payload of a few bytes is never decoded, however deep the recursion may go. -/
theorem nodePayload_never_decoded :
    nodeTypes.decode levelLimit nodePayload (.object nodeColumn) = .error .outOfLevels ∧
      ∀ levels, nodeTypes.decode levels nodePayload (.object nodeColumn) = .error .outOfLevels := by
  have hnever : ∀ levels, nodeTypes.decode levels nodePayload (.object nodeColumn)
      = .error .outOfLevels := by
    intro levels
    rw [decode, nested_decodeObjectPayload]
    exact nodeTypes_readObjectAttrs levels 0
  exact ⟨hnever levelLimit, hnever⟩

end ObjectTypes

end SpaceQuery.Thin
