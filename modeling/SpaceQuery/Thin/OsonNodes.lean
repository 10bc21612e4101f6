import SpaceQuery.Thin.OsonDecoder

/-!
The nodes of an OSON tree are decoded as they were encoded.
-/

namespace SpaceQuery.Thin

open UInt8 Except List RustText ByteFields Comp

/-! ### The text of a value -/

namespace Json

/-- The induction principle of the nested inductive: a property holds of every value
once it is inherited from the children. -/
@[elab_as_elim]
theorem ind {P : Json → Prop} (null : P .null) (bool : ∀ b, P (.bool b))
    (number : ∀ text, P (.number text)) (string : ∀ value, P (.string value))
    (array : ∀ values : List Json, (∀ v ∈ values, P v) → P (.array values))
    (object : ∀ values : List (String × Json), (∀ m ∈ values, P m.2) → P (.object values))
    (v : Json) : P v :=
  @Json.rec P (fun values => ∀ v ∈ values, P v) (fun values => ∀ m ∈ values, P m.2)
    (fun m => P m.2) null bool number string array object nofun
    (fun _ _ hhead htail => forall_mem_cons.2 ⟨hhead, htail⟩) nofun
    (fun _ _ hhead htail => forall_mem_cons.2 ⟨hhead, htail⟩) (fun _ _ h => h) v

mutual

/-- The nesting depth of a value: the depth of its deepest node, the value itself being
at depth 0. -/
def depth : Json → ℕ
  | .array values => depthOfItems values
  | .object values => depthOfMembers values
  | _ => 0

def depthOfItems : List Json → ℕ
  | [] => 0
  | value :: rest => max (depth value + 1) (depthOfItems rest)

def depthOfMembers : List (String × Json) → ℕ
  | [] => 0
  | (_, value) :: rest => max (depth value + 1) (depthOfMembers rest)

end

/-- The canonical text of a number, as it comes back from the Oracle NUMBER format. -/
def numberText (text : String) : Except OracleThinError String := do
  decodeOracleNumber (← encodeOracleNumber text)

mutual

/-- The compact JSON text of a value. -/
def render : Json → Except OracleThinError String
  | .null => .ok "null"
  | .bool true => .ok "true"
  | .bool false => .ok "false"
  | .number text => numberText text
  | .string value => .ok (jsonQuote value)
  | .array values => do
      return "[" ++ String.intercalate "," (← renderItems values) ++ "]"
  | .object values => do
      return "\x7b" ++ String.intercalate "," (← renderMembers values) ++ "\x7d"

def renderItems : List Json → Except OracleThinError (List String)
  | [] => .ok []
  | value :: rest => do
      return (← render value) :: (← renderItems rest)

def renderMembers : List (String × Json) → Except OracleThinError (List String)
  | [] => .ok []
  | (name, value) :: rest => do
      return (jsonQuote name ++ ":" ++ (← render value)) :: (← renderMembers rest)

end

end Json

/-! ### Reads that consume bytes -/

namespace OsonDecoder

variable {α β : Type}

/-- In every document that holds the bytes at its position, the read returns the value
and moves behind the bytes. -/
def Consumes (m : OsonM α) (bytes : Bytes) (a : α) : Prop :=
  ∀ d : OsonDecoder, At d.data d.pos bytes → m d = (.ok a, { d with pos := d.pos + bytes.length })

variable {bytes : Bytes} {p : ℕ} {d : OsonDecoder}

/-- The read from another position. -/
lemma Consumes.eq_at {m : OsonM α} {a : α} (hm : Consumes m bytes a) (hat : At d.data p bytes) :
    m { d with pos := p } = (.ok a, { d with pos := p + bytes.length }) :=
  hm { d with pos := p } hat

lemma Consumes.bind {m : OsonM α} {f : α → OsonM β} {bytes' : Bytes} {a : α} {b : β}
    (hm : Consumes m bytes a) (hf : Consumes (f a) bytes' b) :
    Consumes (m >>= f) (bytes ++ bytes') b := by
  intro d hat
  rw [bind_ok (hm d hat.left), hf _ hat.right, length_append, add_assoc]

lemma Consumes.map {m : OsonM α} {a : α} (hm : Consumes m bytes a) (g : α → β) :
    Consumes (m >>= fun x => Pure.pure (g x)) bytes (g a) := by
  intro d hat
  rw [bind_ok (hm d hat)]
  rfl

lemma consumes_readRaw (bytes : Bytes) : Consumes (readRaw bytes.length) bytes bytes := by
  intro d hat
  rw [readRaw, if_pos hat.length_le, hat.take_eq]

lemma consumes_readU8 (b : UInt8) : Consumes readU8 [b] b := by
  intro d hat
  rw [readU8, hat.getElem?_eq]
  rfl

variable {n : ℕ}

lemma consumes_readU8_toNat (h : n < 256) :
    Consumes (do return (← readU8).toNat) (beBytes 1 n) n := by
  have hmap := (consumes_readU8 (ofNat n)).map toNat
  rwa [toNat_ofNat', Nat.mod_eq_of_lt h] at hmap

lemma consumes_readBe {width : ℕ} (h : n < 256 ^ width) :
    Consumes (readBe width) (beBytes width n) n := by
  have hmap := (consumes_readRaw (beBytes width n)).map beValue
  rwa [beBytes_length, beValue_beBytes h] at hmap

lemma consumes_readUtf8 (text : String) :
    Consumes (readUtf8 (asBytes text).length) (asBytes text) text := by
  intro d hat
  rw [readUtf8, bind_ok (consumes_readRaw (asBytes text) d hat), fromUtf8_asBytes]
  rfl

/-! ### Scalar nodes -/

variable (scalars : ScalarDecoders) (fields : List OsonFieldName)

/-- The header of a document sets up the decoder for the fields of the encoder. -/
structure Fits (d : OsonDecoder) : Prop where
  fieldNames : d.fieldNames = fields.map OsonFieldName.name
  fieldIdLength : d.fieldIdLength = osonFieldIdSize fields.length
  relativeOffsets : d.relativeOffsets = false

/-- The bytes of a node are decoded to the text of a value wherever they stand at an
offset of the tree, while only containers at smaller offsets are being decoded. -/
def NodeReads (v : Json) (offset : ℕ) (bytes : Bytes) : Prop :=
  ∀ levels (d : OsonDecoder), Fits fields d →
    At d.data (d.treeSegPos + offset) bytes → d.pos = d.treeSegPos + offset →
    (∀ o ∈ d.activeContainerOffsets, o < offset) → v.depth < levels →
    ∃ text pos, v.render = .ok text ∧
      decodeNode scalars levels d = (.ok text, { d with pos := pos })

variable {scalars fields}

lemma Fits.withPos (h : Fits fields d) (pos : ℕ) : Fits fields { d with pos := pos } :=
  ⟨h.fieldNames, h.fieldIdLength, h.relativeOffsets⟩

variable {v : Json} {offset : ℕ}

/-- The node of a scalar: its type, and what the decoder of the type consumes. -/
lemma nodeReads_of_consumes {nodeType : UInt8}
    {text : String} (hrender : v.render = .ok text) (htype : nodeType &&& 0x80 = 0)
    (hbytes : Consumes (decodeScalar scalars nodeType) bytes text) :
    NodeReads scalars fields v offset ([nodeType] ++ bytes) := by
  intro levels d _ hat hpos _ hlevels
  obtain ⟨levels, rfl⟩ := Nat.exists_eq_succ_of_ne_zero (Nat.ne_zero_of_lt hlevels)
  rw [← hpos] at hat
  refine ⟨text, d.pos + 1 + bytes.length, hrender, ?_⟩
  rw [decodeNode, bind_ok (consumes_readU8 nodeType d hat.left), if_neg (not_not.2 htype),
    hbytes _ hat.right]
  rfl

/-- A string is read behind its length. -/
lemma consumes_quoted {m : OsonM ℕ} {len : Bytes} (value : String)
    (hm : Consumes m len (asBytes value).length) :
    Consumes (do return jsonQuote (← readUtf8 (← m))) (len ++ asBytes value) (jsonQuote value) :=
  hm.bind ((consumes_readUtf8 value).map jsonQuote)

variable {out out' : Bytes}

open Json

lemma encodeOsonString_reads {value : String} (h : encodeOsonString value out = .ok out') :
    ∃ bytes, out' = out ++ bytes ∧ NodeReads scalars fields (.string value) out.length bytes := by
  have hnode {nodeType : UInt8} {len : Bytes}
      (h : .ok (out ++ [nodeType] ++ len ++ asBytes value) = Except.ok (ε := OracleThinError) out')
      (htype : nodeType &&& 0x80 = 0)
      (hread : Consumes (decodeScalar scalars nodeType) (len ++ asBytes value) (jsonQuote value)) :
      ∃ bytes, out' = out ++ bytes ∧ NodeReads scalars fields (.string value) out.length bytes := by
    refine ⟨_, ?_, nodeReads_of_consumes rfl htype hread⟩
    rw [← ok.inj h]
    simp only [append_assoc]
  simp only [encodeOsonString] at h
  split_ifs at h with hshort hmiddle
  · refine hnode h (by decide) ((consumes_readU8 (ofNat (asBytes value).length)).bind ?_)
    rw [toNat_ofNat', Nat.mod_eq_of_lt hshort]
    exact (consumes_readUtf8 value).map jsonQuote
  · exact hnode h (by decide) (consumes_quoted value (consumes_readBe hmiddle))
  · obtain ⟨len, hlen, h⟩ := exists_of_bind_eq_ok h
    obtain ⟨hlt, rfl⟩ := tryFrom_eq_ok hlen
    exact hnode h (by decide) (consumes_quoted value (consumes_readBe hlt))

lemma encodeOsonNumber_reads {text : String} (h : encodeOsonNumber text out = .ok out') :
    ∃ bytes, out' = out ++ bytes ∧ NodeReads scalars fields (.number text) out.length bytes := by
  obtain ⟨number, hnum, h⟩ := exists_of_bind_eq_ok h
  obtain ⟨len, hlen, h⟩ := exists_of_bind_eq_ok h
  obtain ⟨-, rfl⟩ := tryFrom_eq_ok hlen
  obtain ⟨decoded, hdecoded⟩ := exists_decodeOracleNumber hnum
  have hrender : (Json.number text).render = .ok decoded := by
    rw [render, numberText, hnum]
    exact hdecoded
  have htoNat : (ofNat number.length).toNat = number.length := by
    rw [toNat_ofNat', Nat.mod_eq_of_lt (encodeOracleNumber_length_lt hnum)]
  have hread : Consumes (decodeScalar scalars tnsJsonTypeNumberLengthUint8)
      (beBytes 1 number.length ++ number) decoded := by
    refine (consumes_readU8 (ofNat number.length)).bind ?_
    rw [htoNat]
    intro d hat
    rw [bind_ok (consumes_readRaw number d hat), hdecoded]
    rfl
  refine ⟨_, ?_, nodeReads_of_consumes hrender (by decide) hread⟩
  rw [← ok.inj h]
  simp only [append_assoc]

/-! ### The children of a container, decoded -/

variable (scalars fields)

/-- A child of the container at an offset stands at a larger offset of the tree. -/
def ChildReads (data : Bytes) (treeSegPos containerOffset : ℕ) (v : Json) (offset : ℕ) : Prop :=
  containerOffset < offset ∧ offset < 256 ^ 4 ∧
    ∃ bytes, At data (treeSegPos + offset) bytes ∧ NodeReads scalars fields v offset bytes

/-- A member of an object: the id of its field, and its value as a child. -/
def MemberReads (data : Bytes) (treeSegPos containerOffset : ℕ) (member : String × Json)
    (entry : ℕ × ℕ) : Prop :=
  entry.1 < 256 ^ osonFieldIdSize fields.length ∧
    (fields.map OsonFieldName.name)[entry.1 - 1]? = some member.1 ∧
    ChildReads scalars fields data treeSegPos containerOffset member.2 entry.2

variable {scalars fields} {nodeType : UInt8} {containerOffset levels : ℕ}

/-- The offset of a child is read and followed, and the position behind the offset is
returned with the text of the child. -/
lemma readChildValue_reads (hfits : Fits fields d) (hwide : nodeType &&& 0x20 ≠ 0)
    (hactive : ∀ o ∈ d.activeContainerOffsets, o ≤ containerOffset) (hlevels : v.depth < levels)
    (hat : At d.data p (beBytes 4 offset))
    (hchild : ChildReads scalars fields d.data d.treeSegPos containerOffset v offset) :
    ∃ text pos, v.render = .ok text ∧
      readChildValue (decodeNode scalars levels) nodeType containerOffset p d
        = (.ok (text, p + 4), { d with pos := pos }) := by
  obtain ⟨hlt, hoff, bytes, hbytes, hnode⟩ := hchild
  obtain ⟨text, pos, hrender, hpos⟩ := hnode levels { d with pos := d.treeSegPos + offset }
    (hfits.withPos _) hbytes rfl (fun o ho => (hactive o ho).trans_lt hlt) hlevels
  have hread : readOffset nodeType { d with pos := p } = (.ok offset, { d with pos := p + 4 }) := by
    rw [readOffset, if_pos hwide, readU32Be, consumes_readBe hoff _ hat, beBytes_length]
  have hjump : (if d.relativeOffsets then offset + containerOffset else offset) = offset := by
    rw [hfits.relativeOffsets]
    rfl
  refine ⟨text, pos, hrender, ?_⟩
  rw [readChildValue, seek, bind_ok (modify_apply _ d), bind_ok hread]
  simp only [bind_ok (get_apply _ _), bind_ok (modify_apply _ _), hjump, seek]
  rw [bind_ok hpos]
  rfl

lemma osonFieldIdSize_eq (numFields : ℕ) :
    osonFieldIdSize numFields = 1 ∨ osonFieldIdSize numFields = 2 ∨
      osonFieldIdSize numFields = 4 := by
  rw [osonFieldIdSize]
  split_ifs <;> simp

/-- The field ids of a document have the width of its header. -/
lemma readFieldId_reads {id : ℕ} (hfits : Fits fields d)
    (hid : id < 256 ^ osonFieldIdSize fields.length)
    (hat : At d.data p (beBytes (osonFieldIdSize fields.length) id)) :
    readFieldId { d with pos := p }
      = (.ok id, { d with pos := p + osonFieldIdSize fields.length }) := by
  rw [hfits.fieldIdLength]
  obtain h | h | h := osonFieldIdSize_eq fields.length <;> rw [h] at hid hat ⊢
  · exact consumes_readU8_toNat hid _ hat
  · exact consumes_readBe hid _ hat
  · exact consumes_readBe hid _ hat

lemma readChildName_reads {name : String} {id : ℕ} (hfits : Fits fields d)
    (hid : id < 256 ^ osonFieldIdSize fields.length)
    (hname : (fields.map OsonFieldName.name)[id - 1]? = some name)
    (hat : At d.data p (beBytes (osonFieldIdSize fields.length) id)) :
    readChildName p d = (.ok (name, p + osonFieldIdSize fields.length),
      { d with pos := p + osonFieldIdSize fields.length }) := by
  rw [← hfits.fieldNames] at hname
  rw [readChildName, seek, bind_ok (modify_apply _ d), bind_ok (readFieldId_reads hfits hid hat)]
  simp only [bind_ok (get_apply _ _), hname]
  rfl

variable {values : List Json}

/-- The loop over an array returns the texts of its values. -/
lemma decodeItems_reads (hwide : nodeType &&& 0x20 ≠ 0) {offsets : List ℕ} (hfits : Fits fields d)
    (hactive : ∀ o ∈ d.activeContainerOffsets, o ≤ containerOffset)
    (hlevels : depthOfItems values ≤ levels) (hat : At d.data p (offsets.flatMap (beBytes 4)))
    (hchildren : List.Forall₂ (ChildReads scalars fields d.data d.treeSegPos containerOffset)
      values offsets) :
    ∃ texts pos, renderItems values = .ok texts ∧
      decodeItems (decodeNode scalars levels) nodeType containerOffset values.length p d
        = (.ok texts, { d with pos := pos }) := by
  induction values generalizing offsets d p with
  | nil => exact ⟨[], d.pos, rfl, rfl⟩
  | cons v values ih =>
    obtain ⟨offset, offsets, hchild, hchildren', rfl⟩ := forall₂_cons_left_iff.1 hchildren
    rw [depthOfItems, max_le_iff] at hlevels
    obtain ⟨text, pos, hrender, hval⟩ :=
      readChildValue_reads hfits hwide hactive hlevels.1 hat.left hchild
    obtain ⟨texts, pos', hrenders, hvals⟩ :=
      ih (hfits.withPos pos) hactive hlevels.2 hat.right hchildren'
    refine ⟨text :: texts, pos', ?_, ?_⟩
    · rw [renderItems, hrender, hrenders]
      rfl
    · rw [length_cons, decodeItems, bind_ok hval]
      exact bind_ok hvals _

variable {members : List (String × Json)}

/-- The loop over an object returns the texts of its members. -/
lemma decodeMembers_reads (hwide : nodeType &&& 0x20 ≠ 0) {entries : List (ℕ × ℕ)} {q : ℕ}
    (hfits : Fits fields d) (hactive : ∀ o ∈ d.activeContainerOffsets, o ≤ containerOffset)
    (hlevels : depthOfMembers members ≤ levels)
    (hids : At d.data p (entries.flatMap fun e => beBytes (osonFieldIdSize fields.length) e.1))
    (hoffsets : At d.data q (entries.flatMap fun e => beBytes 4 e.2))
    (hchildren : List.Forall₂ (MemberReads scalars fields d.data d.treeSegPos containerOffset)
      members entries) :
    ∃ texts pos, renderMembers members = .ok texts ∧
      decodeMembers (decodeNode scalars levels) nodeType containerOffset members.length p q d
        = (.ok texts, { d with pos := pos }) := by
  induction members generalizing entries d p q with
  | nil => exact ⟨[], d.pos, rfl, rfl⟩
  | cons member members ih =>
    obtain ⟨name, v⟩ := member
    obtain ⟨entry, entries, ⟨hid, hname, hchild⟩, hchildren', rfl⟩ :=
      forall₂_cons_left_iff.1 hchildren
    rw [depthOfMembers, max_le_iff] at hlevels
    have hkey := readChildName_reads hfits hid hname hids.left
    obtain ⟨text, pos, hrender, hval⟩ :=
      readChildValue_reads (hfits.withPos (p + osonFieldIdSize fields.length)) hwide hactive
        hlevels.1 hoffsets.left hchild
    have hids' := hids.right
    have hoffsets' := hoffsets.right
    rw [beBytes_length] at hids' hoffsets'
    obtain ⟨texts, pos', hrenders, hvals⟩ :=
      ih (hfits.withPos pos) hactive hlevels.2 hids' hoffsets' hchildren'
    refine ⟨(jsonQuote name ++ ":" ++ text) :: texts, pos', ?_, ?_⟩
    · rw [renderMembers, hrender, hrenders]
      rfl
    · rw [length_cons, decodeMembers, bind_ok hkey]
      dsimp only
      rw [bind_ok hval]
      exact bind_ok hvals _

/-! ### The children of a container, encoded -/

/-- The encoder appends the bytes of a value. -/
def Encodes (scalars : ScalarDecoders) (fields : List OsonFieldName) (v : Json) : Prop :=
  ∀ depth out out', encodeOsonNode fields depth v out = .ok out' →
    ∃ bytes, out' = out ++ bytes ∧ NodeReads scalars fields v out.length bytes

variable {front : Bytes}

/-- The first slot of the offset table is filled with the length of the tree. -/
lemma patchOffset_eq_ok {back : Bytes}
    (h : patchOffset front.length (front ++ replicate 4 0 ++ back) = .ok out') :
    ∃ offset, offset = front.length + 4 + back.length ∧ offset < 256 ^ 4 ∧
      out' = front ++ beBytes 4 offset ++ back := by
  obtain ⟨offset, hoff, h⟩ := exists_of_bind_eq_ok h
  obtain ⟨hlt, rfl⟩ := tryFrom_eq_ok hoff
  refine ⟨_, ?_, hlt, ?_⟩
  · rw [length_append, length_append, length_replicate]
  · rw [← ok.inj h, patch_entry]
    rw [length_replicate, beBytes_length]

variable {depth : ℕ}

/-- The loop over an array fills the table of offsets and appends the values. -/
lemma encodeOsonItems_reads (hvals : ∀ v ∈ values, Encodes scalars fields v) {body : Bytes}
    (h : encodeOsonItems fields depth front.length values
      (front ++ replicate (values.length * 4) 0 ++ body) = .ok out') :
    ∃ offsets bytes, out' = front ++ offsets.flatMap (beBytes 4) ++ (body ++ bytes) ∧
      offsets.length = values.length ∧
      ∀ data treeSegPos containerOffset, containerOffset < front.length →
        At data (treeSegPos + (front.length + values.length * 4 + body.length)) bytes →
        List.Forall₂ (ChildReads scalars fields data treeSegPos containerOffset) values
          offsets := by
  induction values generalizing front body with
  | nil =>
    refine ⟨[], [], ?_, rfl, fun _ _ _ _ _ => .nil⟩
    simpa using (ok.inj h).symm
  | cons v values ih =>
    rw [length_cons, Nat.succ_mul, add_comm, replicate_add,
      ← append_assoc, append_assoc (front ++ _)] at h
    obtain ⟨patched, hpatched, h⟩ := exists_of_bind_eq_ok h
    obtain ⟨offset, hoff, hlt, rfl⟩ := patchOffset_eq_ok hpatched
    obtain ⟨out, hout, h⟩ := exists_of_bind_eq_ok h
    obtain ⟨bytes, rfl, hread⟩ := hvals v mem_cons_self _ _ _ hout
    rw [length_append, length_replicate] at hoff
    have hstart : (front ++ beBytes 4 offset ++
        (replicate (values.length * 4) 0 ++ body)).length = offset := by
      simp only [length_append, beBytes_length, length_replicate]
      omega
    rw [hstart] at hread
    -- the rest of the loop runs behind the patched slot, with the value in the body
    have hrest : encodeOsonItems fields depth (front ++ beBytes 4 offset).length values
        (front ++ beBytes 4 offset ++ replicate (values.length * 4) 0 ++ (body ++ bytes))
          = .ok out' := by
      rw [length_append]
      simp only [append_assoc] at h ⊢
      exact h
    obtain ⟨offsets, bytes', rfl, hlen, hreads⟩ :=
      ih (fun v hv => hvals v (mem_cons_of_mem _ hv)) hrest
    refine ⟨offset :: offsets, bytes ++ bytes', ?_, ?_, ?_⟩
    · rw [flatMap_cons]
      simp only [append_assoc]
    · rw [length_cons, length_cons, hlen]
    · intro data treeSegPos containerOffset hcontainer hat
      rw [show front.length + (v :: values).length * 4 + body.length = offset by
        rw [length_cons]; omega] at hat
      refine .cons ⟨by omega, hlt, bytes, hat.left, hread⟩
        (hreads data treeSegPos containerOffset ?_ ?_)
      · rw [length_append]
        omega
      · rw [length_append, length_append, beBytes_length,
          show treeSegPos + (front.length + 4 + values.length * 4 + (body.length + bytes.length))
            = treeSegPos + offset + bytes.length by omega]
        exact hat.right

/-- The ids of the fields are their positions, counted from 1. -/
def Numbered (fields : List OsonFieldName) : Prop :=
  ∀ i field, fields[i]? = some field → field.fieldId = i + 1

/-- The first slot of the table of field ids is filled with the id of the name. -/
lemma patchFieldId_eq_ok (hfields : Numbered fields) {name : String} {back : Bytes}
    (h : patchFieldId fields front.length name
      (front ++ replicate (osonFieldIdSize fields.length) 0 ++ back) = .ok out') :
    ∃ id, id < 256 ^ osonFieldIdSize fields.length ∧
      (fields.map OsonFieldName.name)[id - 1]? = some name ∧
      out' = front ++ beBytes (osonFieldIdSize fields.length) id ++ back := by
  rw [patchFieldId] at h
  split at h
  case h_1 => cases h
  case h_2 field hfind =>
    obtain ⟨written, hwritten, h⟩ := exists_of_bind_eq_ok h
    rw [writeOsonFieldId] at hwritten
    split at hwritten
    case isFalse => cases hwritten
    case isTrue =>
      obtain ⟨id, hid, hwritten⟩ := exists_of_bind_eq_ok hwritten
      obtain ⟨hlt, rfl⟩ := tryFrom_eq_ok hid
      obtain ⟨i, hi⟩ := mem_iff_getElem?.1 (mem_of_find?_eq_some hfind)
      have hname := find?_some hfind
      refine ⟨field.fieldId, hlt, ?_, ?_⟩
      · rw [hfields i field hi, Nat.add_sub_cancel, getElem?_map, hi]
        exact congrArg some (beq_iff_eq.1 hname)
      · rw [← ok.inj h, ← ok.inj hwritten, patch_entry]
        rw [length_replicate, beBytes_length]

/-- The loop over an object fills the tables of field ids and offsets and appends the
values. -/
lemma encodeOsonMembers_reads (hfields : Numbered fields)
    (hmembers : ∀ m ∈ members, Encodes scalars fields m.2) {mid body : Bytes}
    (h : encodeOsonMembers fields depth front.length
      (front.length + members.length * osonFieldIdSize fields.length + mid.length) members
      (front ++ replicate (members.length * osonFieldIdSize fields.length) 0 ++ mid ++
        replicate (members.length * 4) 0 ++ body) = .ok out') :
    ∃ entries bytes, out' = front ++
        entries.flatMap (fun e => beBytes (osonFieldIdSize fields.length) e.1) ++ mid ++
        entries.flatMap (fun e => beBytes 4 e.2) ++ (body ++ bytes) ∧
      entries.length = members.length ∧
      ∀ data treeSegPos containerOffset, containerOffset < front.length →
        At data (treeSegPos + (front.length + members.length * osonFieldIdSize fields.length +
          mid.length + members.length * 4 + body.length)) bytes →
        List.Forall₂ (MemberReads scalars fields data treeSegPos containerOffset) members
          entries := by
  induction members generalizing front mid body with
  | nil =>
    refine ⟨[], [], ?_, rfl, fun _ _ _ _ _ => .nil⟩
    simpa using (ok.inj h).symm
  | cons member members ih =>
    obtain ⟨name, v⟩ := member
    set width := osonFieldIdSize fields.length with hwidth
    rw [length_cons, Nat.succ_mul, Nat.succ_mul,
      add_comm _ width, add_comm _ 4, replicate_add, replicate_add] at h
    have hshape : front ++ (replicate width 0 ++ replicate (members.length * width) 0)
          ++ mid ++ (replicate 4 0 ++ replicate (members.length * 4) 0) ++ body
        = front ++ replicate width 0 ++ (replicate (members.length * width) 0 ++ mid ++
          (replicate 4 0 ++ (replicate (members.length * 4) 0 ++ body))) := by
      simp only [append_assoc]
    rw [hshape] at h
    obtain ⟨out₁, hout₁, h⟩ := exists_of_bind_eq_ok h
    obtain ⟨id, hid, hname, rfl⟩ := patchFieldId_eq_ok hfields hout₁
    obtain ⟨out₂, hout₂, h⟩ := exists_of_bind_eq_ok h
    -- the slot of the offset, seen from the start of the tree
    have hslot : front.length + (width + members.length * width) + mid.length
        = (front ++ beBytes width id ++ (replicate (members.length * width) 0 ++ mid)).length := by
      simp only [length_append, beBytes_length, length_replicate]
      omega
    have hpatch : patchOffset (front ++ beBytes width id ++
          (replicate (members.length * width) 0 ++ mid)).length
        (front ++ beBytes width id ++ (replicate (members.length * width) 0 ++ mid) ++
          replicate 4 0 ++ (replicate (members.length * 4) 0 ++ body)) = .ok out₂ := by
      rw [← hslot]
      simp only [append_assoc] at hout₂ ⊢
      exact hout₂
    obtain ⟨offset, hoff, hlt, rfl⟩ := patchOffset_eq_ok hpatch
    obtain ⟨out₃, hout₃, h⟩ := exists_of_bind_eq_ok h
    obtain ⟨bytes, rfl, hread⟩ := hmembers _ mem_cons_self _ _ _ hout₃
    simp only [length_append, beBytes_length, length_replicate] at hoff
    have hstart : (front ++ beBytes width id ++ (replicate (members.length * width) 0 ++ mid)
        ++ beBytes 4 offset ++ (replicate (members.length * 4) 0 ++ body)).length
        = offset := by
      simp only [length_append, beBytes_length, length_replicate]
      omega
    rw [hstart] at hread
    have hrest : encodeOsonMembers fields depth (front ++ beBytes width id).length
        ((front ++ beBytes width id).length + members.length * width +
          (mid ++ beBytes 4 offset).length) members
        (front ++ beBytes width id ++ replicate (members.length * width) 0 ++
          (mid ++ beBytes 4 offset) ++ replicate (members.length * 4) 0 ++ (body ++ bytes))
          = .ok out' := by
      have hslot' : (front ++ beBytes width id).length + members.length * width +
          (mid ++ beBytes 4 offset).length
          = front.length + (width + members.length * width) + mid.length + 4 := by
        simp only [length_append, beBytes_length]
        omega
      rw [hslot', length_append, beBytes_length]
      simp only [append_assoc] at h ⊢
      exact h
    obtain ⟨entries, bytes', rfl, hlen, hreads⟩ :=
      ih (fun m hm => hmembers m (mem_cons_of_mem _ hm)) hrest
    refine ⟨(id, offset) :: entries, bytes ++ bytes', ?_, ?_, ?_⟩
    · simp only [flatMap_cons, append_assoc]
    · rw [length_cons, length_cons, hlen]
    · intro data treeSegPos containerOffset hcontainer hat
      have hbody : front.length + ((name, v) :: members).length * width + mid.length +
          ((name, v) :: members).length * 4 + body.length = offset := by
        rw [length_cons, Nat.succ_mul]
        omega
      rw [hbody] at hat
      refine .cons ⟨hid, hname, by omega, hlt, bytes, hat.left, hread⟩
        (hreads data treeSegPos containerOffset ?_ ?_)
      · rw [length_append]
        omega
      · have hpos : treeSegPos + ((front ++ beBytes width id).length + members.length * width +
            (mid ++ beBytes 4 offset).length + members.length * 4 + (body ++ bytes).length)
            = treeSegPos + offset + bytes.length := by
          simp only [length_append, beBytes_length]
          omega
        rw [hpos]
        exact hat.right

/-! ### Container nodes -/

/-- The bits of the type of a container, and the count behind it. -/
lemma openContainer_reads {baseType : UInt8}
    (hbase : baseType = tnsJsonTypeArray ∨ baseType = tnsJsonTypeObject)
    (h : openContainer baseType n out = .ok out') :
    ∃ nodeType count, out' = out ++ [nodeType] ++ count ∧ nodeType &&& 0x80 ≠ 0 ∧
      nodeType &&& 0x20 ≠ 0 ∧ nodeType &&& 0x40 = baseType &&& 0x40 ∧
      Consumes (readNumChildren nodeType) count (n, false) := by
  refine ⟨osonContainerNodeType baseType n, ?_⟩
  rw [openContainer, pushOsonChildCount] at h
  split_ifs at h with hshort hmiddle
  · have htype : osonContainerNodeType baseType n = baseType ||| 0x20 := by
      rw [osonContainerNodeType, if_neg (by omega), if_neg (by omega)]
    have hread : Consumes (do return ((← readU8).toNat, false)) (beBytes 1 n) (n, false) := by
      have hmap := (consumes_readU8 (ofNat n)).map fun b => (b.toNat, false)
      rwa [toNat_ofNat', Nat.mod_eq_of_lt hshort] at hmap
    refine ⟨beBytes 1 n, (ok.inj h).symm, ?_⟩
    rw [htype]
    obtain rfl | rfl := hbase <;> exact ⟨by decide, by decide, by decide, hread⟩
  · have htype : osonContainerNodeType baseType n = baseType ||| 0x20 ||| 0x08 := by
      rw [osonContainerNodeType, if_neg (by omega), if_pos (by omega)]
    have hread : Consumes (do return (← readU16Be, false)) (beBytes 2 n) (n, false) :=
      (consumes_readBe hmiddle).map fun n => (n, false)
    refine ⟨beBytes 2 n, (ok.inj h).symm, ?_⟩
    rw [htype]
    obtain rfl | rfl := hbase <;> exact ⟨by decide, by decide, by decide, hread⟩
  · have htype : osonContainerNodeType baseType n = baseType ||| 0x20 ||| 0x10 := by
      rw [osonContainerNodeType, if_pos (by omega)]
    obtain ⟨m, hm, h⟩ := exists_of_bind_eq_ok h
    obtain ⟨hlt, rfl⟩ := tryFrom_eq_ok hm
    have hread : Consumes (do return (← readU32Be, false)) (beBytes 4 n) (n, false) :=
      (consumes_readBe hlt).map fun n => (n, false)
    refine ⟨beBytes 4 n, (ok.inj h).symm, ?_⟩
    rw [htype]
    obtain rfl | rfl := hbase <;> exact ⟨by decide, by decide, by decide, hread⟩

variable {count : Bytes}

/-- The tables of a container that is not shared stand behind its count. -/
lemma readChildTables_reads (isObject : Bool)
    (hcnt : Consumes (readNumChildren nodeType) count (n, false)) (hat : At d.data d.pos count) :
    readChildTables nodeType isObject d = (.ok (n, d.pos + count.length,
          if isObject then d.pos + count.length + d.fieldIdLength * n else d.pos + count.length),
        { d with pos := d.pos + count.length }) := by
  rw [readChildTables, bind_ok (hcnt d hat)]
  rfl

section

variable (htype : nodeType &&& 0x80 ≠ 0)

include htype

/-- The node of a container: its type, and what its children are decoded from while
its offset is active. -/
lemma nodeReads_of_decodeChildren
    (hchildren : ∀ levels (d : OsonDecoder), Fits fields d → At d.data d.pos bytes →
      d.pos = d.treeSegPos + offset + 1 → (∀ o ∈ d.activeContainerOffsets, o ≤ offset) →
      v.depth ≤ levels → ∃ text pos, v.render = .ok text ∧
        decodeChildren (decodeNode scalars levels) nodeType offset d
          = (.ok text, { d with pos := pos })) :
    NodeReads scalars fields v offset ([nodeType] ++ bytes) := by
  intro levels d hfits hat hpos hactive hlevels
  obtain ⟨levels, rfl⟩ := Nat.exists_eq_succ_of_ne_zero (Nat.ne_zero_of_lt hlevels)
  rw [← hpos] at hat
  have hoff : d.pos + 1 - d.treeSegPos - 1 = offset := by omega
  have hfresh : offset ∉ d.activeContainerOffsets := fun h => (hactive offset h).false
  have hentered : ∀ o ∈ offset :: d.activeContainerOffsets, o ≤ offset :=
    forall_mem_cons.2 ⟨le_rfl, fun o ho => (hactive o ho).le⟩
  obtain ⟨text, pos, hrender, htext⟩ := hchildren levels
    { d with pos := d.pos + 1, activeContainerOffsets := offset :: d.activeContainerOffsets }
    ⟨hfits.fieldNames, hfits.fieldIdLength, hfits.relativeOffsets⟩ hat.right (by rw [hpos])
    hentered (Nat.lt_succ_iff.1 hlevels)
  refine ⟨text, pos, hrender, ?_⟩
  rw [decodeNode, bind_ok (consumes_readU8 nodeType d hat.left), if_pos htype]
  simp only [decodeContainerNode, length_singleton, hoff, if_neg hfresh, htext, erase_cons_head]

/-- The node of an array: the count, the table of offsets and the values. -/
lemma nodeReads_array {offsets : List ℕ} (hwide : nodeType &&& 0x20 ≠ 0)
    (harray : nodeType &&& 0x40 ≠ 0)
    (hcnt : Consumes (readNumChildren nodeType) count (values.length, false))
    (hlen : offsets.length = values.length) (hchildren : ∀ data treeSegPos,
      At data (treeSegPos + (offset + 1 + count.length + values.length * 4)) bytes →
      List.Forall₂ (ChildReads scalars fields data treeSegPos offset) values offsets) :
    NodeReads scalars fields (.array values) offset
      ([nodeType] ++ (count ++ (offsets.flatMap (beBytes 4) ++ bytes))) := by
  refine nodeReads_of_decodeChildren htype ?_
  intro levels d hfits hat hpos hactive hlevels
  have htable : (offsets.flatMap (beBytes 4)).length = values.length * 4 := by
    rw [← hlen]
    exact flatMap_beBytes_length 4 id offsets
  have hbytes := hat.right.right
  rw [htable, show d.pos + count.length + values.length * 4
    = d.treeSegPos + (offset + 1 + count.length + values.length * 4) by omega] at hbytes
  obtain ⟨texts, pos, hrender, hitems⟩ := decodeItems_reads hwide
    (hfits.withPos (d.pos + count.length)) hactive hlevels hat.right.left
    (hchildren d.data d.treeSegPos hbytes)
  refine ⟨"[" ++ String.intercalate "," texts ++ "]", pos, ?_, ?_⟩
  · rw [render, hrender]
    rfl
  · have hkind : (nodeType &&& 0x40 == 0) = false := beq_false_of_ne harray
    rw [decodeChildren, hkind]
    rw [bind_ok (readChildTables_reads false hcnt hat.left)]
    exact bind_ok hitems _

/-- The node of an object: the count, the tables of field ids and offsets and the
values. -/
lemma nodeReads_object {entries : List (ℕ × ℕ)} (hwide : nodeType &&& 0x20 ≠ 0)
    (hobject : nodeType &&& 0x40 = 0)
    (hcnt : Consumes (readNumChildren nodeType) count (members.length, false))
    (hlen : entries.length = members.length) (hchildren : ∀ data treeSegPos,
      At data (treeSegPos + (offset + 1 + count.length +
        members.length * osonFieldIdSize fields.length + members.length * 4)) bytes →
      List.Forall₂ (MemberReads scalars fields data treeSegPos offset) members entries) :
    NodeReads scalars fields (.object members) offset ([nodeType] ++ (count ++
        (entries.flatMap (fun e => beBytes (osonFieldIdSize fields.length) e.1) ++
          (entries.flatMap (fun e => beBytes 4 e.2) ++ bytes)))) := by
  refine nodeReads_of_decodeChildren htype ?_
  intro levels d hfits hat hpos hactive hlevels
  have hids := hat.right.left
  have hoffsets := hat.right.right.left
  have hbytes := hat.right.right.right
  rw [flatMap_beBytes_length, hlen] at hoffsets hbytes
  rw [flatMap_beBytes_length, hlen, show d.pos + count.length +
      members.length * osonFieldIdSize fields.length + members.length * 4
    = d.treeSegPos + (offset + 1 + count.length +
      members.length * osonFieldIdSize fields.length + members.length * 4) by omega] at hbytes
  have htables : d.pos + count.length + members.length * osonFieldIdSize fields.length
      = d.pos + count.length + d.fieldIdLength * members.length := by
    rw [hfits.fieldIdLength, mul_comm]
  rw [htables] at hoffsets
  obtain ⟨texts, pos, hrender, hmembers⟩ := decodeMembers_reads hwide
    (hfits.withPos (d.pos + count.length)) hactive hlevels hids hoffsets
    (hchildren d.data d.treeSegPos hbytes)
  refine ⟨"\x7b" ++ String.intercalate "," texts ++ "\x7d", pos, ?_, ?_⟩
  · rw [render, hrender]
    rfl
  · have hkind : (nodeType &&& 0x40 == 0) := beq_iff_eq.2 hobject
    rw [decodeChildren, hkind]
    rw [bind_ok (readChildTables_reads true hcnt hat.left)]
    exact bind_ok hmembers _

end

/-! ### Nodes -/

/-- The encoder does not go deeper than its limit. -/
lemma not_lt_of_encodeOsonNode_eq_ok
    (h : encodeOsonNode fields depth v out = .ok out') : ¬ maxOracleValueNestingDepth < depth := by
  intro hdepth
  rw [encodeOsonNode.eq_def, if_pos hdepth] at h
  cases h

/-- The encoder appends the bytes of a value, which are decoded to its text. -/
theorem encodeOsonNode_reads (hfields : Numbered fields) (v : Json) : Encodes scalars fields v := by
  induction v using ind
  all_goals
    intro depth out out' h
    have hdepth := not_lt_of_encodeOsonNode_eq_ok h
    rw [encodeOsonNode.eq_def, if_neg hdepth] at h
  case null =>
    refine ⟨[tnsJsonTypeNull] ++ [], (ok.inj h).symm, ?_⟩
    exact nodeReads_of_consumes rfl (by decide) fun d _ => rfl
  case bool b =>
    cases b with
    | true =>
      refine ⟨[tnsJsonTypeTrue] ++ [], (ok.inj h).symm, ?_⟩
      exact nodeReads_of_consumes rfl (by decide) fun d _ => rfl
    | false =>
      refine ⟨[tnsJsonTypeFalse] ++ [], (ok.inj h).symm, ?_⟩
      exact nodeReads_of_consumes rfl (by decide) fun d _ => rfl
  case number text =>
    exact encodeOsonNumber_reads h
  case string value =>
    exact encodeOsonString_reads h
  case array values ih =>
    obtain ⟨opened, hopened, h⟩ := exists_of_bind_eq_ok h
    obtain ⟨nodeType, count, rfl, htype, hwide, hkind, hcnt⟩ :=
      openContainer_reads (.inl rfl) hopened
    rw [← append_nil (out ++ [nodeType] ++ count ++ _)] at h
    obtain ⟨offsets, bytes, rfl, hlen, hreads⟩ := encodeOsonItems_reads ih h
    refine ⟨_, ?_, nodeReads_array htype hwide (by rw [hkind]; decide) hcnt hlen
      fun data treeSegPos (hat : At data _ bytes) => hreads data treeSegPos out.length ?_ ?_⟩
    · simp only [append_assoc, nil_append]
    · simp only [length_append, length_singleton]
      omega
    · simp only [length_append, length_singleton, length_nil, add_zero]
      exact hat
  case object members ih =>
    obtain ⟨opened, hopened, h⟩ := exists_of_bind_eq_ok h
    obtain ⟨nodeType, count, rfl, htype, hwide, hkind, hcnt⟩ :=
      openContainer_reads (.inr rfl) hopened
    -- nothing stands yet between the two tables and behind them
    have hstart : encodeOsonMembers fields (depth + 1) (out ++ [nodeType] ++ count).length
        ((out ++ [nodeType] ++ count).length + members.length * osonFieldIdSize fields.length +
          ([] : Bytes).length) members
        (out ++ [nodeType] ++ count ++
          replicate (members.length * osonFieldIdSize fields.length) 0 ++ [] ++
          replicate (members.length * 4) 0 ++ []) = .ok out' := by
      rw [append_nil, append_nil, append_assoc (out ++ [nodeType] ++ count), ← replicate_add]
      exact h
    obtain ⟨entries, bytes, rfl, hlen, hreads⟩ := encodeOsonMembers_reads hfields ih hstart
    refine ⟨_, ?_, nodeReads_object htype hwide (by rw [hkind]; decide) hcnt hlen
      fun data treeSegPos (hat : At data _ bytes) => hreads data treeSegPos out.length ?_ ?_⟩
    · simp only [append_assoc, nil_append]
    · simp only [length_append, length_singleton]
      omega
    · simp only [length_append, length_singleton, length_nil, add_zero]
      exact hat

end OsonDecoder

end SpaceQuery.Thin
