import SpaceQuery.Thin.OsonNodes

/-!
The round trip of JSON values through OSON: `decode_oson_to_json` after `encode_oson_json`.
-/

namespace SpaceQuery.Thin

open Prod Bool Except List RustText ByteFields Comp

/-! ### The fields of a value -/

/-- The bytes of a field are those of its name. -/
def OsonFieldName.Named (field : OsonFieldName) : Prop := field.bytes = asBytes field.name

variable {fields : List OsonFieldName}

lemma addOsonFieldName_named {name : String} {fields' : List OsonFieldName}
    (h : addOsonFieldName name fields = .ok fields') (hfields : ∀ f ∈ fields, f.Named) :
    ∀ f ∈ fields', f.Named := by
  rw [addOsonFieldName] at h
  split_ifs at h
  · rw [← ok.inj h]
    exact hfields
  · rw [← ok.inj h]
    intro f hf
    rw [mem_append, mem_singleton] at hf
    obtain hf | rfl := hf
    · exact hfields f hf
    · rfl

/-- The collected fields have the bytes of their names. -/
lemma collectOsonFieldNames_named (v : Json) : ∀ {depth fields fields'},
    collectOsonFieldNames depth v fields = .ok fields' → (∀ f ∈ fields, f.Named) →
    ∀ f ∈ fields', f.Named := by
  induction v using Json.ind with
  | null | bool | number | string =>
    intro depth fields fields' h hfields
    rw [collectOsonFieldNames.eq_def] at h
    split_ifs at h
    rw [← ok.inj h]
    exact hfields
  | array values ih =>
    intro depth fields fields' h hfields
    rw [collectOsonFieldNames.eq_def] at h
    split_ifs at h
    induction values generalizing fields with
    | nil =>
      rw [← ok.inj h]
      exact hfields
    | cons v values ihvalues =>
      obtain ⟨fields₁, h₁, h⟩ := exists_of_bind_eq_ok h
      exact ihvalues (fun v hv => ih v (mem_cons_of_mem _ hv)) (ih v mem_cons_self h₁ hfields) h
  | object members ih =>
    intro depth fields fields' h hfields
    rw [collectOsonFieldNames.eq_def] at h
    split_ifs at h
    induction members generalizing fields with
    | nil =>
      rw [← ok.inj h]
      exact hfields
    | cons member members ihmembers =>
      obtain ⟨fields₁, h₁, h⟩ := exists_of_bind_eq_ok h
      obtain ⟨fields₂, h₂, h⟩ := exists_of_bind_eq_ok h
      exact ihmembers (fun m hm => ih m (mem_cons_of_mem _ hm))
        (ih member mem_cons_self h₂ (addOsonFieldName_named h₁ hfields)) h

variable {short long : List OsonFieldName}

lemma splitFieldNames_mem {supports : Bool}
    (h : splitFieldNames supports fields = .ok (short, long)) :
    (∀ f ∈ short, f ∈ fields ∧ f.bytes.length ≤ 255) ∧ ∀ f ∈ long, f ∈ fields := by
  induction fields generalizing short long with
  | nil =>
    cases h
    simp
  | cons field fields ih =>
    rw [splitFieldNames] at h
    split_ifs at h with hshort
    · obtain ⟨⟨short', long'⟩, hsplit, h⟩ := exists_of_bind_eq_ok h
      cases h
      obtain ⟨hs, hl⟩ := ih hsplit
      refine ⟨forall_mem_cons.2 ⟨⟨mem_cons_self, hshort⟩, ?_⟩, ?_⟩
      · exact fun f hf => ⟨mem_cons_of_mem _ (hs f hf).1, (hs f hf).2⟩
      · exact fun f hf => mem_cons_of_mem _ (hl f hf)
    · obtain ⟨⟨short', long'⟩, hsplit, h⟩ := exists_of_bind_eq_ok h
      cases h
      obtain ⟨hs, hl⟩ := ih hsplit
      refine ⟨fun f hf => ⟨mem_cons_of_mem _ (hs f hf).1, (hs f hf).2⟩,
        forall_mem_cons.2 ⟨mem_cons_self, ?_⟩⟩
      exact fun f hf => mem_cons_of_mem _ (hl f hf)

@[simp]
lemma numberFields_length (start : ℕ) (fields : List OsonFieldName) :
    (numberFields start fields).length = fields.length := length_mapIdx

@[simp]
lemma sortOsonFieldNames_length (fields : List OsonFieldName) :
    (sortOsonFieldNames fields).length = fields.length :=
  length_insertionSort _ _

/-- Sorting and numbering keep the names and the bytes. -/
lemma exists_of_mem_numberFields {start : ℕ} {f : OsonFieldName}
    (h : f ∈ numberFields start (sortOsonFieldNames fields)) :
    ∃ g ∈ fields, f.name = g.name ∧ f.bytes = g.bytes := by
  obtain ⟨i, hi, rfl⟩ := mem_mapIdx.1 h
  exact ⟨_, (perm_insertionSort _ _).mem_iff.1 (getElem_mem hi), rfl, rfl⟩

/-- The ids run through the short and then through the long names. -/
lemma numbered_append (short long : List OsonFieldName) :
    OsonDecoder.Numbered (numberFields 0 short ++ numberFields short.length long) := by
  intro i field h
  rw [getElem?_append, numberFields_length] at h
  split at h
  · rw [numberFields, getElem?_mapIdx, Option.map_eq_some_iff] at h
    obtain ⟨g, -, rfl⟩ := h
    exact congrArg (· + 1) (zero_add i)
  · rw [numberFields, getElem?_mapIdx, Option.map_eq_some_iff] at h
    obtain ⟨g, -, rfl⟩ := h
    dsimp only
    omega

/-- What the fields of the header have in common: the bytes of their names, which fit
the length in front of them. -/
structure HeaderFields (short long : List OsonFieldName) : Prop where
  numbered : OsonDecoder.Numbered (short ++ long)
  shortNamed : ∀ f ∈ short, f.Named ∧ f.bytes.length ≤ 255
  longNamed : ∀ f ∈ long, f.Named

lemma osonFields_header {v : Json} {supports : Bool}
    (h : osonFields v supports = .ok (short, long)) : HeaderFields short long := by
  obtain ⟨fields, hfields, h⟩ := exists_of_bind_eq_ok h
  obtain ⟨⟨short', long'⟩, hsplit, h⟩ := exists_of_bind_eq_ok h
  cases h
  have hnamed := collectOsonFieldNames_named v hfields nofun
  obtain ⟨hshort, hlong⟩ := splitFieldNames_mem hsplit
  refine ⟨?_, ?_, ?_⟩
  · have hnumbered := numbered_append (sortOsonFieldNames short') (sortOsonFieldNames long')
    rwa [sortOsonFieldNames_length] at hnumbered
  · intro f hf
    obtain ⟨g, hg, hname, hbytes⟩ := exists_of_mem_numberFields hf
    rw [OsonFieldName.Named, hname, hbytes]
    exact ⟨hnamed g (hshort g hg).1, (hshort g hg).2⟩
  · intro f hf
    obtain ⟨g, hg, hname, hbytes⟩ := exists_of_mem_numberFields hf
    rw [OsonFieldName.Named, hname, hbytes]
    exact hnamed g (hlong g hg)

/-! ### Segments of field names -/

namespace OsonDecoder

variable {laid : List OsonFieldName} {longNames : Bool} {segment : Bytes}

lemma segmentBytes_eq_some {bytes : Bytes} {pos : ℕ} (h : At segment pos bytes) :
    segmentBytes segment pos bytes.length = some bytes := by
  rw [segmentBytes, if_pos h.length_le, h.take_eq]

/-- The length in front of a name is the length of its bytes. -/
lemma fieldNameLen_eq_ok {n : ℕ} {len : Bytes} (hshort : longNames = false → n ≤ 255)
    (h : fieldNameLen longNames n = .ok len) :
    len.length = (if longNames then 2 else 1) ∧ beValue len = n := by
  rw [fieldNameLen] at h
  split at h
  case isTrue hlong =>
    obtain ⟨m, hm, h⟩ := exists_of_bind_eq_ok h
    obtain ⟨hlt, rfl⟩ := tryFrom_eq_ok hm
    rw [← ok.inj h, hlong]
    exact ⟨rfl, beValue_beBytes hlt⟩
  case isFalse hlong =>
    rw [not_eq_true] at hlong
    rw [← ok.inj h, hlong]
    exact ⟨rfl, beValue_beBytes (lt_of_le_of_lt (hshort hlong) (by norm_num))⟩

/-- A name is found behind its length. -/
lemma fieldNameAt_eq_ok {name : String} {len : Bytes} {offset : ℕ}
    (hlen : len.length = (if longNames then 2 else 1))
    (hval : beValue len = (asBytes name).length) (h : At segment offset (len ++ asBytes name)) :
    fieldNameAt longNames segment offset = .ok name := by
  have hname := segmentBytes_eq_some h.right
  rw [hlen, ← hval] at hname
  have hhead := segmentBytes_eq_some h.left
  rw [hlen] at hhead
  simp only [fieldNameAt, hhead, hname, fromUtf8_asBytes]

/-- The names are laid one behind the other, and each is found at its offset. -/
lemma layFieldNames_reads (hnamed : ∀ f ∈ fields, f.Named)
    (hshort : longNames = false → ∀ f ∈ fields, f.bytes.length ≤ 255) {names names' : Bytes}
    (h : layFieldNames longNames fields names = .ok (laid, names')) :
    names <+: names' ∧
      List.Forall₂ (fun f g => fieldNameAt longNames names' g.offset = .ok f.name) fields laid := by
  induction fields generalizing laid names with
  | nil =>
    cases h
    exact ⟨prefix_rfl, .nil⟩
  | cons field fields ih =>
    obtain ⟨len, hlen, h⟩ := exists_of_bind_eq_ok h
    obtain ⟨⟨rest, names''⟩, hrest, h⟩ := exists_of_bind_eq_ok h
    cases h
    obtain ⟨hlength, hval⟩ :=
      fieldNameLen_eq_ok (fun hlong => hshort hlong field mem_cons_self) hlen
    obtain ⟨⟨tail, rfl⟩, hreads⟩ := ih (fun f hf => hnamed f (mem_cons_of_mem _ hf))
      (fun hlong f hf => hshort hlong f (mem_cons_of_mem _ hf)) hrest
    have hbytes : field.bytes = asBytes field.name := hnamed field mem_cons_self
    refine ⟨⟨len ++ field.bytes ++ tail, by simp only [append_assoc]⟩, .cons ?_ hreads⟩
    refine fieldNameAt_eq_ok hlength (by rw [hval, hbytes]) ⟨names, tail, ?_, rfl⟩
    rw [hbytes]
    simp only [append_assoc]

variable {width : ℕ}

/-- The table of offsets has one entry for each field. -/
lemma fieldOffsets_eq_ok {table : Bytes} (h : fieldOffsets width laid = .ok table) :
    table = laid.flatMap (fun f => beBytes width f.offset) ∧
      ∀ f ∈ laid, f.offset < 256 ^ width := by
  induction laid generalizing table with
  | nil =>
    cases h
    exact ⟨rfl, nofun⟩
  | cons field laid ih =>
    obtain ⟨offset, hoff, h⟩ := exists_of_bind_eq_ok h
    obtain ⟨rest, hrest, h⟩ := exists_of_bind_eq_ok h
    obtain ⟨hlt, rfl⟩ := tryFrom_eq_ok hoff
    obtain ⟨rfl, hlts⟩ := ih hrest
    rw [← ok.inj h]
    exact ⟨rfl, forall_mem_cons.2 ⟨hlt, hlts⟩⟩

open OsonFieldName

/-- The loop over the offsets returns the names. -/
lemma readFieldNames_reads (hwidth : width = 2 ∨ width = 4)
    (hlt : ∀ f ∈ laid, f.offset < 256 ^ width)
    (hreads : List.Forall₂ (fun f g => fieldNameAt longNames segment g.offset = .ok f.name)
      fields laid) :
    Consumes (readFieldNames width segment longNames fields.length)
      (laid.flatMap fun f => beBytes width f.offset) (fields.map name) := by
  induction hreads with
  | nil => exact fun d _ => rfl
  | @cons field g fields laid hname _ ih =>
    rw [forall_mem_cons] at hlt
    have hoff : Consumes (readNameOffset width) (beBytes width g.offset) g.offset := by
      obtain rfl | rfl := hwidth
      · exact consumes_readBe hlt.1
      · exact consumes_readBe hlt.1
    refine hoff.bind ?_
    intro d hat
    rw [hname, bind_ok (lift_apply _ d), bind_ok (ih hlt.2 d hat)]
    rfl

lemma consumes_skip (bytes : Bytes) : Consumes (skip bytes.length) bytes () :=
  (consumes_readRaw bytes).map fun _ => ()

/-- The width of the offsets in a segment. -/
def offsetWidth (len : ℕ) : ℕ := if 65535 < len then 4 else 2

lemma offsetWidth_eq (len : ℕ) : offsetWidth len = 2 ∨ offsetWidth len = 4 := by
  rw [offsetWidth]
  split_ifs <;> simp

/-- The hashes, the offsets and the names are passed over, and the names are read from
the offsets on. -/
lemma consumes_readFieldNamesSegment {numFields offsetsSize : ℕ} {hashes offsets : Bytes}
    {names : List String} (hhashes : hashes.length = numFields * if longNames then 2 else 1)
    (hoffsets : offsets.length = numFields * offsetsSize)
    (hnames : Consumes (readFieldNames offsetsSize segment longNames numFields) offsets names) :
    Consumes (readFieldNamesSegment numFields offsetsSize segment.length longNames)
      (hashes ++ offsets ++ segment) names := by
  intro d hat
  have hskip := consumes_skip hashes d hat.left.left
  have hskip' := (consumes_skip offsets).eq_at hat.left.right
  have hseg := (consumes_readRaw segment).eq_at hat.right
  have hloop := hnames.eq_at hat.left.right
  rw [hhashes] at hskip hskip'
  rw [hoffsets] at hskip'
  rw [length_append, hhashes, hoffsets, ← add_assoc] at hseg
  rw [hhashes] at hloop
  simp only [length_append, hhashes, hoffsets]
  rw [readFieldNamesSegment, bind_ok hskip, bind_ok (get_apply _ _),
    bind_ok hskip', bind_ok hseg, bind_ok (get_apply _ _), seek,
    bind_ok (modify_apply _ _)]
  rw [bind_ok hloop]
  simp only [seek, bind_ok (modify_apply _ _), pure_apply, add_assoc]

variable {len : ℕ}

/-- A segment of field names is read back. -/
lemma readFieldNamesSegment_reads (hnamed : ∀ f ∈ fields, f.Named)
    (hshort : longNames = false → ∀ f ∈ fields, f.bytes.length ≤ 255)
    (h : encodeOsonFieldNamesSegment fields longNames = .ok (segment, len)) :
    Consumes (readFieldNamesSegment fields.length (offsetWidth len) len longNames) segment
      (fields.map name) := by
  obtain ⟨⟨laid, names⟩, hlaid, h⟩ := exists_of_bind_eq_ok h
  obtain ⟨table, htable, h⟩ := exists_of_bind_eq_ok h
  cases h
  obtain ⟨-, hreads⟩ := layFieldNames_reads hnamed hshort hlaid
  obtain ⟨rfl, hlt⟩ := fieldOffsets_eq_ok htable
  refine consumes_readFieldNamesSegment ?_ ?_
    (readFieldNames_reads (offsetWidth_eq names.length) hlt hreads)
  · rw [flatMap_beBytes_length, hreads.length_eq]
  · rw [flatMap_beBytes_length, hreads.length_eq]
    rfl

variable {d : OsonDecoder}

/-- The names of a segment are appended, if there is one. -/
lemma extendFieldNames_reads (hnamed : ∀ f ∈ fields, f.Named)
    (hshort : longNames = false → ∀ f ∈ fields, f.bytes.length ≤ 255)
    (hseg : fieldSegment fields longNames = .ok (segment, len))
    (hwidth : fields ≠ [] → width = offsetWidth len) (hat : At d.data d.pos segment) :
    extendFieldNames fields.length width len longNames d = (.ok (), { d with
          pos := d.pos + segment.length,
          fieldNames := d.fieldNames ++ fields.map name }) := by
  rw [fieldSegment] at hseg
  split at hseg
  case isTrue hempty =>
    cases hseg
    rw [hempty, map_nil, append_nil]
    rfl
  case isFalse hne =>
    rw [extendFieldNames, if_pos (length_pos_of_ne_nil hne), hwidth hne,
      bind_ok (readFieldNamesSegment_reads hnamed hshort hseg d hat)]
    rfl

section Flags

variable (isScalar : Bool) (numFields shortLen treeLen : ℕ)

lemma osonFlags_relOffsetMode :
    osonFlags isScalar numFields shortLen treeLen &&& tnsJsonFlagRelOffsetMode = 0 := by
  simp only [osonFlags]
  split_ifs <;> decide

lemma osonFlags_isScalar : osonFlags isScalar numFields shortLen treeLen &&& tnsJsonFlagIsScalar ≠ 0
      ↔ isScalar := by
  simp only [osonFlags]
  split_ifs <;> simp only [*, iff_true] <;> decide

lemma osonFlags_treeSegUint32 :
    osonFlags isScalar numFields shortLen treeLen &&& tnsJsonFlagTreeSegUint32 ≠ 0
      ↔ 65535 < treeLen := by
  simp only [osonFlags]
  split_ifs <;> simp only [*, iff_true, iff_false] <;> decide

lemma osonFlags_fnamesSegUint32 :
    osonFlags isScalar numFields shortLen treeLen &&& tnsJsonFlagFnamesSegUint32 ≠ 0
      ↔ 65535 < shortLen := by
  simp only [osonFlags]
  split_ifs <;> simp only [*, iff_true, iff_false] <;> decide

lemma osonFlags_numFnamesUint32 :
    osonFlags false numFields shortLen treeLen &&& tnsJsonFlagNumFnamesUint32 ≠ 0
      ↔ 65535 < numFields := by
  simp only [osonFlags, false_eq_true, if_false]
  split_ifs <;> simp only [*, iff_true, iff_false] <;> decide

lemma osonFlags_numFnamesUint16 (h : numFields ≤ 65535) :
    osonFlags false numFields shortLen treeLen &&& tnsJsonFlagNumFnamesUint16 ≠ 0
      ↔ 255 < numFields := by
  have h' : ¬ 65535 < numFields := not_lt.2 h
  simp only [osonFlags, false_eq_true, if_false, if_neg h']
  split_ifs <;> simp only [*, iff_true, iff_false] <;> decide

end Flags

/-! ### The header -/

variable {out : Bytes}

/-- The width of a segment length is that of the offsets in the segment. -/
lemma pushOsonSegmentLen_eq_ok {out' : Bytes} {useU32 : Bool}
    (hwide : useU32 ↔ 65535 < len) (h : pushOsonSegmentLen out len useU32 = .ok out') :
    len < 256 ^ offsetWidth len ∧ out' = out ++ beBytes (offsetWidth len) len := by
  have hwidth : (if useU32 = true then 4 else 2) = offsetWidth len := by
    exact if_congr hwide rfl rfl
  rw [pushOsonSegmentLen, hwidth] at h
  obtain ⟨n, hn, h⟩ := exists_of_bind_eq_ok h
  obtain ⟨hlt, rfl⟩ := tryFrom_eq_ok hn
  exact ⟨hlt, (ok.inj h).symm⟩

lemma consumes_skipTreeSegmentSize {flags : UInt16}
    (hwide : flags &&& tnsJsonFlagTreeSegUint32 ≠ 0 ↔ 65535 < len)
    (hlen : len < 256 ^ offsetWidth len) :
    Consumes (skipTreeSegmentSize flags) (beBytes (offsetWidth len) len) () := by
  rw [skipTreeSegmentSize]
  by_cases h : 65535 < len
  · rw [if_pos (hwide.2 h)]
    rw [offsetWidth, if_pos h] at hlen ⊢
    exact (consumes_readBe hlen).map fun _ => ()
  · rw [if_neg (fun hflag => h (hwide.1 hflag))]
    rw [offsetWidth, if_neg h] at hlen ⊢
    exact (consumes_readBe hlen).map fun _ => ()

/-- The width of the number of names is that of the field ids. -/
lemma readNumShortFieldNames_reads {numFields shortLen treeLen count : ℕ}
    (hcnt : count < 256 ^ osonFieldIdSize numFields)
    (hat : At d.data d.pos (beBytes (osonFieldIdSize numFields) count)) :
    readNumShortFieldNames (osonFlags false numFields shortLen treeLen) d = (.ok count, { d with
          pos := d.pos + osonFieldIdSize numFields
          fieldIdLength := osonFieldIdSize numFields }) := by
  have hwidth : (if osonFlags false numFields shortLen treeLen &&& tnsJsonFlagNumFnamesUint32 ≠ 0
      then 4 else if osonFlags false numFields shortLen treeLen &&& tnsJsonFlagNumFnamesUint16 ≠ 0
      then 2 else 1) = osonFieldIdSize numFields := by
    rw [osonFieldIdSize, if_congr (osonFlags_numFnamesUint32 numFields shortLen treeLen) rfl rfl]
    by_cases h : 65535 < numFields
    · rw [if_pos h, if_neg (by omega), if_neg (by omega)]
    · rw [if_neg h, if_congr (osonFlags_numFnamesUint16 numFields shortLen treeLen (by omega))
        rfl rfl]
      by_cases h' : 255 < numFields
      · rw [if_pos h', if_neg (by omega), if_pos (by omega)]
      · rw [if_neg h', if_pos (by omega)]
  rw [readNumShortFieldNames, hwidth]
  obtain h | h | h := osonFieldIdSize_eq numFields <;> rw [h] at hcnt hat ⊢
  · exact consumes_readU8_toNat hcnt _ hat
  · exact consumes_readBe hcnt _ hat
  · exact consumes_readBe hcnt _ hat

/-- The counts of the long names are read back, with the width of their offsets. -/
lemma consumes_readLongFieldCounts {count : ℕ} (hcnt : count < 256 ^ 4) (hlen : len < 256 ^ 4) :
    Consumes (readLongFieldCounts tnsJsonVersionMaxFname65535)
      (beBytes 2 (if len ≤ 65535 then tnsJsonFlagSecFnamesSegUint16 else 0).toNat
        ++ beBytes 4 count ++ beBytes 4 len)
      (count, offsetWidth len, len) := by
  by_cases hshort : len ≤ 65535
  · rw [if_pos hshort, offsetWidth, if_neg (not_lt.2 hshort)]
    refine (consumes_readBe (by decide)).bind ?_
    exact (consumes_readBe hcnt).bind ((consumes_readBe hlen).map fun n => (count, 2, n))
  · rw [if_neg hshort, offsetWidth, if_pos (Nat.lt_of_not_le hshort)]
    refine (consumes_readBe (by decide)).bind ?_
    exact (consumes_readBe hcnt).bind ((consumes_readBe hlen).map fun n => (count, 4, n))

/-- The version of a document tells whether there are long names. -/
def osonVersion (long : List OsonFieldName) : UInt8 :=
  if long = [] then tnsJsonVersionMaxFname255 else tnsJsonVersionMaxFname65535

/-- The counts are the number of short names, the length of their segment and, in a
document with long names, the counts of these. -/
lemma pushFieldCounts_eq_ok {flags : UInt16}
    {shortLen longLen : ℕ} {out' : Bytes}
    (hwide : flags &&& tnsJsonFlagFnamesSegUint32 ≠ 0 ↔ 65535 < shortLen)
    (hlong : long = [] → longLen = 0)
    (h : pushFieldCounts out flags (osonVersion long) short long shortLen longLen = .ok out') :
    short.length < 256 ^ osonFieldIdSize (short.length + long.length) ∧
      shortLen < 256 ^ offsetWidth shortLen ∧
      ∃ longCounts width,
        out' = out ++ beBytes (osonFieldIdSize (short.length + long.length)) short.length
          ++ beBytes (offsetWidth shortLen) shortLen ++ longCounts ∧
        (long ≠ [] → width = offsetWidth longLen) ∧
        Consumes (readLongFieldCounts (osonVersion long)) longCounts
          (long.length, width, longLen) := by
  obtain ⟨out₁, hcnt, h⟩ := exists_of_bind_eq_ok h
  obtain ⟨out₂, hseg, h⟩ := exists_of_bind_eq_ok h
  rw [pushOsonCountWithSize, if_pos (osonFieldIdSize_eq _)] at hcnt
  obtain ⟨n, hn, hcnt⟩ := exists_of_bind_eq_ok hcnt
  obtain ⟨hshortCount, rfl⟩ := tryFrom_eq_ok hn
  cases hcnt
  obtain ⟨hshortLen, rfl⟩ := pushOsonSegmentLen_eq_ok (bne_iff_ne.trans hwide) hseg
  refine ⟨hshortCount, hshortLen, ?_⟩
  by_cases hempty : long = []
  · rw [osonVersion, if_pos hempty] at h ⊢
    cases h
    refine ⟨[], 0, (append_nil _).symm, fun hne => absurd hempty hne, ?_⟩
    rw [hlong hempty, hempty]
    exact fun d _ => rfl
  · rw [osonVersion, if_neg hempty] at h ⊢
    obtain ⟨count, hn, h⟩ := exists_of_bind_eq_ok h
    obtain ⟨len, hm, h⟩ := exists_of_bind_eq_ok h
    obtain ⟨hlongCount, rfl⟩ := tryFrom_eq_ok hn
    obtain ⟨hlongLen, rfl⟩ := tryFrom_eq_ok hm
    refine ⟨_, offsetWidth longLen, ?_, fun _ => rfl,
      consumes_readLongFieldCounts hlongCount hlongLen⟩
    rw [← ok.inj h]
    simp only [append_assoc]

/-- The read passes over the bytes and sets the fields of a new decoder. -/
def SetsUp (m : OsonM Unit) (bytes : Bytes) (fields : List OsonFieldName) : Prop :=
  ∀ d : OsonDecoder, At d.data d.pos bytes → d.fieldNames = [] → d.fieldIdLength = 1 →
    m d = (.ok (), { d with
      pos := d.pos + bytes.length,
      fieldNames := fields.map name,
      fieldIdLength := osonFieldIdSize fields.length })

/-- The header sets the decoder up for the fields of the encoder. -/
lemma readFieldNamesHeader_reads (hfields : HeaderFields short long)
    {shortSegment longSegment : Bytes} {shortLen longLen treeLen : ℕ}
    (hshort : fieldSegment short false = .ok (shortSegment, shortLen))
    (hlong : fieldSegment long true = .ok (longSegment, longLen)) {out₁ out₂ : Bytes}
    (hcounts : pushFieldCounts out (osonFlags false (short.length + long.length) shortLen treeLen)
      (osonVersion long) short long shortLen longLen = .ok out₁)
    (htree : pushOsonSegmentLen out₁ treeLen (osonFlags false (short.length + long.length) shortLen
      treeLen &&& tnsJsonFlagTreeSegUint32 != 0) = .ok out₂) :
    ∃ header, out₂ ++ beBytes 2 0 ++ shortSegment ++ longSegment = out ++ header ∧
      SetsUp (readFieldNamesHeader (osonVersion long)
        (osonFlags false (short.length + long.length) shortLen treeLen)) header
        (short ++ long) := by
  have hshortWide := osonFlags_fnamesSegUint32 false (short.length + long.length) shortLen treeLen
  have htreeWide := osonFlags_treeSegUint32 false (short.length + long.length) shortLen treeLen
  have hlongLen : long = [] → longLen = 0 := by
    intro hempty
    rw [fieldSegment, if_pos hempty] at hlong
    exact (Prod.mk.inj (ok.inj hlong)).2.symm
  obtain ⟨hcnt, hshortLen, longCounts, width, rfl, hwidth, hlongCounts⟩ :=
    pushFieldCounts_eq_ok hshortWide hlongLen hcounts
  obtain ⟨htreeLen, rfl⟩ := pushOsonSegmentLen_eq_ok (bne_iff_ne.trans htreeWide) htree
  refine ⟨beBytes (osonFieldIdSize (short.length + long.length)) short.length
    ++ (beBytes (offsetWidth shortLen) shortLen ++ (longCounts
      ++ (beBytes (offsetWidth treeLen) treeLen ++ (beBytes 2 0
        ++ (shortSegment ++ longSegment))))), by simp only [append_assoc], ?_⟩
  intro d hat hnames _
  have hcounts' := hat.right
  rw [beBytes_length] at hcounts'
  have hlongAt := hcounts'.right
  have htreeAt := hlongAt.right
  have hsegments := htreeAt.right.right
  have hany : true = false → ∀ f ∈ long, f.bytes.length ≤ 255 := fun h => nomatch h
  have hreserved : Consumes readU16Be (beBytes 2 0) 0 := consumes_readBe (by decide)
  rw [readFieldNamesHeader, bind_ok (readNumShortFieldNames_reads hcnt hat.left),
    if_congr hshortWide rfl rfl, ← offsetWidth]
  rw [bind_ok (consumes_readBe hshortLen _ hcounts'.left), bind_ok (hlongCounts _ hlongAt.left)]
  dsimp only
  rw [bind_ok (consumes_skipTreeSegmentSize htreeWide htreeLen _ htreeAt.left),
    bind_ok (hreserved _ htreeAt.right.left),
    bind_ok (extendFieldNames_reads (fun f hf => (hfields.shortNamed f hf).1)
      (fun _ f hf => (hfields.shortNamed f hf).2) hshort (fun _ => rfl) hsegments.left),
    extendFieldNames_reads hfields.longNamed hany hlong hwidth hsegments.right]
  simp only [hnames, nil_append, map_append, length_append, beBytes_length, add_assoc]

/-! ### Documents -/

variable {v : Json}

/-- A document of a scalar has no field names. -/
lemma osonFields_of_isScalar (hscalar : v.isScalar) (supports : Bool) :
    osonFields v supports = .ok ([], []) := by
  cases v with
  | null | bool | number | string => cases supports <;> rfl
  | array | object => cases hscalar

/-- What the encoder writes in front of the tree is what the decoder reads. -/
lemma encodeOsonJson_eq_ok {supports : Bool} (h : encodeOsonJson v supports = .ok out) :
    ∃ short long flags header tree,
      HeaderFields short long ∧ encodeOsonNode (short ++ long) 0 v [] = .ok tree ∧
      out = tnsJsonMagicBytes ++ ([osonVersion long] ++ (beBytes 2 (UInt16.toNat flags)
        ++ (header ++ tree))) ∧
      flags &&& tnsJsonFlagRelOffsetMode = 0 ∧
      SetsUp (readHeader (osonVersion long) flags) header (short ++ long) := by
  obtain ⟨⟨short, long⟩, hfields, h⟩ := exists_of_bind_eq_ok h
  obtain ⟨⟨shortSegment, shortLen⟩, hshort, h⟩ := exists_of_bind_eq_ok h
  obtain ⟨⟨longSegment, longLen⟩, hlong, h⟩ := exists_of_bind_eq_ok h
  obtain ⟨tree, htree, h⟩ := exists_of_bind_eq_ok h
  rw [← osonVersion] at h
  have hscalar := osonFlags_isScalar v.isScalar (short.length + long.length) shortLen tree.length
  refine ⟨short, long, osonFlags v.isScalar (short.length + long.length) shortLen tree.length, ?_⟩
  split at h
  case isTrue hv =>
    obtain ⟨out', hlen, h⟩ := exists_of_bind_eq_ok h
    have htreeWide :=
      osonFlags_treeSegUint32 v.isScalar (short.length + long.length) shortLen tree.length
    obtain ⟨htreeLen, rfl⟩ := pushOsonSegmentLen_eq_ok (bne_iff_ne.trans htreeWide) hlen
    refine ⟨beBytes (offsetWidth tree.length) tree.length, tree, osonFields_header hfields, htree,
      ?_, osonFlags_relOffsetMode _ _ _ _, ?_⟩
    · rw [← ok.inj h]
      simp only [append_assoc]
    · rw [osonFields_of_isScalar hv] at hfields
      cases hfields
      intro d hat hnames hid
      rw [readHeader, if_pos (hscalar.2 hv),
        consumes_skipTreeSegmentSize htreeWide htreeLen d hat, append_nil, map_nil,
        ← hnames, osonFieldIdSize, if_pos (by decide), ← hid]
  case isFalse hv =>
    rw [not_eq_true] at hv
    rw [hv] at h hscalar ⊢
    obtain ⟨out₁, hcounts, h⟩ := exists_of_bind_eq_ok h
    obtain ⟨out₂, hlen, h⟩ := exists_of_bind_eq_ok h
    obtain ⟨header, hheader, hsets⟩ :=
      readFieldNamesHeader_reads (osonFields_header hfields) hshort hlong hcounts hlen
    refine ⟨header, tree, osonFields_header hfields, htree, ?_, osonFlags_relOffsetMode _ _ _ _, ?_⟩
    · rw [← ok.inj h, hheader]
      simp only [append_assoc]
    · rw [readHeader, if_neg (fun hflag => false_ne_true (hscalar.1 hflag))]
      exact hsets

/-- The tree of a document is decoded from its first node. -/
lemma NodeReads.decodeNode_eq {scalars : ScalarDecoders} {fields : List OsonFieldName}
    {tree : Bytes} (hreads : NodeReads scalars fields v 0 tree)
    (hfits : Fits fields d) (hat : At d.data d.pos tree) (htree : d.treeSegPos = d.pos)
    (hactive : d.activeContainerOffsets = []) (hdepth : v.depth ≤ maxOsonDecodeNestingDepth) :
    ∃ text, v.render = .ok text ∧
      (decodeNode scalars (maxOsonDecodeNestingDepth + 1) d).1 = .ok text := by
  rw [← htree] at hat
  obtain ⟨text, pos, hrender, hdecode⟩ := hreads (maxOsonDecodeNestingDepth + 1) d hfits hat
    htree.symm (by simp [hactive]) (Nat.lt_succ_of_le hdepth)
  exact ⟨text, hrender, congrArg fst hdecode⟩

end OsonDecoder

open OsonDecoder in
/-- A document is decoded to the compact text of its value, for every value within the
nesting limit of the decoder. -/
theorem decodeOsonToJson_encodeOsonJson (scalars : ScalarDecoders) {v : Json} {out : Bytes}
    (hdepth : v.depth ≤ maxOsonDecodeNestingDepth) (h : encodeOsonJson v true = .ok out) :
    ∃ text, v.render = .ok text ∧ decodeOsonToJson scalars out = .ok text := by
  obtain ⟨short, long, flags, header, tree, hfields, htree, rfl, hrelative, hsets⟩ :=
    encodeOsonJson_eq_ok h
  have hencodes : Encodes scalars (short ++ long) v := encodeOsonNode_reads hfields.numbered v
  obtain ⟨_, rfl, hreads⟩ := hencodes 0 [] tree htree
  generalize hout : tnsJsonMagicBytes ++ ([osonVersion long] ++ (beBytes 2 (UInt16.toNat flags)
        ++ (header ++ tree))) = out
  have hat : At out 0 (tnsJsonMagicBytes ++ ([osonVersion long] ++ (beBytes 2 (UInt16.toNat flags)
        ++ (header ++ tree)))) := ⟨[], [], by rw [hout, append_nil]; rfl, rfl⟩
  have hmagic : Consumes (readRaw 3) tnsJsonMagicBytes tnsJsonMagicBytes := consumes_readRaw _
  have hversion : osonVersion long = tnsJsonVersionMaxFname255 ∨
      osonVersion long = tnsJsonVersionMaxFname65535 := by
    rw [osonVersion]
    split_ifs <;> simp
  have hflags : Consumes readU16Be (beBytes 2 flags.toNat) flags.toNat :=
    consumes_readBe flags.toNat_lt
  -- the magic bytes, the version, the flags and the header, in the order of the decoder
  rw [decodeOsonToJson, decode, bind_ok (hmagic (.new out) hat.left), if_neg (not_not.2 rfl),
    bind_ok (consumes_readU8 (osonVersion long) _ hat.right.left), if_neg (by tauto),
    bind_ok (hflags _ hat.right.right.left), UInt16.ofNat_toNat,
    bind_ok (modify_apply _ _), bind_ok (hsets _ hat.right.right.right.left rfl rfl),
    bind_ok (modify_apply _ _)]
  exact hreads.decodeNode_eq ⟨rfl, rfl, bne_eq_false_iff_eq.2 hrelative⟩
    hat.right.right.right.right rfl rfl hdepth

/-- An object with an array, a number and a string. -/
theorem decodeOsonToJson_encodeOsonJson_object :
    ∃ out, encodeOsonJson (.object [("rows", .array [.number "12.5", .null]), ("id", .string "x")])
        true = .ok out ∧
      ∃ text, (Json.object [("rows", .array [.number "12.5", .null]), ("id", .string "x")]).render
          = .ok text ∧
        decodeOsonToJson ⟨fun _ => .ok "", fun _ => .ok "", fun _ => .ok "", fun _ => .ok "",
          fun _ => .ok "", fun _ => .ok ""⟩ out = .ok text :=
  ⟨_, rfl, decodeOsonToJson_encodeOsonJson _ (by decide) rfl⟩

end SpaceQuery.Thin
