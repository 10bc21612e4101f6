import SpaceQuery.Transfer.Table

/-!
CSV and TSV: `render_separated` of `ui/result_export.rs` and `parse_separated` of
`ui/result_import.rs`.

A NULL is written as the NULL text, bare; a value that spells the NULL text, and an empty value, is
quoted. The reader is one loop over the characters with the fields and records that it has read so
far.
-/

namespace SpaceQuery.Transfer

open Bool List RustText ExportGrid

/-! ### Writing -/

def delimitedFieldNeedsQuotes (field : Text) (separator : Char) : Bool :=
  field.contains separator || field.contains '"' || field.contains '\n' || field.contains '\r'

/-- `field.replace('"', "\"\"")`. -/
def doubleQuotes (field : Text) : Text :=
  field.flatMap fun c => if c = '"' then ['"', '"'] else [c]

def escapeDelimitedField (field : Text) (separator : Char) (forceQuotes : Bool) : Text :=
  if forceQuotes || delimitedFieldNeedsQuotes field separator then
    '"' :: (doubleQuotes field ++ ['"'])
  else field

variable (grid : ExportGrid)

/-- The text of a cell, and whether it is quoted in any case. -/
def ExportGrid.displayCell (row : List Cell) (index : ℕ) : Text × Bool :=
  match ExportGrid.cell row index with
  | some value => (value, value.isEmpty || value == grid.nullText)
  | none => (grid.nullText, false)

/-- The fields of a line, with separators between them. -/
def renderLine (separator : Char) (lineEnding : Text) (fields : List Text) : Text :=
  [separator].intercalate fields ++ lineEnding

def renderSeparated (lineEnding : Text) (grid : ExportGrid) (separator : Char) : Text :=
  renderLine separator lineEnding
      (grid.columns.map fun column => escapeDelimitedField column separator false)
    ++ grid.rows.flatMap fun row => renderLine separator lineEnding
      ((range grid.columns.length).map fun index =>
        let (text, forceQuotes) := grid.displayCell row index
        escapeDelimitedField text separator forceQuotes)

/-! ### Reading -/

/-- A field of a record, as it was read. -/
structure DelimitedField where
  text : Text
  quoted : Bool
  deriving DecidableEq

/-- The variables of the loop. -/
structure SplitState where
  records : List (List DelimitedField) := []
  record : List DelimitedField := []
  field : Text := []
  fieldQuoted : Bool := false
  inQuotes : Bool := false
  fieldStarted : Bool := false
  recordStarted : Bool := false
  deriving DecidableEq

namespace SplitState

variable (st : SplitState)

/-- The field is pushed to the record. -/
def pushField : SplitState :=
  { st with
    record := st.record ++ [⟨st.field, st.fieldQuoted⟩]
    field := []
    fieldQuoted := false }

/-- The record is pushed to the records. -/
def pushRecord : SplitState := { st with records := st.records ++ [st.record], record := [] }

/-- The end of a line: a blank one is no record. -/
def endLine : SplitState :=
  { (if st.recordStarted then st.pushField.pushRecord else st) with
    fieldStarted := false
    recordStarted := false }

end SplitState

/-- One round of the loop on a character, with the text behind it; a quote and a carriage
return look at the character behind them, and may consume it. -/
def splitStep (separator ch : Char) (rest : Text) (st : SplitState) : Text × SplitState :=
  if st.inQuotes then
    if ch = '"' then
      if rest.head? = some '"' then (rest.tail, { st with field := st.field ++ ['"'] })
      else (rest, { st with inQuotes := false })
    else (rest, { st with field := st.field ++ [ch] })
  else if ch = '"' ∧ st.fieldStarted = false then
    (rest, { st with fieldStarted := true, recordStarted := true, fieldQuoted := true,
                     inQuotes := true })
  else if ch = separator then
    (rest, { st.pushField with fieldStarted := false, recordStarted := true })
  else if ch = '\r' ∨ ch = '\n' then
    (if ch = '\r' ∧ rest.head? = some '\n' then rest.tail else rest, st.endLine)
  else
    (rest, { st with fieldStarted := true, recordStarted := true, field := st.field ++ [ch] })

lemma splitStep_length_le (separator ch : Char) (rest : Text) (st : SplitState) :
    (splitStep separator ch rest st).1.length ≤ rest.length := by
  have htail : rest.tail.length ≤ rest.length := by simp
  unfold splitStep
  split_ifs <;> first | exact htail | exact le_rfl

/-- The loop over the characters. -/
def splitLoop (separator : Char) (text : Text) (st : SplitState) : SplitState :=
  match text with
  | [] => st
  | ch :: rest =>
    splitLoop separator (splitStep separator ch rest st).1 (splitStep separator ch rest st).2
termination_by text.length
decreasing_by exact Nat.lt_succ_of_le (splitStep_length_le separator ch rest st)

def splitDelimitedRecords (text : Text) (separator : Char) : List (List DelimitedField) :=
  let st := splitLoop separator text {}
  if st.recordStarted then st.pushField.pushRecord.records else st.records

/-- How a file is to be read. -/
structure ImportOptions where
  hasHeader : Bool
  nullText : Text
  deriving DecidableEq

def nullTextQuotingIsASignal (nullText : Text) (separator : Char) : Bool :=
  !delimitedFieldNeedsQuotes nullText separator

variable (separator : Char)

/-- A NULL is the NULL text written bare. -/
def toCell (nullText : Text) (field : DelimitedField) : Cell :=
  if field.text = nullText ∧ (!field.quoted || !nullTextQuotingIsASignal nullText separator) then
    none
  else some field.text

def parseSeparated (options : ImportOptions) (text : Text) : Except String ImportedTable :=
  match splitDelimitedRecords text separator with
  | [] => .error "The file is empty."
  | first :: records =>
    let toCells (record : List DelimitedField) := record.map (toCell separator options.nullText)
    let firstCells :=
      if options.hasHeader then first.map fun field => some field.text else toCells first
    .ok (ImportedTable.ofRecords firstCells (records.map toCells) options.hasHeader)

/-! ### Steps of the loop -/

lemma splitLoop_nil (st : SplitState) : splitLoop separator [] st = st := by
  rw [splitLoop]

variable {separator : Char} {lineEnding : Text}

lemma splitLoop_of_step {ch : Char} {rest rest' : Text} {st st' : SplitState}
    (h : splitStep separator ch rest st = (rest', st')) :
    splitLoop separator (ch :: rest) st = splitLoop separator rest' st' := by
  rw [splitLoop, h]

section

variable {rest : Text} {st : SplitState}

lemma splitLoop_quoted {ch : Char} (hquotes : st.inQuotes) (hch : ch ≠ '"') :
    splitLoop separator (ch :: rest) st
      = splitLoop separator rest { st with field := st.field ++ [ch] } :=
  splitLoop_of_step (by rw [splitStep, if_pos hquotes, if_neg hch])

lemma splitLoop_doubledQuote (hquotes : st.inQuotes) : splitLoop separator ('"' :: '"' :: rest) st
      = splitLoop separator rest { st with field := st.field ++ ['"'] } :=
  splitLoop_of_step (by
    rw [splitStep, if_pos hquotes, if_pos rfl, if_pos head?_cons, tail_cons])

lemma splitLoop_closingQuote (hquotes : st.inQuotes) (hrest : rest.head? ≠ some '"') :
    splitLoop separator ('"' :: rest) st = splitLoop separator rest { st with inQuotes := false } :=
  splitLoop_of_step (by rw [splitStep, if_pos hquotes, if_pos rfl, if_neg hrest])

lemma splitLoop_openingQuote (hquotes : st.inQuotes = false) (hstarted : st.fieldStarted = false) :
    splitLoop separator ('"' :: rest) st = splitLoop separator rest
        { st with fieldStarted := true, recordStarted := true, fieldQuoted := true,
                  inQuotes := true } :=
  splitLoop_of_step (by rw [splitStep, if_neg (by simp [hquotes]), if_pos ⟨rfl, hstarted⟩])

lemma splitLoop_separator (hsep : separator ≠ '"') (hquotes : st.inQuotes = false) :
    splitLoop separator (separator :: rest) st = splitLoop separator rest
        { st.pushField with fieldStarted := false, recordStarted := true } :=
  splitLoop_of_step (by
    rw [splitStep, if_neg (by simp [hquotes]), if_neg (fun h => hsep h.1), if_pos rfl])

/-- A line ends with either line ending. -/
lemma splitLoop_lineEnding {lineEnding : Text}
    (hending : lineEnding = ['\n'] ∨ lineEnding = ['\r', '\n'])
    (hsep : separator ≠ '\r' ∧ separator ≠ '\n') (hquotes : st.inQuotes = false) :
    splitLoop separator (lineEnding ++ rest) st = splitLoop separator rest st.endLine := by
  have hnot : ¬ st.inQuotes := by simp [hquotes]
  obtain rfl | rfl := hending
  · exact splitLoop_of_step (by
      rw [splitStep, if_neg hnot, if_neg hsep.2.symm]
      rfl)
  · exact splitLoop_of_step (by
      rw [splitStep, if_neg hnot, if_neg hsep.1.symm]
      rfl)

/-- A character that needs no quotes. -/
def isPlain (separator ch : Char) : Bool :=
  ch != separator && ch != '"' && ch != '\n' && ch != '\r'

lemma splitLoop_plain {ch : Char} (hch : isPlain separator ch) (hquotes : st.inQuotes = false) :
    splitLoop separator (ch :: rest) st = splitLoop separator rest
        { st with fieldStarted := true, recordStarted := true, field := st.field ++ [ch] } := by
  simp only [isPlain, and_eq_true, bne_iff_ne] at hch
  exact splitLoop_of_step (by
    rw [splitStep, if_neg (by simp [hquotes]), if_neg (fun h => hch.1.1.2 h.1), if_neg hch.1.1.1,
      if_neg (not_or.mpr ⟨hch.2, hch.1.2⟩)])

end

/-! ### Fields and records -/

lemma delimitedFieldNeedsQuotes_eq_false {field : Text} :
    delimitedFieldNeedsQuotes field separator = false ↔ ∀ ch ∈ field, isPlain separator ch := by
  simp only [delimitedFieldNeedsQuotes, or_eq_false_iff, contains_eq_mem,
    decide_eq_false_iff_not, isPlain, and_eq_true, bne_iff_ne]
  constructor
  · rintro ⟨⟨⟨hsep, hquote⟩, hlf⟩, hcr⟩ ch hch
    exact ⟨⟨⟨fun h => hsep (h ▸ hch), fun h => hquote (h ▸ hch)⟩, fun h => hlf (h ▸ hch)⟩,
      fun h => hcr (h ▸ hch)⟩
  · intro h
    exact ⟨⟨⟨fun hmem => (h _ hmem).1.1.1 rfl, fun hmem => (h _ hmem).1.1.2 rfl⟩,
      fun hmem => (h _ hmem).1.2 rfl⟩, fun hmem => (h _ hmem).2 rfl⟩

/-- What is written between quotes is read between them. -/
lemma splitLoop_doubleQuotes (separator : Char) (field : Text) {rest : Text}
    (hrest : rest.head? ≠ some '"') (st : SplitState) (hquotes : st.inQuotes) :
    splitLoop separator (doubleQuotes field ++ '"' :: rest) st
      = splitLoop separator rest { st with field := st.field ++ field, inQuotes := false } := by
  induction field generalizing st with
  | nil =>
    rw [doubleQuotes, flatMap_nil, nil_append, append_nil, splitLoop_closingQuote hquotes hrest]
  | cons ch field ih =>
    rw [doubleQuotes, flatMap_cons, ← doubleQuotes, append_assoc]
    by_cases hch : ch = '"'
    · rw [if_pos hch, cons_append, singleton_append, splitLoop_doubledQuote hquotes,
        ih { st with field := st.field ++ ['"'] } hquotes, hch]
      simp
    · rw [if_neg hch, singleton_append, splitLoop_quoted hquotes hch,
        ih { st with field := st.field ++ [ch] } hquotes]
      simp

lemma splitLoop_bare {field : Text} (hplain : ∀ ch ∈ field, isPlain separator ch)
    (rest : Text) (st : SplitState) (hquotes : st.inQuotes = false) :
    splitLoop separator (field ++ rest) st = splitLoop separator rest
        { st with
          field := st.field ++ field
          fieldStarted := st.fieldStarted || !field.isEmpty
          recordStarted := st.recordStarted || !field.isEmpty } := by
  induction field generalizing st with
  | nil => simp
  | cons ch field ih =>
    rw [forall_mem_cons] at hplain
    rw [cons_append, splitLoop_plain hplain.1 hquotes, ih hplain.2
      { st with fieldStarted := true, recordStarted := true, field := st.field ++ [ch] } hquotes]
    simp

/-- A field to write: its text, and whether it is quoted in any case. -/
abbrev FieldToWrite := Text × Bool

namespace FieldToWrite

def escaped (separator : Char) (f : FieldToWrite) : Text :=
  escapeDelimitedField f.1 separator f.2

/-- What the reader makes of the field. -/
@[simp] def read (separator : Char) (f : FieldToWrite) : DelimitedField :=
  ⟨f.1, f.2 || delimitedFieldNeedsQuotes f.1 separator⟩

end FieldToWrite

open FieldToWrite

variable (records : List (List DelimitedField))

/-- The loop in front of a field. -/
def readyState (record : List DelimitedField) (recordStarted : Bool) : SplitState :=
  { records, record, recordStarted }

/-- The loop behind a field. -/
@[simp] def fieldState (record : List DelimitedField)
    (recordStarted : Bool) (field : DelimitedField) : SplitState :=
  { records, record
    field := field.text
    fieldQuoted := field.quoted
    fieldStarted := field.quoted || !field.text.isEmpty
    recordStarted := recordStarted || (field.quoted || !field.text.isEmpty) }

/-- A field that was written is read, with its quotes. -/
lemma splitLoop_field (separator : Char) (f : FieldToWrite) {rest : Text}
    (hrest : rest.head? ≠ some '"') (records : List (List DelimitedField))
    (record : List DelimitedField) (started : Bool) :
    splitLoop separator (f.escaped separator ++ rest) (readyState records record started)
      = splitLoop separator rest (fieldState records record started (f.read separator)) := by
  rw [escaped, escapeDelimitedField, FieldToWrite.read]
  cases hquoted : f.2 || delimitedFieldNeedsQuotes f.1 separator with
  | true =>
    rw [if_pos rfl, cons_append, splitLoop_openingQuote rfl rfl, append_assoc,
      singleton_append, splitLoop_doubleQuotes separator f.1 hrest _ rfl]
    simp [readyState]
  | false =>
    have hplain := delimitedFieldNeedsQuotes_eq_false.mp (or_eq_false_iff.mp hquoted).2
    rw [if_neg Bool.false_ne_true, splitLoop_bare hplain rest _ rfl]
    simp [readyState]

/-- What follows a field is no quote. -/
lemma head_lineEnding (hending : lineEnding = ['\n'] ∨ lineEnding = ['\r', '\n']) (rest : Text) :
    (lineEnding ++ rest).head? ≠ some '"' := by
  obtain rfl | rfl := hending <;> simp

/-- The characters that separate fields and records. -/
def IsSeparator (separator : Char) : Prop := separator ≠ '"' ∧ separator ≠ '\r' ∧ separator ≠ '\n'

section

variable (hsep : IsSeparator separator) (hending : lineEnding = ['\n'] ∨ lineEnding = ['\r', '\n'])

include hsep hending

/-- A line that was written is read as a record, unless it is blank. -/
lemma splitLoop_line (f : FieldToWrite) (fs : List FieldToWrite) (rest : Text)
    (records : List (List DelimitedField))
    (record : List DelimitedField) (started : Bool)
    (hstarted : started ∨ fs ≠ [] ∨ f.escaped separator ≠ []) :
    splitLoop separator
        (renderLine separator lineEnding ((f :: fs).map (escaped separator)) ++ rest)
        (readyState records record started)
      = splitLoop separator rest (readyState
        (records ++ [record ++ (f :: fs).map (FieldToWrite.read separator)]) [] false) := by
  induction fs generalizing f record started with
  | nil =>
    have hrecord : (fieldState records record started (f.read separator)).recordStarted = true := by
      obtain rfl | hne | hne := hstarted
      · simp
      · exact absurd rfl hne
      · rw [escaped, escapeDelimitedField] at hne
        split_ifs at hne with hquoted
        · simp [hquoted]
        · simp [hne]
    rw [renderLine, map_singleton, intercalate_singleton, append_assoc,
      splitLoop_field separator f (head_lineEnding hending rest),
      splitLoop_lineEnding hending hsep.2 rfl, SplitState.endLine, if_pos hrecord]
    rfl
  | cons g fs ih =>
    have htext : renderLine separator lineEnding ((f :: g :: fs).map (escaped separator)) ++ rest
        = f.escaped separator ++ separator
          :: (renderLine separator lineEnding ((g :: fs).map (escaped separator)) ++ rest) := by
      simp [renderLine, intercalate_cons_cons]
    have hhead : (separator :: (renderLine separator lineEnding
        ((g :: fs).map (escaped separator)) ++ rest)).head? ≠ some '"' := by
      simpa using hsep.1
    rw [htext, splitLoop_field separator f hhead, splitLoop_separator hsep.1 rfl]
    have hst : { (fieldState records record started (f.read separator)).pushField with
        fieldStarted := false, recordStarted := true }
        = readyState records (record ++ [f.read separator]) true := rfl
    rw [hst, ih g (record ++ [f.read separator]) true (.inl rfl)]
    simp

/-- The lines of a file are read as its records. -/
lemma splitLoop_lines (lines : List (List FieldToWrite))
    (hlines : ∀ line ∈ lines, ∃ f fs, line = f :: fs ∧ (fs ≠ [] ∨ f.escaped separator ≠ []))
    (records : List (List DelimitedField)) :
    splitLoop separator
        (lines.flatMap fun line => renderLine separator lineEnding (line.map (escaped separator)))
        (readyState records [] false)
      = readyState (records ++ lines.map fun line => line.map (FieldToWrite.read separator)) []
        false := by
  induction lines generalizing records with
  | nil => rw [flatMap_nil, splitLoop_nil, map_nil, append_nil]
  | cons line lines ih =>
    rw [forall_mem_cons] at hlines
    obtain ⟨⟨f, fs, rfl, hstarted⟩, hlines⟩ := hlines
    rw [flatMap_cons, splitLoop_line hsep hending f fs _ records [] false (.inr hstarted),
      ih hlines]
    simp

theorem splitDelimitedRecords_render (lines : List (List FieldToWrite))
    (hlines : ∀ line ∈ lines, ∃ f fs, line = f :: fs ∧ (fs ≠ [] ∨ f.escaped separator ≠ [])) :
    splitDelimitedRecords (lines.flatMap fun line =>
        renderLine separator lineEnding (line.map (escaped separator))) separator
      = lines.map fun line => line.map (FieldToWrite.read separator) := by
  have hloop := splitLoop_lines hsep hending lines hlines []
  rw [splitDelimitedRecords]
  change splitLoop separator _ {} = _ at hloop
  rw [hloop]
  rfl

end

/-! ### The table is read back -/

/-- The fields of the header. -/
def ExportGrid.headerFields : List FieldToWrite :=
  grid.columns.map fun column => (column, false)

/-- The fields of a row. -/
def ExportGrid.rowFields (row : List Cell) : List FieldToWrite :=
  (range grid.columns.length).map (grid.displayCell row)

lemma renderSeparated_eq (lineEnding : Text) (grid : ExportGrid) (separator : Char) :
    renderSeparated lineEnding grid separator
      = (grid.headerFields :: grid.rows.map grid.rowFields).flatMap fun line =>
        renderLine separator lineEnding (line.map (escaped separator)) := by
  rw [renderSeparated, flatMap_cons, flatMap_map, headerFields, map_map]
  congr 1
  refine flatMap_congr fun row _ => ?_
  rw [rowFields, map_map]
  rfl

/-- What a cell is read back as: a value that spells a NULL text that needs quotes is NULL. -/
def readBack (separator : Char) (nullText : Text) : Cell → Cell
  | none => none
  | some value =>
    if value = nullText ∧ delimitedFieldNeedsQuotes nullText separator then none else some value

lemma toCell_displayCell (separator : Char) (grid : ExportGrid) (row : List Cell) (index : ℕ) :
    toCell separator grid.nullText (FieldToWrite.read separator (grid.displayCell row index))
      = readBack separator grid.nullText (cell row index) := by
  rw [displayCell]
  cases cell row index with
  | none =>
    cases hneeds : delimitedFieldNeedsQuotes grid.nullText separator <;>
      simp [toCell, readBack, nullTextQuotingIsASignal, hneeds]
  | some value =>
    by_cases hnull : value = grid.nullText
    · cases hneeds : delimitedFieldNeedsQuotes grid.nullText separator <;>
        simp [toCell, readBack, nullTextQuotingIsASignal, hneeds, hnull]
    · simp [toCell, readBack, hnull]

/-- A field is written as nothing only when it is an empty text without quotes. -/
lemma escaped_ne_nil {f : FieldToWrite} (h : f.1 ≠ [] ∨ f.2) : f.escaped separator ≠ [] := by
  rw [escaped, escapeDelimitedField]
  split_ifs with hquoted
  · exact cons_ne_nil _ _
  · refine h.elim id fun hforce => absurd ?_ hquoted
    rw [hforce, Bool.true_or]

/-- No row is written as a blank line. -/
lemma exists_rowFields_eq (separator : Char) {grid : ExportGrid} (hcols : grid.columns ≠ [])
    (hnull : grid.nullText = [] → 2 ≤ grid.columns.length) (row : List Cell) :
    ∃ f fs, grid.rowFields row = f :: fs ∧ (fs ≠ [] ∨ f.escaped separator ≠ []) := by
  obtain ⟨n, hn⟩ : ∃ n, grid.columns.length = n + 1 :=
    Nat.exists_eq_succ_of_ne_zero (length_pos_iff.mpr hcols).ne'
  refine ⟨grid.displayCell row 0, ((range n).map Nat.succ).map (grid.displayCell row), ?_, ?_⟩
  · rw [rowFields, hn, range_succ_eq_map, map_cons]
  · cases n with
    | succ n => exact .inl (by simp)
    | zero =>
      refine .inr (escaped_ne_nil ?_)
      rw [displayCell]
      cases cell row 0 with
      | none => exact .inl fun hnil => absurd (hnull hnil) (by omega)
      | some value => cases value <;> simp

/-- The table is read back from the file: every column, and every row as wide as the header
with every cell, but for values that spell a NULL text that needs quotes. -/
theorem parse_renderSeparated {separator : Char} (hsep : separator = ',' ∨ separator = '\t')
    {lineEnding : Text} (hending : lineEnding = ['\n'] ∨ lineEnding = ['\r', '\n'])
    (grid : ExportGrid) (hcolumns : grid.columns ≠ [])
    (hnames : ∀ column ∈ grid.columns, trim column ≠ [])
    (hnull : grid.nullText = [] → 2 ≤ grid.columns.length) :
    parse (parseSeparated separator { hasHeader := true, nullText := grid.nullText })
        (byteOrderMark :: renderSeparated lineEnding grid separator)
      = .ok
        { columns := grid.columns
          rows := grid.rows.map fun row => (range grid.columns.length).map fun index =>
            readBack separator grid.nullText (cell row index)
          fileNamedTheColumns := true } := by
  have hsep' : IsSeparator separator := by
    obtain rfl | rfl := hsep <;> exact ⟨by decide, by decide, by decide⟩
  have hheader : ∃ f fs, grid.headerFields = f :: fs ∧ (fs ≠ [] ∨ f.escaped separator ≠ []) := by
    obtain ⟨column, columns, hcons⟩ := exists_cons_of_ne_nil hcolumns
    refine ⟨(column, false), columns.map fun column => (column, false), ?_, .inr (escaped_ne_nil
      (.inl fun hnil => hnames column (by rw [hcons]; exact mem_cons_self) ?_))⟩
    · rw [headerFields, hcons, map_cons]
    · change column = [] at hnil
      rw [hnil]
      rfl
  have hrecords := splitDelimitedRecords_render hsep' hending
    (grid.headerFields :: grid.rows.map grid.rowFields) (by
      rw [forall_mem_cons, forall_mem_map]
      exact ⟨hheader, fun row _ => exists_rowFields_eq separator hcolumns hnull row⟩)
  have hstrip : (stripPrefix [byteOrderMark]
      (byteOrderMark :: renderSeparated lineEnding grid separator)).getD
        (byteOrderMark :: renderSeparated lineEnding grid separator)
      = renderSeparated lineEnding grid separator := by
    simp [stripPrefix]
  have hcells : ∀ row, ((grid.rowFields row).map (FieldToWrite.read separator)).map
      (toCell separator grid.nullText) = (range grid.columns.length).map fun index =>
        readBack separator grid.nullText (cell row index) := by
    intro row
    rw [rowFields, map_map, map_map]
    exact map_congr_left fun index _ => toCell_displayCell separator grid row index
  have htable : parseSeparated separator { hasHeader := true, nullText := grid.nullText }
      (renderSeparated lineEnding grid separator) = .ok
        { columns := grid.columns
          rows := grid.rows.map fun row => (range grid.columns.length).map fun index =>
            readBack separator grid.nullText (cell row index)
          fileNamedTheColumns := true } := by
    rw [parseSeparated, renderSeparated_eq, hrecords, map_cons]
    simp only [ImportedTable.ofRecords, if_true, map_map, Function.comp_def, hcells]
    congr 2
    rw [headerFields, map_map]
    exact map_id _
  rw [parse, hstrip, htable]
  refine validate_of_width hcolumns hnames fun row hrow => ?_
  obtain ⟨row', -, rfl⟩ := mem_map.mp hrow
  rw [length_map, length_range]

/-- A table with a short row, a value that spells the NULL text and a quoted field. -/
def exampleGrid : ExportGrid where
  columns := ["ID".toList, "A,B".toList]
  rows := [[some "NULL".toList], [none, some "x\"y".toList, some "surplus".toList]]
  nullText := "NULL".toList

theorem parse_renderSeparated_exampleGrid :
    parse (parseSeparated ',' { hasHeader := true, nullText := "NULL".toList })
        (byteOrderMark :: renderSeparated ['\n'] exampleGrid ',')
      = .ok ⟨["ID".toList, "A,B".toList],
        [[some "NULL".toList, none], [none, some "x\"y".toList]], true⟩ :=
  parse_renderSeparated (.inl rfl) (.inl rfl) exampleGrid (by decide) (by decide) (by decide)

end SpaceQuery.Transfer
