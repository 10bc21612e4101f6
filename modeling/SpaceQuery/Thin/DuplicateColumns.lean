import SpaceQuery.Lib.Runs
import SpaceQuery.Thin.ResponseMessages

/-!
Duplicate columns in `tns-thin/src/session.rs`: `process_row_header`, `process_bit_vector`,
`process_row_data` and `is_duplicate_column`, and the last row that `fetch_ref_cursor_batch` and the
execute calls remember of each open cursor. A clear bit in a vector stands for a column that equals
the one in the row before, which may have come with an earlier response.
-/

namespace SpaceQuery.Thin

open Runs Function List PacketCursor CursorM

/-! ### Programs that return a value -/

namespace Program

variable {α β : Type}

lemma run_bind (program : Program α) (f : α → Program β) :
    (program >>= f).run = program.run >>= fun a => (f a).run := by
  induction program with
  | ret a => rfl
  | fail e => rfl
  | call op next ih =>
    funext c
    change (op.run >>= fun r => (next r >>= f).run) c = _
    rw [run, Comp.bind_apply, Comp.bind_apply, Comp.bind_apply]
    rcases op.run c with ⟨e | r, c'⟩
    · rfl
    · dsimp only
      rw [ih]
      rfl
  | bytesOrUb wide next ih =>
    funext c
    change (CursorM.bytesOrUb wide >>= fun r => (next r >>= f).run) c = _
    rw [run, Comp.bind_apply, Comp.bind_apply, Comp.bind_apply]
    rcases CursorM.bytesOrUb wide c with ⟨e | r, c'⟩
    · rfl
    · dsimp only
      rw [ih]
      rfl

/-- A program that returns the value of some bytes. -/
abbrev Returns (big : Bool) (program : Program α) (bytes : Bytes) (a : α) : Prop :=
  Yields big program.run bytes a

namespace Returns

variable {big : Bool} {bytes bytes' : Bytes} {a : α} {b : β}

lemma pure (a : α) : Returns big (Pure.pure a) [] a := Yields.pure a

variable {program : Program α} {f : α → Program β}

lemma bind (h : Returns big program bytes a) (hf : Returns big (f a) bytes' b) :
    Returns big (program >>= f) (bytes ++ bytes') b := by
  rw [Returns, run_bind]
  exact Yields.bind h hf

lemma bind_nil (h : Returns big program bytes a) (hf : Returns big (f a) [] b) :
    Returns big (program >>= f) bytes b := by
  have hbind := h.bind hf
  rwa [append_nil] at hbind

lemma pure_bind (h : Returns big (f a) bytes b) : Returns big (Pure.pure a >>= f) bytes b := h

lemma map (f : α → β) (h : Returns big program bytes a) :
    Returns big (program >>= fun a => Pure.pure (f a)) bytes (f a) :=
  h.bind_nil (pure _)

/-- One call of the cursor. -/
lemma op {op : Op} {value : op.Result} (h : Yields big op.run bytes value) :
    Returns big (Program.op op) bytes value :=
  Yields.bind_nil h (Yields.pure value)

/-- A call whose result is dropped. -/
lemma discard_cons {op : Op} {ops : List Op} {value : op.Result} (h : Yields big op.run bytes value)
    (hops : Returns big (discard ops) bytes' ()) :
    Returns big (discard (op :: ops)) (bytes ++ bytes') () :=
  Yields.bind h hops

lemma discard_nil : Returns big (discard []) [] () := Yields.pure ()

end Returns

end Program

variable {big : Bool}

lemma readUb2_yields {n : ℕ} (hn : n < 2 ^ 16) : Yields big readUb2 (writeUb8 n) n := by
  have hread : Yields big (readUniversalUint 2) (writeUb8 n) n := by
    rw [writeUb8]
    split_ifs with h₀ h₁
    · rw [h₀]
      refine Yields.get fun c rest hbig h => ?_
      refine ((readU8_yields 0).bind_nil ?_) c rest hbig h
      exact Yields.pure 0
    · exact readUniversalUint_width one_pos (by norm_num) (by norm_num) h₁
    · exact readUniversalUint_width two_pos le_rfl (by norm_num) hn
  refine hread.bind_nil ?_
  rw [if_pos hn]
  exact Yields.pure n

lemma skip_yields (bytes : Bytes) : Yields big (skip bytes.length) bytes () :=
  (readRaw_yields bytes).bind_nil (Yields.pure ())

/-! ### Rows in bytes -/

section Rows

variable {V : Type} (codec : ValueCodec V) (caps : OracleThinCapabilities)

open Program (Returns discard skip)

/-- The bytes are decoded as the value of a column that holds no REF CURSOR. -/
def Decodes (column : ThinColumn) (bytes : Bytes) (value : V) : Prop :=
  ∀ cursorColumns, Returns caps.supportsBigClrChunks
    (readColumnValue codec caps column false cursorColumns) bytes (value, cursorColumns)

/-- The bytes of a row from a column on, behind a bit vector and the row before: a column is left
out where its bit is clear, and then its value is that of the row before. -/
inductive SendsValues (vector : Option Bytes) (previous : Option (List V)) :
    ℕ → List ThinColumn → List V → Bytes → Prop
  | nil (index : ℕ) : SendsValues vector previous index [] [] []
  | duplicate {index : ℕ} {column : ThinColumn} {columns : List ThinColumn} {value : V}
      {values : List V} {bytes : Bytes} (hclear : isDuplicateColumn index vector = true)
      (hvalue : previous.bind (·[index]?) = some value)
      (hrest : SendsValues vector previous (index + 1) columns values bytes) :
      SendsValues vector previous index (column :: columns) (value :: values) bytes
  | sent {index : ℕ} {column : ThinColumn} {columns : List ThinColumn} {value : V}
      {values : List V} {bytes rest : Bytes} (hset : isDuplicateColumn index vector = false)
      (hvalue : Decodes codec caps column bytes value)
      (hrest : SendsValues vector previous (index + 1) columns values rest) :
      SendsValues vector previous index (column :: columns) (value :: values) (bytes ++ rest)

open Program.Returns (bind_nil pure op)

variable {codec caps} in
/-- A value sent as one byte field. -/
lemma decodes_field {column : ThinColumn} (hform : valueForm column.oraTypeNum = .field)
    (hbuffer : column.bufferSize ≠ 0) {bytes : Bytes} (hne : bytes ≠ []) {value : V}
    (hfield : codec.field column bytes = .ok value) :
    Decodes codec caps column
      (writeBytesWithLengthWithBigChunks bytes caps.supportsBigClrChunks) value := by
  intro cursorColumns
  rw [readColumnValue, hform]
  dsimp only
  rw [if_neg fun hzero => hbuffer hzero.1]
  have hread : Returns caps.supportsBigClrChunks (readDecoded codec (codec.field column))
      (writeBytesWithLengthWithBigChunks bytes caps.supportsBigClrChunks) value := by
    refine bind_nil (.op (readBytes_yields bytes _)) ?_
    rw [if_neg hne]
    dsimp only
    rw [hfield]
    exact .pure value
  exact hread.bind_nil (.pure _)

/-- The fields of a row header besides its vector. -/
structure RowHeader where
  flags : UInt8
  numRequests : ℕ
  iterationNumber : ℕ
  numIters : ℕ
  bufferLength : ℕ
  repeatedLength : UInt8
  rowid : Bytes
  numRequests_lt : numRequests < 2 ^ 16
  iterationNumber_lt : iterationNumber < 2 ^ 32
  numIters_lt : numIters < 2 ^ 32
  bufferLength_lt : bufferLength < 2 ^ 16
  rowid_length_lt : rowid.length < 2 ^ 32

/-- A byte field behind its length. -/
def writeBytesWithUb4Length (value : Bytes) (big : Bool) : Bytes :=
  if value = [] then writeUb8 0
  else writeUb8 value.length ++ writeBytesWithLengthWithBigChunks value big

/-- The vector in a row header. -/
def writeVector (repeatedLength : UInt8) : Option Bytes → Bytes
  | none => writeUb8 0
  | some vector => writeUb8 vector.length ++ ([repeatedLength] ++ vector)

def RowHeader.bytes (header : RowHeader) (vector : Option Bytes) (big : Bool) : Bytes :=
  ([header.flags] ++ (writeUb8 header.numRequests ++ (writeUb8 header.iterationNumber ++
    (writeUb8 header.numIters ++ (writeUb8 header.bufferLength ++ []))))) ++
  (writeVector header.repeatedLength vector ++ writeBytesWithUb4Length header.rowid big)

/-- A vector that a row header can hold. -/
def VectorFits (vector : Option Bytes) : Prop :=
  ∀ bits ∈ vector, bits ≠ [] ∧ bits.length < 2 ^ 32

/-- Messages that the rows are independent of. -/
def Silent (reader : Reader (ExecuteState V)) (big : Bool) (bytes : Bytes) : Prop :=
  ∀ s : ExecuteState V, ∃ server, Takes reader big s bytes { state := { s with server } }

/-- A description of the columns. -/
def Describes (reader : Reader (ExecuteState V)) (big : Bool) (columns : List ThinColumn)
    (bytes : Bytes) : Prop :=
  ∀ s : ExecuteState V,
    Takes reader big s bytes { state := { s with read := { s.read with columns } } }

/-- The bytes of the rows of a response, with the columns, the vector in force and the row
before. -/
inductive SendsRows (reader : Reader (ExecuteState V)) :
    List ThinColumn → Option Bytes → Option (List V) → List (List V) → Bytes → Prop
  | done (columns : List ThinColumn) (vector : Option Bytes) (previous : Option (List V)) :
      SendsRows reader columns vector previous [] []
  | silent {columns : List ThinColumn} {vector : Option Bytes} {previous : Option (List V)}
      {rows : List (List V)} {bytes rest : Bytes}
      (hsilent : Silent reader caps.supportsBigClrChunks bytes)
      (hrest : SendsRows reader columns vector previous rows rest) :
      SendsRows reader columns vector previous rows (bytes ++ rest)
  | describe {columns columns' : List ThinColumn} {vector : Option Bytes}
      {previous : Option (List V)} {rows : List (List V)} {bytes rest : Bytes}
      (hdescribes : Describes reader caps.supportsBigClrChunks columns' bytes)
      (hrest : SendsRows reader columns' vector previous rows rest) :
      SendsRows reader columns vector previous rows (bytes ++ rest)
  | header {columns : List ThinColumn} {vector vector' : Option Bytes}
      {previous : Option (List V)} {rows : List (List V)} {rest : Bytes} (header : RowHeader)
      (hvector : VectorFits vector')
      (hrest : SendsRows reader columns vector' previous rows rest) :
      SendsRows reader columns vector previous rows
        (6 :: header.bytes vector' caps.supportsBigClrChunks ++ rest)
  | bitVector {columns : List ThinColumn} {vector : Option Bytes} {bits : Bytes}
      {previous : Option (List V)} {rows : List (List V)} {rest : Bytes} (numColumnsSent : ℕ)
      (hsent : numColumnsSent < 2 ^ 16) (hbits : bits.length = (columns.length + 7) / 8)
      (hrest : SendsRows reader columns (some bits) previous rows rest) :
      SendsRows reader columns vector previous rows
        (21 :: (writeUb8 numColumnsSent ++ bits) ++ rest)
  | row {columns : List ThinColumn} {vector : Option Bytes} {previous : Option (List V)}
      {row : List V} {rows : List (List V)} {bytes rest : Bytes}
      (hrow : SendsValues codec caps vector previous 0 columns row bytes)
      (hrest : SendsRows reader columns none (some row) rows rest) :
      SendsRows reader columns vector previous (row :: rows) (7 :: bytes ++ rest)

/-! ### Rows read back -/

variable {codec caps}
  {state : ExecuteReadState V} {vector : Option Bytes} {previous : Option (List V)}
  {columns : List ThinColumn}

/-- The values of a row are read back. -/
lemma SendsValues.readRow {index : ℕ} {values : List V} {bytes : Bytes}
    (h : SendsValues codec caps vector previous index columns values bytes)
    (hvector : state.bitVector = vector)
    (hprevious : state.rows.getLast?.or state.lastRow = previous)
    (hbinds : state.readingOutBinds = false) (cursorColumns : List (ℕ × List ThinColumn)) :
    Returns caps.supportsBigClrChunks
      (readRow codec caps state index columns cursorColumns) bytes (values, cursorColumns) := by
  induction h with
  | nil index => exact pure _
  | duplicate hclear hval _ ih =>
    rw [Thin.readRow]
    dsimp only
    rw [hvector, if_pos hclear, hbinds, if_neg Bool.false_ne_true, hprevious, hval]
    exact .pure_bind (ih.map _)
  | sent hset hval _ ih =>
    rw [Thin.readRow]
    rw [hvector, hset, hbinds]
    exact (hval cursorColumns).bind (ih.map _)

lemma processRowData_returns {row : List V} {bytes : Bytes}
    (h : SendsValues codec caps vector previous 0 columns row bytes)
    (hcols : state.columns = columns) (hvector : state.bitVector = vector)
    (hprevious : state.rows.getLast?.or state.lastRow = previous)
    (hbinds : state.readingOutBinds = false) (hret : state.readingDmlReturning = false) :
    Returns caps.supportsBigClrChunks (processRowData codec caps state) bytes
      { state with rows := state.rows ++ [row], bitVector := none } := by
  rw [processRowData, hret, hbinds, hcols]
  exact (h.readRow hvector hprevious hbinds _).map _

lemma skipBytesWithUb4Length_returns {value : Bytes} (h : value.length < 2 ^ 32) :
    Returns big Program.skipBytesWithUb4Length (writeBytesWithUb4Length value big) () := by
  rw [writeBytesWithUb4Length]
  split_ifs with hnil
  · exact (op (readUb4_yields (by norm_num))).bind_nil (.pure ())
  · refine (op (readUb4_yields h)).bind ?_
    rw [if_neg (by simpa using hnil)]
    refine (op (readBytes_yields value big)).bind_nil ?_
    rw [if_neg hnil]
    dsimp only
    rw [if_neg (lt_irrefl _)]
    exact .pure ()

lemma processRowHeader_returns (header : RowHeader)
    (hvector : VectorFits vector) (big : Bool) (state : ExecuteReadState V) :
    Returns big (processRowHeader state) (header.bytes vector big)
      { state with bitVector := vector } := by
  have hfields : Returns big (discard [.skip 1, .readUb2, .readUb4, .readUb4, .readUb2])
      ([header.flags] ++ (writeUb8 header.numRequests ++ (writeUb8 header.iterationNumber ++
        (writeUb8 header.numIters ++ (writeUb8 header.bufferLength ++ []))))) () :=
    .discard_cons (skip_yields [header.flags]) (.discard_cons (readUb2_yields header.numRequests_lt)
        (.discard_cons (readUb4_yields header.iterationNumber_lt)
          (.discard_cons (readUb4_yields header.numIters_lt)
            (.discard_cons (readUb2_yields header.bufferLength_lt) .discard_nil))))
  refine hfields.bind ?_
  cases vector with
  | none =>
    refine (op (readUb4_yields (by norm_num))).bind ?_
    exact (skipBytesWithUb4Length_returns header.rowid_length_lt).map _
  | some bits =>
    obtain ⟨hne, hlt⟩ := hvector bits rfl
    rw [writeVector, append_assoc]
    refine (op (readUb4_yields hlt)).bind ?_
    rw [if_pos (length_pos_iff.mpr hne)]
    have hbits : Returns big (skip 1 >>= fun _ =>
        some <$> Program.readRaw bits.length) ([header.repeatedLength] ++ bits) (some bits) :=
      (op (skip_yields [header.repeatedLength])).bind ((op (readRaw_yields bits)).map _)
    refine hbits.bind ?_
    exact (skipBytesWithUb4Length_returns header.rowid_length_lt).map _

lemma processBitVector_returns {numColumnsSent : ℕ} (hsent : numColumnsSent < 2 ^ 16) {bits : Bytes}
    (hbits : bits.length = (state.columns.length + 7) / 8) (big : Bool) :
    Returns big (processBitVector state) (writeUb8 numColumnsSent ++ bits)
      { state with bitVector := some bits } := by
  have hfields : Returns big (discard [.readUb2]) (writeUb8 numColumnsSent ++ []) () :=
    .discard_cons (readUb2_yields hsent) .discard_nil
  rw [append_nil] at hfields
  refine hfields.bind ?_
  rw [← hbits]
  exact (op (readRaw_yields bits)).map _

section Reader

variable {decodeText : Bytes → Except OracleThinError String} {request : StatementRequest}

/-- A message whose handler works on the rows. -/
lemma takes_onRead {messageType : UInt8} {body : Bytes}
    {handler : ExecuteReadState V → Program (ExecuteReadState V)} {s : ExecuteState V}
    {read : ExecuteReadState V} (hend : messageType ≠ tnsMsgTypeEndOfResponse)
    (hhandler : (MessageType.ofByte messageType).bind
      (executeReader decodeText caps codec request).message = some (onRead handler))
    (hbody : Returns caps.supportsBigClrChunks (handler s.read) body read) :
    Takes (executeReader decodeText caps codec request) caps.supportsBigClrChunks s
      (messageType :: body) { state := { s with read } } :=
  ⟨messageType, body, onRead handler, rfl, hend, hhandler, hbody.map _⟩

/-- The state in front of the rows of a response. -/
structure ReadsRows (s : ExecuteState V) (columns : List ThinColumn) (vector : Option Bytes)
    (previous : Option (List V)) : Prop where
  columns : s.read.columns = columns
  vector : s.read.bitVector = vector
  previous : s.read.rows.getLast?.or s.read.lastRow = previous
  outBinds : s.read.readingOutBinds = false
  returning : s.read.readingDmlReturning = false

/-- **The rows of a response are read back**, with those columns taken from the row before that
were not sent. -/
theorem SendsRows.takesAll {rows : List (List V)} {bytes : Bytes}
    (h : SendsRows codec caps (executeReader decodeText caps codec request) columns vector previous
      rows bytes) {s : ExecuteState V} (hs : ReadsRows s columns vector previous) :
    ∃ t : ExecuteState V, TakesAll (executeReader decodeText caps codec request)
        caps.supportsBigClrChunks s bytes t ∧
      t.read.rows = s.read.rows ++ rows ∧ t.read.cursorId = s.read.cursorId ∧
      t.read.exhausted = s.read.exhausted ∧ t.pendingError = s.pendingError := by
  induction h generalizing s with
  | done columns vector previous =>
    exact ⟨s, .nil s, (append_nil _).symm, rfl, rfl, rfl⟩
  | silent hsilent _ ih =>
    obtain ⟨server, htakes⟩ := hsilent s
    obtain ⟨t, hall, hrest⟩ := ih (s := { s with server }) ⟨hs.1, hs.2, hs.3, hs.4, hs.5⟩
    exact ⟨t, .cons htakes hall, hrest⟩
  | @describe columns columns' _ _ _ _ _ hdescribes _ ih =>
    obtain ⟨t, hall, hrest⟩ := ih (s := { s with read := { s.read with columns := columns' } })
      ⟨rfl, hs.2, hs.3, hs.4, hs.5⟩
    exact ⟨t, .cons (hdescribes s) hall, hrest⟩
  | @header _ _ vector' _ _ _ header hvector _ ih =>
    obtain ⟨t, hall, hrest⟩ := ih (s := { s with read := { s.read with bitVector := vector' } })
      ⟨hs.1, rfl, hs.3, hs.4, hs.5⟩
    refine ⟨t, .cons (takes_onRead (by decide) rfl ?_) hall, hrest⟩
    exact processRowHeader_returns header hvector _ s.read
  | @bitVector _ _ bits _ _ _ numColumnsSent hsent hbits _ ih =>
    obtain ⟨t, hall, hrest⟩ := ih (s := { s with read := { s.read with bitVector := some bits } })
      ⟨hs.1, rfl, hs.3, hs.4, hs.5⟩
    refine ⟨t, .cons (takes_onRead (by decide) rfl ?_) hall, hrest⟩
    exact processBitVector_returns hsent (by rw [hs.columns]; exact hbits) _
  | @row _ _ _ row rows _ _ hrow _ ih =>
    obtain ⟨t, hall, hrows, hrest⟩ := ih
      (s := { s with read := { s.read with rows := s.read.rows ++ [row], bitVector := none } })
      ⟨hs.1, rfl, by simp, hs.4, hs.5⟩
    refine ⟨t, .cons (takes_onRead (by decide) rfl ?_) hall, ?_, hrest⟩
    · exact processRowData_returns hrow hs.columns hs.vector hs.previous hs.outBinds hs.returning
    · rw [hrows, append_assoc]
      rfl

/-! ### Responses to a cursor -/

/-- The state behind the message that ends a call: the cursor it names, none being 0, and whether
there are no rows left. -/
def ExecuteState.ended (s : ExecuteState V) (server : ServerSidePiggybackState) (id : ℕ)
    (noDataFound : Bool) : ExecuteState V :=
  { s with
    server
    read :=
      { s.read with
        cursorId := if id = 0 then s.read.cursorId else some id
        exhausted := s.read.exhausted || noDataFound } }

/-- The message that ends a call. -/
def EndsCall (reader : Reader (ExecuteState V)) (caps : OracleThinCapabilities) (id : ℕ)
    (noDataFound : Bool) (bytes : Bytes) : Prop :=
  ∀ s : ExecuteState V, ∃ server, Takes reader caps.supportsBigClrChunks s bytes
    { state := s.ended server id noDataFound, done := !caps.supportsEndOfResponse }

lemma readSb2_zero : Yields big readSb2 [0] 0 :=
  (readU8_yields 0).bind_nil (Yields.pure 0)

/-- The zero bytes that a call reads. -/
def zeros : Op → Bytes
  | .skip len => replicate len 0
  | _ => [0]

/-- Calls that read nothing but zeros. -/
lemma discard_zeros (ops : List Op)
    (hops : ∀ op ∈ ops, op = .readUb2 ∨ op = .readUb4 ∨ ∃ len, op = .skip len) :
    Returns big (discard ops) (ops.flatMap zeros) () := by
  induction ops with
  | nil => exact .discard_nil
  | cons op ops ih =>
    rw [forall_mem_cons] at hops
    have hop : ∃ value, Yields big op.run (zeros op) value := by
      rcases hops.1 with rfl | rfl | ⟨len, rfl⟩
      · exact ⟨0, readUb2_yields (n := 0) (by norm_num)⟩
      · exact ⟨0, readUb4_yields (n := 0) (by norm_num)⟩
      · have hskip : Yields big (skip (zeros (.skip len)).length) (zeros (.skip len)) () :=
          skip_yields _
        rw [zeros, length_replicate] at hskip
        exact ⟨(), hskip⟩
    obtain ⟨value, hval⟩ := hop
    exact .discard_cons hval (ih hops.2)

/-- The message that ends a call of a current server, zero where nothing is to be reported. -/
def endOfCall (caps : OracleThinCapabilities) (id : ℕ) (noDataFound : Bool) : Bytes :=
  4 :: ([0] ++ ([0, 0, 0, 0, 0] ++ (writeUb8 id ++ ([0] ++ ([0, 0, 0, 0, 0] ++ ([0] ++
    ([0, 0, 0, 0, 0, 0, 0, 0, 0, 0] ++ ([0] ++ ([0] ++ ([0] ++ ([0] ++
      (writeUb8 (if noDataFound then tnsErrNoDataFound else 0) ++ ([0] ++
        ((if tnsCcapFieldVersion20_1 ≤ caps.ttcFieldVersion then [0, 0] else []) ++
          (if noDataFound then [0] else [])))))))))))))))

def endOfCallError (id : ℕ) (noDataFound : Bool) (message : Option String) : ExecuteError where
  code := if noDataFound then tnsErrNoDataFound else 0
  errorPos := 0
  cursorId := id
  callStatus := 0
  rowcount := 0
  message
  warning := none

variable {id : ℕ}

lemma processExecuteError_endOfCall (hcaps : caps.legacyNullClr = false) (hid : id < 2 ^ 16)
    (noDataFound : Bool) :
    ∃ message, Returns caps.supportsBigClrChunks (processExecuteError caps)
      (endOfCall caps id noDataFound).tail (endOfCallError id noDataFound message) := by
  have hzero4 : Returns caps.supportsBigClrChunks Program.readUb4 [0] 0 :=
    .op (readUb4_yields (n := 0) (by norm_num))
  have hzero2 : Returns caps.supportsBigClrChunks Program.readUb2 [0] 0 :=
    .op (readUb2_yields (n := 0) (by norm_num))
  have hcode : (if noDataFound then tnsErrNoDataFound else 0) < 2 ^ 32 := by
    cases noDataFound with
    | true => decide
    | false => norm_num
  have hmessage : ∃ message, Returns caps.supportsBigClrChunks
      (executeErrorMessage (if noDataFound then tnsErrNoDataFound else 0))
      (if noDataFound then [0] else []) message := by
    cases noDataFound with
    | true =>
      have hstr : Returns caps.supportsBigClrChunks Program.readStr [0] none :=
        bind_nil (.op (readBytes_yields [] _)) (.pure none)
      exact ⟨_, hstr.bind_nil (pure _)⟩
    | false => exact ⟨none, .pure none⟩
  have hskip : Returns caps.supportsBigClrChunks Program.skipBytesWithUb4Length [0] () :=
    skipBytesWithUb4Length_returns (show ([] : Bytes).length < 2 ^ 32 by norm_num)
  have hmsgs : Returns caps.supportsBigClrChunks skipBatchMessages [0] () :=
    hzero2.bind_nil (.pure ())
  have hzero8 : Returns caps.supportsBigClrChunks Program.readUb8 [0] 0 :=
    .op (readUb8_yields (n := 0) (by norm_num))
  obtain ⟨message, hmessage⟩ := hmessage
  refine ⟨message, ?_⟩
  rw [processExecuteError, hcaps]
  refine hzero4.bind ?_
  refine (discard_zeros [.readUb2, .readUb4, .readUb2, .readUb2, .readUb2] (by simp)).bind ?_
  refine (op (readUb2_yields hid)).bind ?_
  refine (op readSb2_zero).bind ?_
  refine (op (skip_yields [0, 0, 0, 0, 0])).bind ?_
  refine (op (readU8_yields 0)).bind ?_
  refine (discard_zeros [.readUb4, .readUb2, .skip 1, .readUb4, .readUb2, .readUb4, .skip 2,
    .readUb2, .readUb4] (by simp)).bind ?_
  refine hskip.bind (hzero2.bind (.pure_bind (hzero4.bind (.pure_bind (hmsgs.bind ?_)))))
  refine (op (readUb4_yields hcode)).bind (hzero8.bind ?_)
  by_cases hversion : tnsCcapFieldVersion20_1 ≤ caps.ttcFieldVersion
  · rw [if_pos hversion, if_pos hversion]
    exact (discard_zeros [.readUb4, .readUb4] (by simp)).bind (hmessage.map _)
  · rw [if_neg hversion, if_neg hversion]
    exact hmessage.map _

lemma endsCall_endOfCall (hcaps : caps.legacyNullClr = false) (hquery : request.isQuery)
    (hid : id < 2 ^ 16) (noDataFound : Bool) :
    EndsCall (executeReader decodeText caps codec request) caps id noDataFound
      (endOfCall caps id noDataFound) := by
  intro s
  obtain ⟨message, herror⟩ := processExecuteError_endOfCall hcaps hid noDataFound
  refine ⟨noteError caps s.server (endOfCallError id noDataFound message), 4, _, _, rfl, by decide,
    rfl, herror.bind_nil ?_⟩
  rw [hquery, ExecuteState.ended]
  cases noDataFound with
  | true =>
    rw [Bool.or_true]
    cases id with
    | zero | succ id => exact .pure _
  | false =>
    rw [Bool.or_false]
    cases id with
    | zero | succ id => exact .pure _

/-- How the bytes of the rows and of the end of the call reach the client. -/
inductive Delivers (caps : OracleThinCapabilities) (stream : List DataPacket) (rows call : Bytes) :
    Prop
  | call {rest : Bytes} (hcaps : caps.supportsEndOfResponse = false)
      (hstream : deliverable stream = rows ++ (call ++ rest))
  | endOfResponse {rest : Bytes} (hcaps : caps.supportsEndOfResponse = true)
      (hstream : deliverable stream = rows ++ call ++ tnsMsgTypeEndOfResponse :: rest)
  | flagged (hcaps : caps.supportsEndOfResponse = true)
      (hstream : deliverable stream = rows ++ call) (hflagged : flagged stream = true)

/-- A response with some rows of a cursor, the last of its responses or not. -/
structure Answers (codec : ValueCodec V) (caps : OracleThinCapabilities)
    (reader : Reader (ExecuteState V)) (columns : List ThinColumn) (previous : Option (List V))
    (cursorId : ℕ) (rows : List (List V)) (final : Bool) (stream : List DataPacket) : Prop where
  sends : ∃ rowBytes callBytes id noDataFound,
    SendsRows codec caps reader columns none previous rows rowBytes ∧
    EndsCall reader caps id noDataFound callBytes ∧
    Delivers caps stream rowBytes callBytes ∧
    (if final then (id = 0 ∨ id = cursorId ∧ noDataFound = true)
      else id = cursorId ∧ noDataFound = false)
  cursorId_ne_zero : cursorId ≠ 0

/-- A response is read up to its end. -/
lemma SendsRows.complete {rows : List (List V)} {rowBytes callBytes : Bytes} {noDataFound : Bool}
    {stream : List DataPacket}
    (hrows : SendsRows codec caps (executeReader decodeText caps codec request) columns none
      previous rows rowBytes)
    (hcall : EndsCall (executeReader decodeText caps codec request) caps id noDataFound callBytes)
    (hdelivers : Delivers caps stream rowBytes callBytes) {s : ExecuteState V}
    (hs : ReadsRows s columns none previous) :
    ∃ t : ExecuteState V, Complete (executeReader decodeText caps codec request)
        caps.supportsBigClrChunks s stream t ∧
      t.read.rows = s.read.rows ++ rows ∧
      t.read.cursorId = (if id = 0 then s.read.cursorId else some id) ∧
      t.read.exhausted = (s.read.exhausted || noDataFound) ∧ t.pendingError = s.pendingError := by
  obtain ⟨t, hall, hread, hcursor, hexhausted, herror⟩ := hrows.takesAll hs
  obtain ⟨server, htakes⟩ := hcall t
  have hne : callBytes ≠ [] := by
    obtain ⟨messageType, body, handler, rfl, -⟩ := htakes
    simp
  refine ⟨t.ended server id noDataFound, ?_, hread, ?_, ?_, herror⟩
  rotate_left
  · rw [ExecuteState.ended, hcursor]
  · rw [ExecuteState.ended, hexhausted]
  cases hdelivers with
  | call hcaps hstream =>
    rw [hcaps] at htakes
    exact .done hall htakes hstream
  | endOfResponse hcaps hstream =>
    rw [hcaps] at htakes
    exact .endOfResponse (hall.append htakes.takesAll) (by simp [hne]) hstream
  | flagged hcaps hstream hflagged =>
    rw [hcaps] at htakes
    exact .flagged (hall.append htakes.takesAll) (by simp [hne]) hstream hflagged

end Reader

end Rows

/-! ### The session -/

/-- What a call returns of a query. -/
structure QueryResult (V : Type) where
  cursorId : Option ℕ
  exhausted : Bool
  rows : List (List V)

def ExecuteState.queryResult {V : Type} (s : ExecuteState V) (request : StatementRequest) :
    QueryResult V where
  cursorId := if request.isQuery then s.read.cursorId
    else s.read.cursorId.filter fun _ => !s.read.exhausted
  exhausted := s.read.exhausted || !request.isQuery
  rows := s.read.rows

/-- `OracleThinError::cursor_id`. -/
def OracleThinError.cursorId : OracleThinError → Option ℕ
  | .oracle _ (some (cursorId, _, _)) => cursorId
  | _ => none

/-- The last rows that `OracleThinSession` remembers. -/
structure FetchSession (V : Type) where
  lastRowsByCursor : ℕ → Option (List V) := fun _ => none

open FetchSession

/-- `StatementRequest::query` for a fetch. -/
def fetchRequest : StatementRequest where
  isQuery := true
  isPlsql := false
  isDmlReturning := false
  binds := []
  bindRows := 0

/-- The calls that read rows of a cursor, with the bytes the connection delivers to them. -/
inductive Call where
  | execute (request : StatementRequest) (server : ServerSidePiggybackState) (skip : Bool)
      (stream : List DataPacket)
  | fetchRefCursorBatch (cursorId : ℕ) (columns : List ThinColumn)
      (server : ServerSidePiggybackState) (skip : Bool) (stream : List DataPacket)

namespace FetchSession

variable {V : Type} (decodeText : Bytes → Except OracleThinError String)
  (caps : OracleThinCapabilities) (codec : ValueCodec V)
  (s : FetchSession V)

def remove (cursorId : ℕ) : FetchSession V :=
  ⟨update s.lastRowsByCursor cursorId none⟩

/-- What `close_cursor_later` does to the last rows. -/
def closeCursorLater : Option ℕ → FetchSession V
  | none => s
  | some cursorId => s.remove cursorId

def rememberLastRowForOpenFetch (result : QueryResult V) : FetchSession V :=
  match result.cursorId with
  | none => s
  | some cursorId =>
    if result.exhausted then s.remove cursorId
    else
      match result.rows.getLast? with
      | some row => ⟨update s.lastRowsByCursor cursorId (some row)⟩
      | none => s

/-- `execute_typed` and the other execute calls, or `fetch_ref_cursor_batch`. Locators in the rows
are resolved in between, which leaves plain values as they are. -/
def call : Call → Except OracleThinError (QueryResult V) × FetchSession V
  | .execute request server skip stream =>
    match (readExecuteResponseWithState decodeText caps codec request server {} skip stream).1 with
    | .error e => (.error e, s.closeCursorLater e.cursorId)
    | .ok state =>
      (.ok (state.queryResult request), s.rememberLastRowForOpenFetch (state.queryResult request))
  | .fetchRefCursorBatch cursorId columns server skip stream =>
    let state : ExecuteReadState V := { columns, lastRow := s.lastRowsByCursor cursorId }
    match (readExecuteResponseWithState decodeText caps codec fetchRequest server state skip
        stream).1 with
    | .error e => (.error e, (s.closeCursorLater e.cursorId).remove cursorId)
    | .ok state =>
      let result := state.queryResult fetchRequest
      (.ok result,
        if result.exhausted || result.cursorId.isNone then s.remove cursorId
        else s.rememberLastRowForOpenFetch result)

lemma rememberLastRow_open {s : FetchSession V} {result : QueryResult V} {cursorId : ℕ}
    {before : List (List V)} (hcursor : result.cursorId = some cursorId)
    (hopen : result.exhausted = false) (hbefore : s.lastRowsByCursor cursorId = before.getLast?) :
    (s.rememberLastRowForOpenFetch result).lastRowsByCursor
      = update s.lastRowsByCursor cursorId (before ++ result.rows).getLast? := by
  rw [rememberLastRowForOpenFetch, hcursor]
  dsimp only
  rw [hopen, if_neg Bool.false_ne_true, getLast?_append]
  cases result.rows.getLast? with
  | some row => rfl
  | none =>
    rw [Option.none_or, ← hbefore, update_eq_self]

lemma rememberLastRow_closed {s : FetchSession V} {result : QueryResult V} {cursorId : ℕ}
    (hclosed : result.cursorId = none ∨ result.cursorId = some cursorId ∧ result.exhausted)
    (hbefore : s.lastRowsByCursor cursorId = none) :
    (s.rememberLastRowForOpenFetch result).lastRowsByCursor
      = update s.lastRowsByCursor cursorId none := by
  rw [rememberLastRowForOpenFetch]
  obtain hcursor | ⟨hcursor, hexhausted⟩ := hclosed
  · rw [hcursor, ← hbefore, update_eq_self]
  · rw [hcursor]
    dsimp only
    rw [hexhausted]
    rfl

end FetchSession

/-! ### Conversations -/

/-- A call with what the server answers: for which cursor, which of its rows, and whether these are
its last. -/
structure Exchange (V : Type) where
  call : Call
  cursorId : ℕ
  rows : List (List V)
  final : Bool

/-- What happens to cursors: a call is answered, the server hands out a REF CURSOR, or a cursor is
closed. -/
inductive Action (V : Type) where
  | exchange (e : Exchange V)
  | openRefCursor (cursorId : ℕ)
  | close (cursorId : ℕ)

/-- The session, and for each open cursor the rows the server has sent. -/
structure Conversation (V : Type) where
  session : FetchSession V := {}
  sent : ℕ → Option (List (List V)) := fun _ => none

namespace Conversation

variable {V : Type} (decodeText : Bytes → Except OracleThinError String)
  (caps : OracleThinCapabilities) (codec : ValueCodec V)

variable (s : Conversation V)

def step : Action V → Conversation V
  | .exchange e =>
    { session := (s.session.call decodeText caps codec e.call).2
      sent := update s.sent e.cursorId
        (if e.final then none else some ((s.sent e.cursorId).getD [] ++ e.rows)) }
  | .openRefCursor cursorId => { s with sent := update s.sent cursorId (some []) }
  | .close cursorId =>
    { session := s.session.closeCursorLater (some cursorId)
      sent := update s.sent cursorId none }

/-- The server sends the rows of a cursor in order, the columns that equal the row before or
not. -/
def Served : Action V → Prop
  | .exchange e =>
    match e.call with
    | .execute request _ _ stream =>
      request.isQuery = true ∧ request.isDmlReturning = false ∧ s.sent e.cursorId = none ∧
        Answers codec caps (executeReader decodeText caps codec request) [] none e.cursorId
          e.rows e.final stream
    | .fetchRefCursorBatch cursorId columns _ _ stream =>
      cursorId = e.cursorId ∧ ∃ rows, s.sent e.cursorId = some rows ∧
        Answers codec caps (executeReader decodeText caps codec fetchRequest) columns
          rows.getLast? e.cursorId e.rows e.final stream
  | .openRefCursor cursorId => s.sent cursorId = none
  | .close _ => True

/-- The last row sent is the one remembered. -/
def Remembers : Prop :=
  ∀ cursorId, s.session.lastRowsByCursor cursorId = (s.sent cursorId).bind getLast?

variable {decodeText caps codec} {final : Bool} {rows : List (List V)} {stream : List DataPacket}

/-- A response to a query is read: its rows, and the end of the call. -/
lemma readExecuteResponse_answers {request : StatementRequest} {columns : List ThinColumn}
    {previous : Option (List V)} {cursorId : ℕ} (hquery : request.isQuery)
    (hret : request.isDmlReturning = false)
    (hanswers : Answers codec caps (executeReader decodeText caps codec request) columns previous
      cursorId rows final stream) (server : ServerSidePiggybackState) (skip : Bool) :
    ∃ t : ExecuteState V, (readExecuteResponseWithState decodeText caps codec request server
        { columns, lastRow := previous } skip stream).1 = .ok t ∧
      (t.queryResult request).rows = rows ∧
      if final then
        (t.queryResult request).cursorId = none ∨
          (t.queryResult request).cursorId = some cursorId ∧ (t.queryResult request).exhausted
      else (t.queryResult request).cursorId = some cursorId ∧
        (t.queryResult request).exhausted = false := by
  obtain ⟨⟨rowBytes, callBytes, id, noDataFound, hrows, hcall, hdelivers, hfinal⟩, hne⟩ := hanswers
  let read : ExecuteReadState V := { columns, lastRow := previous }
  have hforRequest : read.forRequest request = read := by
    rw [ExecuteReadState.forRequest, hret, Bool.false_and, if_neg Bool.false_ne_true]
  let s : ExecuteState V := { read, server := { server with lastWarning := none } }
  have hs : ReadsRows s columns none previous := ⟨rfl, rfl, rfl, rfl, rfl⟩
  obtain ⟨t, hcomplete, htrows, htcursor, htexhausted, hterror⟩ := hrows.complete hcall hdelivers hs
  have hrowsEq : (t.queryResult request).rows = rows := htrows.trans (nil_append rows)
  have hcursor : (t.queryResult request).cursorId = if id = 0 then none else some id := by
    rw [ExecuteState.queryResult, hquery]
    exact htcursor
  have hexhausted : (t.queryResult request).exhausted = noDataFound := by
    rw [ExecuteState.queryResult, hquery, htexhausted, Bool.not_true, Bool.or_false]
    exact Bool.false_or _
  refine ⟨t, ?_, hrowsEq, ?_⟩
  · have hresponse := readResponse_complete (executeReader decodeText caps codec request)
      caps.toCursorCapabilities skip hcomplete
    rw [readExecuteResponseWithState, hforRequest]
    rw [hresponse]
    change t.result = .ok t
    rw [ExecuteState.result, hterror]
  · rw [hcursor, hexhausted]
    split_ifs at hfinal ⊢ with hlastOne hid
    · exact .inl rfl
    · obtain hid' | ⟨rfl, hdata⟩ := hfinal
      · exact absurd hid' hid
      · exact .inr ⟨rfl, hdata⟩
    · next hzeroId => exact absurd (hfinal.1.symm.trans hzeroId) hne
    · exact ⟨congrArg some hfinal.1, hfinal.2⟩

variable {s : Conversation V}

/-- A call that updates the last row of the cursor as the server goes on. -/
lemma Remembers.exchange (h : s.Remembers) (e : Exchange V)
    (hsession : (s.session.call decodeText caps codec e.call).2.lastRowsByCursor
      = update s.session.lastRowsByCursor e.cursorId
        (if e.final then none else ((s.sent e.cursorId).getD [] ++ e.rows).getLast?)) :
    (s.step decodeText caps codec (.exchange e)).Remembers := by
  intro id
  rw [step]
  dsimp only
  rw [hsession]
  by_cases hid : id = e.cursorId
  · rw [hid, update_self, update_self]
    split_ifs
    · rfl
    · rfl
  · rw [update_of_ne hid, update_of_ne hid]
    exact h id

variable (decodeText caps codec) in
/-- The call returns the rows of the exchange. -/
def Exact (s : Conversation V) (e : Exchange V) : Prop :=
  ∃ result, (s.session.call decodeText caps codec e.call).1 = .ok result ∧ result.rows = e.rows

/-- A call that is answered returns the rows that were sent, and the last of them is
remembered. -/
lemma exchange_exact (h : s.Remembers) {e : Exchange V}
    (hserved : s.Served decodeText caps codec (.exchange e)) :
    s.Exact decodeText caps codec e ∧ (s.step decodeText caps codec (.exchange e)).Remembers := by
  rcases e with
    ⟨⟨request, server, skip, stream⟩ | ⟨id, columns, server, skip, stream⟩, cursorId, rows, final⟩
  · obtain ⟨hquery, hret, hsent, hanswers⟩ := hserved
    have hbefore := h cursorId
    rw [hsent] at hbefore
    obtain ⟨t, hread, hrows, hend⟩ :=
      readExecuteResponse_answers hquery hret hanswers server skip
    have hcall : s.session.call decodeText caps codec (.execute request server skip stream)
        = (.ok (t.queryResult request),
          s.session.rememberLastRowForOpenFetch (t.queryResult request)) := by
      rw [call, hread]
    refine ⟨⟨t.queryResult request, by rw [hcall], hrows⟩, h.exchange _ ?_⟩
    rw [hcall, hsent]
    cases final with
    | true => exact rememberLastRow_closed hend hbefore
    | false =>
      have hempty : s.session.lastRowsByCursor cursorId = ([] : List (List V)).getLast? := hbefore
      have hopen := rememberLastRow_open hend.1 hend.2 hempty
      rwa [hrows] at hopen
  · obtain ⟨rfl, before, hsent, hanswers⟩ := hserved
    have hbefore := h id
    rw [hsent] at hbefore
    obtain ⟨t, hread, hrows, hend⟩ := readExecuteResponse_answers rfl rfl hanswers server skip
    have hcall : s.session.call decodeText caps codec
        (.fetchRefCursorBatch id columns server skip stream)
        = (.ok (t.queryResult fetchRequest),
          if (t.queryResult fetchRequest).exhausted
              || (t.queryResult fetchRequest).cursorId.isNone then
            s.session.remove id
          else s.session.rememberLastRowForOpenFetch (t.queryResult fetchRequest)) := by
      rw [call, hbefore]
      dsimp only [Option.bind_some]
      rw [hread]
    refine ⟨⟨t.queryResult fetchRequest, by rw [hcall], hrows⟩, h.exchange _ ?_⟩
    rw [hcall, hsent]
    cases final with
    | true =>
      have hclosed : ((t.queryResult fetchRequest).exhausted
          || (t.queryResult fetchRequest).cursorId.isNone) := by
        obtain hcursor | ⟨-, hexhausted⟩ := hend
        · rw [hcursor, Option.isNone_none, Bool.or_true]
        · rw [hexhausted, Bool.true_or]
      rw [if_pos hclosed]
      rfl
    | false =>
      obtain ⟨hcursor, hexhausted⟩ := hend
      rw [hexhausted, hcursor, ← hrows]
      exact rememberLastRow_open hcursor hexhausted hbefore

/-- **A step keeps the last rows.** -/
lemma Remembers.step (h : s.Remembers) {action : Action V}
    (hserved : s.Served decodeText caps codec action) :
    (s.step decodeText caps codec action).Remembers := by
  cases action with
  | exchange e => exact (exchange_exact h hserved).2
  | openRefCursor cursorId =>
    intro id
    change s.session.lastRowsByCursor id = (update s.sent cursorId (some []) id).bind _
    have hid := h id
    by_cases heq : id = cursorId
    · rw [heq] at hid ⊢
      rw [hserved] at hid
      rw [hid, update_self]
      rfl
    · rw [update_of_ne heq]
      exact hid
  | close cursorId =>
    intro id
    change update s.session.lastRowsByCursor cursorId none id
      = (update s.sent cursorId none id).bind _
    by_cases heq : id = cursorId
    · rw [heq, update_self, update_self]
      rfl
    · rw [update_of_ne heq, update_of_ne heq]
      exact h id

/-- The rows that the server sends for a cursor. -/
def cursorRows (cursorId : ℕ) : List (Action V) → List (List V)
  | [] => []
  | .exchange e :: actions =>
    (if e.cursorId = cursorId then e.rows else []) ++ cursorRows cursorId actions
  | _ :: actions => cursorRows cursorId actions

variable (decodeText caps codec) in
/-- The rows that a call returns, none if it fails. -/
def callRows (s : Conversation V) (call : Call) : List (List V) :=
  match (s.session.call decodeText caps codec call).1 with
  | .ok result => result.rows
  | .error _ => []

variable (decodeText caps codec) in
/-- The rows that the calls for a cursor return. -/
def returnedRows (cursorId : ℕ) : Conversation V → List (Action V) → List (List V)
  | _, [] => []
  | s, .exchange e :: actions =>
    (if e.cursorId = cursorId then s.callRows decodeText caps codec e.call else []) ++
      returnedRows cursorId (s.step decodeText caps codec (.exchange e)) actions
  | s, .openRefCursor id :: actions =>
    returnedRows cursorId (s.step decodeText caps codec (.openRefCursor id)) actions
  | s, .close id :: actions =>
    returnedRows cursorId (s.step decodeText caps codec (.close id)) actions

/-- The calls for a cursor return its rows, whatever is done for others in between. -/
lemma returnedRows_eq (cursorId : ℕ) (h : s.Remembers) {actions : List (Action V)}
    (hserved : ∀ v ∈ visits (Conversation.step decodeText caps codec) s actions,
      Served decodeText caps codec v.1 v.2) :
    returnedRows decodeText caps codec cursorId s actions = cursorRows cursorId actions := by
  induction actions generalizing s with
  | nil => rfl
  | cons action actions ih =>
    rw [visits_cons, forall_mem_cons] at hserved
    have hrest := ih (h.step hserved.1) hserved.2
    cases action with
    | exchange e =>
      obtain ⟨⟨result, hres, hrows⟩, -⟩ := exchange_exact h hserved.1
      rw [returnedRows, hrest, cursorRows, callRows, hres]
      dsimp only
      rw [hrows]
    | openRefCursor id => exact hrest
    | close id => exact hrest

/-- **Leaving out columns that equal the row before is invisible**: with the calls for any number of
cursors interleaved, every call returns the rows that the server sent, and the calls for a cursor
together return the rows of that cursor. -/
theorem fetches_exact (decodeText : Bytes → Except OracleThinError String)
    (caps : OracleThinCapabilities) (codec : ValueCodec V) (actions : List (Action V))
    (hserved : ∀ v ∈ visits (step decodeText caps codec) {} actions,
      Served decodeText caps codec v.1 v.2) :
    (∀ v ∈ visits (step decodeText caps codec) {} actions, ∀ e, v.2 = .exchange e →
        v.1.Exact decodeText caps codec e) ∧
      ∀ cursorId, returnedRows decodeText caps codec cursorId {} actions
        = cursorRows cursorId actions := by
  have hstart : Remembers ({} : Conversation V) := fun _ => rfl
  have hvisits := (visits_invariant_of (P := Remembers) (Q := Served decodeText caps codec)
    (fun s action hserved h => h.step hserved) hstart hserved).2
  refine ⟨fun v hv e he => ?_, fun cursorId => returnedRows_eq cursorId hstart hserved⟩
  have hserved' := hserved v hv
  rw [he] at hserved'
  exact (exchange_exact (hvisits v hv) hserved').1

/-! ### Two cursors -/

/-- Values that are kept as their bytes. -/
def bytesCodec : ValueCodec Bytes where
  null := []
  isNull := isEmpty
  boolean b := [b.toUInt8]
  lob := id
  array := flatten
  refCursor _ _ := []
  physicalRowid _ _ _ _ := []
  field _ := .ok
  urowid := .ok
  json := .ok
  vector := .ok
  xml := .ok
  object _ := .ok

def textColumn : ThinColumn where
  name := "NAME"
  columnType := .varchar
  precision := 0
  scale := 0
  oraTypeNum := 1
  charsetForm := 1
  bufferSize := 10
  schemaName := ""
  typeName := ""
  jsonEncoding := .none

def plainHeader : RowHeader where
  flags := 0
  numRequests := 1
  iterationNumber := 0
  numIters := 1
  bufferLength := 0
  repeatedLength := 0
  rowid := []
  numRequests_lt := by decide
  iterationNumber_lt := by decide
  numIters_lt := by decide
  bufferLength_lt := by decide
  rowid_length_lt := by decide

/-- A row of two texts. -/
def fullRow (first second : UInt8) : Bytes :=
  6 :: plainHeader.bytes none true ++ (7 :: ([1, first] ++ ([1, second] ++ [])) ++ [])

/-- A row whose first text is that of the row before. -/
def halfRow (second : UInt8) : Bytes :=
  6 :: plainHeader.bytes (some [0b10]) true ++ (7 :: ([1, second] ++ []) ++ [])

/-- A response in two packets. -/
def inPackets (rows call : Bytes) : List DataPacket :=
  [⟨0, rows⟩, ⟨0, call ++ [tnsMsgTypeEndOfResponse]⟩]

lemma inPackets_delivers (rows call : Bytes) :
    Delivers currentCaps (inPackets rows call) rows call := by
  refine .endOfResponse rfl (?_ : _ = rows ++ call ++ tnsMsgTypeEndOfResponse :: [])
  have hflags : endFlags 0 = false := by decide
  simp [inPackets, deliverable, hflags]

def fetchOf (cursorId : ℕ) (stream : List DataPacket) : Call :=
  .fetchRefCursorBatch cursorId [textColumn, textColumn] {} false stream

/-- Two REF CURSORs that are fetched in turn. -/
def interleaved : List (Action Bytes) :=
  [.openRefCursor 5, .openRefCursor 6,
    .exchange ⟨fetchOf 5 (inPackets (fullRow 97 98) (endOfCall currentCaps 5 false)), 5,
      [[[97], [98]]], false⟩,
    .exchange ⟨fetchOf 6 (inPackets (fullRow 120 121) (endOfCall currentCaps 6 true)), 6,
      [[[120], [121]]], true⟩,
    .exchange ⟨fetchOf 5 (inPackets (halfRow 99) (endOfCall currentCaps 5 true)), 5,
      [[[97], [99]]], true⟩]

section

variable {reader : Reader (ExecuteState Bytes)}

lemma decodes_text (byte : UInt8) : Decodes bytesCodec currentCaps textColumn [1, byte] [byte] := by
  have hne : [byte] ≠ [] := cons_ne_nil _ _
  have hfield : bytesCodec.field textColumn [byte] = .ok [byte] := rfl
  exact decodes_field rfl (show textColumn.bufferSize ≠ 0 by decide) hne hfield

lemma sendsRows_fullRow (previous : Option (List Bytes)) (first second : UInt8) :
    SendsRows bytesCodec currentCaps reader [textColumn, textColumn] none previous
      [[[first], [second]]] (fullRow first second) :=
  .header plainHeader (by simp [VectorFits])
    (.row (.sent rfl (decodes_text first) (.sent rfl (decodes_text second) (.nil 2))) (.done _ _ _))

lemma sendsRows_halfRow (first second before : UInt8) :
    SendsRows bytesCodec currentCaps reader [textColumn, textColumn] none
      (some [[first], [before]]) [[[first], [second]]] (halfRow second) :=
  .header plainHeader (by simp [VectorFits])
    (.row (.duplicate rfl rfl (.sent rfl (decodes_text second) (.nil 2))) (.done _ _ _))

end

theorem fetches_exact_interleaved :
    returnedRows (fun _ => .ok "") currentCaps bytesCodec 5 {} interleaved
        = [[[97], [98]], [[97], [99]]] ∧
      returnedRows (fun _ => .ok "") currentCaps bytesCodec 6 {} interleaved
        = [[[120], [121]]] := by
  have hexact := fetches_exact (fun _ => .ok "") currentCaps bytesCodec interleaved (by
    simp only [interleaved, visits_cons, visits_nil, forall_mem_cons]
    refine ⟨rfl, rfl, ⟨rfl, [], rfl, ⟨⟨_, _, 5, false, sendsRows_fullRow _ 97 98,
      endsCall_endOfCall rfl rfl (by decide) false, inPackets_delivers _ _, rfl, rfl⟩, by decide⟩⟩,
      ⟨rfl, [], rfl, ⟨⟨_, _, 6, true, sendsRows_fullRow _ 120 121,
        endsCall_endOfCall rfl rfl (by decide) true, inPackets_delivers _ _, .inr ⟨rfl, rfl⟩⟩,
        by decide⟩⟩,
      ⟨rfl, [[[97], [98]]], rfl, ⟨⟨_, _, 5, true, sendsRows_halfRow 97 99 98,
        endsCall_endOfCall rfl rfl (by decide) true, inPackets_delivers _ _, .inr ⟨rfl, rfl⟩⟩,
        by decide⟩⟩, by simp⟩)
  exact ⟨(hexact.2 5).trans rfl, (hexact.2 6).trans rfl⟩

end Conversation

end SpaceQuery.Thin
