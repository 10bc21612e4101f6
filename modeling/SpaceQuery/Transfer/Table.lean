import SpaceQuery.Lib.RustText

/-!
Result tables on their way to a file and back: `ExportGrid` of `ui/result_export.rs` and
`ImportedTable`, `parse` and `validate` of `ui/result_import.rs`.

`parse` strips one byte-order mark, hands the text to the reader of the chosen format and
validates what it read; the readers are in the modules of their formats.
-/

namespace SpaceQuery.Transfer

open List RustText

/-- Text as its characters. -/
abbrev Text := List Char

/-- The text of a cell, or SQL NULL. -/
abbrev Cell := Option Text

/-- The rows and columns to export, without the literal kinds that only JSON reads. -/
structure ExportGrid where
  columns : List Text
  rows : List (List Cell)
  nullText : Text
  deriving DecidableEq

/-- A column the row does not reach is NULL. -/
def ExportGrid.cell (row : List Cell) (index : ℕ) : Cell := (row[index]?).getD none

/-- What a file was read to. -/
structure ImportedTable where
  columns : List Text
  rows : List (List Cell)
  fileNamedTheColumns : Bool
  deriving DecidableEq

namespace ImportedTable

def ofNamedColumns (columns : List Text) (rows : List (List Cell)) : ImportedTable :=
  ⟨columns, rows, true⟩

/-- The name of a column that the file did not name. -/
def placeholder (index : ℕ) : Text := "COLUMN_".toList ++ Nat.toDigits 10 index

def ofRecords (first : List Cell) (rest : List (List Cell)) (firstRecordNamesTheColumns : Bool) :
    ImportedTable :=
  if firstRecordNamesTheColumns then
    ⟨first.map (·.getD []), rest, true⟩
  else ⟨(range first.length).map fun index => placeholder (index + 1), first :: rest, false⟩

end ImportedTable

/-- A row as wide as the header. -/
def resize (width : ℕ) (row : List Cell) : List Cell :=
  row.take width ++ replicate (width - row.length) none

def validate (table : ImportedTable) : Except String ImportedTable :=
  let width := table.columns.length
  if table.columns = [] then .error "The file has no columns to import."
  else if table.columns.any fun column => trim column = [] then
    .error "The file has a column with no name."
  else
    match table.rows.find? fun row => width < row.length with
    | some row => .error ("A row has " ++ toString row.length ++ " values but the file declares "
        ++ toString width ++ " columns.")
    | none => .ok { table with rows := table.rows.map (resize width) }

def byteOrderMark : Char := Char.ofNat 0xFEFF

/-- `parse`, with the reader that the format names. -/
def parse (reader : Text → Except String ImportedTable) (text : Text) :
    Except String ImportedTable := do
  let table ← reader ((stripPrefix [byteOrderMark] text).getD text)
  validate table

/-- A table whose columns have names and whose rows are as wide as them is valid. -/
lemma validate_of_width {table : ImportedTable} (hcols : table.columns ≠ [])
    (hnames : ∀ column ∈ table.columns, trim column ≠ [])
    (hwidth : ∀ row ∈ table.rows, row.length = table.columns.length) :
    validate table = .ok table := by
  have hnames' : ¬ (table.columns.any fun column => trim column = []) := by
    simpa using hnames
  have hfind : (table.rows.find? fun row => table.columns.length < row.length) = none := by
    rw [find?_eq_none]
    intro row hrow
    simp [hwidth row hrow]
  have hresize : table.rows.map (resize table.columns.length) = table.rows := by
    refine (map_congr_left fun row hrow => ?_).trans (map_id _)
    rw [resize, ← hwidth row hrow, take_length, Nat.sub_self, replicate_zero, append_nil, id]
  rw [validate, if_neg hcols, if_neg hnames', hfind]
  rw [hresize]

end SpaceQuery.Transfer
