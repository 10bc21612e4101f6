import SpaceQuery.Lib.RustText

/-!
The quoting of dotted MySQL names and its reader, `quote_mysql_qualified_name` and
`mysql_qualified_name_segments`.
-/

namespace SpaceQuery.ResultEdit

open List RustText

/-- Every backtick doubled, `replace` of the quoter. -/
def doubled : List Char → List Char
  | [] => []
  | c :: s => if c = '\x60' then '\x60' :: '\x60' :: doubled s else c :: doubled s

/-- Every pair of backticks read as one, `replace` of the reader. -/
def collapsed : List Char → List Char
  | [] => []
  | [c] => [c]
  | c :: d :: s =>
    if c = '\x60' ∧ d = '\x60' then '\x60' :: collapsed s else c :: collapsed (d :: s)

def quoteMysqlIdentifier (identifier : List Char) : List Char :=
  '\x60' :: (doubled identifier ++ ['\x60'])

def unquoteMysqlSegment (segment : List Char) : List Char :=
  let trimmed := trim segment
  match stripPrefix ['\x60'] trimmed with
  | none => trimmed
  | some inner => if inner.getLast? = some '\x60' then collapsed inner.dropLast else trimmed

/-- The loop over the characters; `segment` is the text since the last dot. -/
def segmentsLoop (inQuotes : Bool) (segment : List Char) : List Char → List (List Char)
  | [] => [segment]
  | [c] => if c = '.' ∧ inQuotes = false then [segment, []] else [segment ++ [c]]
  | c :: d :: rest =>
    if c = '\x60' then
      -- A doubled backtick is one character of the name, not the end.
      if inQuotes = true ∧ d = '\x60' then segmentsLoop true (segment ++ [c, d]) rest
      else segmentsLoop (!inQuotes) (segment ++ [c]) (d :: rest)
    else if c = '.' ∧ inQuotes = false then segment :: segmentsLoop false [] (d :: rest)
    else segmentsLoop inQuotes (segment ++ [c]) (d :: rest)

def mysqlQualifiedNameSegments (name : List Char) : List (List Char) :=
  ((segmentsLoop false [] (trim name)).map unquoteMysqlSegment).filter (trim · ≠ [])

/-- The segments quoted and joined by dots. -/
def quotedPath (segments : List (List Char)) : List Char :=
  ['.'].intercalate (segments.map quoteMysqlIdentifier)

def quoteMysqlQualifiedName (name : List Char) : List Char :=
  quotedPath (mysqlQualifiedNameSegments name)

variable {s segment rest : List Char} {segments : List (List Char)}

lemma collapsed_doubled (s : List Char) : collapsed (doubled s) = s := by
  induction s with
  | nil => rfl
  | cons c s ih =>
    rw [doubled]
    split_ifs with hc
    · rw [collapsed, if_pos ⟨rfl, rfl⟩, ih, hc]
    · cases hs : doubled s <;> simp_all [collapsed]

lemma trim_quoted (s : List Char) :
    trim ('\x60' :: (s ++ ['\x60'])) = '\x60' :: (s ++ ['\x60']) := by
  have hquote : isWhitespace '\x60' = false := by decide
  rw [trim, ← trimStart, trimStart_cons_of_not hquote, ← cons_append, trimEnd_concat hquote]

lemma unquoteMysqlSegment_quote (s : List Char) :
    unquoteMysqlSegment (quoteMysqlIdentifier s) = s := by
  simp [unquoteMysqlSegment, quoteMysqlIdentifier, trim_quoted, stripPrefix, collapsed_doubled]

/-- Between its backticks a quoted segment is read up to the closing one, dots included. -/
lemma segmentsLoop_doubled (h : rest.head? ≠ some '\x60') :
    segmentsLoop true segment (doubled s ++ '\x60' :: rest) =
      segmentsLoop false (segment ++ (doubled s ++ ['\x60'])) rest := by
  induction s generalizing segment with
  | nil => cases rest <;> simp_all [doubled, segmentsLoop]
  | cons c s ih =>
    rw [doubled]
    split_ifs with hc
    · simp [segmentsLoop, ih]
    · cases hs : doubled s <;> simp_all [segmentsLoop]

lemma segmentsLoop_quote (h : rest.head? ≠ some '\x60') :
    segmentsLoop false [] (quoteMysqlIdentifier s ++ rest) =
      segmentsLoop false (quoteMysqlIdentifier s) rest := by
  have hread := @segmentsLoop_doubled s ['\x60'] rest h
  cases hs : doubled s <;> simp_all [quoteMysqlIdentifier, segmentsLoop]

lemma quotedPath_cons_cons (s t : List Char) (segments : List (List Char)) :
    quotedPath (s :: t :: segments) =
      quoteMysqlIdentifier s ++ '.' :: quotedPath (t :: segments) := by
  simp [quotedPath]

lemma segmentsLoop_quotedPath (s : List Char) (segments : List (List Char)) :
    segmentsLoop false [] (quotedPath (s :: segments)) =
      (s :: segments).map quoteMysqlIdentifier := by
  induction segments generalizing s with
  | nil =>
    have hread := @segmentsLoop_quote s [] (by simp)
    simpa [quotedPath, segmentsLoop] using hread
  | cons t segments ih =>
    rw [quotedPath_cons_cons, segmentsLoop_quote (by simp), map_cons, ← ih t]
    cases quotedPath (t :: segments) <;> simp [segmentsLoop]

/-- A path that names something begins and ends in a backtick, so that trimming keeps it. -/
lemma exists_quotedPath (s : List Char) (segments : List (List Char)) :
    ∃ inner, quotedPath (s :: segments) = '\x60' :: (inner ++ ['\x60']) := by
  induction segments generalizing s with
  | nil => exact ⟨doubled s, by simp [quotedPath, quoteMysqlIdentifier]⟩
  | cons t segments ih =>
    obtain ⟨inner, hinner⟩ := ih t
    rw [quotedPath_cons_cons, hinner, quoteMysqlIdentifier]
    exact ⟨doubled s ++ '\x60' :: '.' :: '\x60' :: inner, by simp⟩

/-- A quoted path is read back as the segments it was made of. -/
lemma segments_quotedPath (h : ∀ s ∈ segments, trim s ≠ []) :
    mysqlQualifiedNameSegments (quotedPath segments) = segments := by
  cases segments with
  | nil => rfl
  | cons s segments =>
    obtain ⟨inner, hinner⟩ := exists_quotedPath s segments
    have htrim : trim (quotedPath (s :: segments)) = quotedPath (s :: segments) := by
      rw [hinner, trim_quoted]
    have hunquote : unquoteMysqlSegment ∘ quoteMysqlIdentifier = id :=
      funext unquoteMysqlSegment_quote
    rw [mysqlQualifiedNameSegments, htrim, segmentsLoop_quotedPath, map_map, hunquote, map_id]
    exact filter_eq_self.mpr fun s hs => decide_eq_true (h s hs)

/-- **Quoting a qualified name keeps its path**: whatever the quotes of the name, its quoted form
has the same segments, and quoting it again changes nothing. -/
theorem quoteMysqlQualifiedName_keeps (name : List Char) :
    mysqlQualifiedNameSegments (quoteMysqlQualifiedName name) = mysqlQualifiedNameSegments name ∧
      quoteMysqlQualifiedName (quoteMysqlQualifiedName name) = quoteMysqlQualifiedName name := by
  have hkeep : mysqlQualifiedNameSegments (quoteMysqlQualifiedName name) =
      mysqlQualifiedNameSegments name :=
    segments_quotedPath fun s hs => of_decide_eq_true (mem_filter.mp hs).2
  exact ⟨hkeep, congrArg quotedPath hkeep⟩

end SpaceQuery.ResultEdit
