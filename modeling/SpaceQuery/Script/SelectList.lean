import SpaceQuery.Script.TopLevel

/-!
The main select list of a statement, as `script.rs` finds it: `leading_keyword`,
`find_main_select_after_with`, `find_select_body_start` and the FROM outside parentheses.

The select list is between the start of the body of the main SELECT and its FROM. Whether the
main query of a WITH statement is a SELECT, `with_clause_starts_with_select`, is a parameter: the
results hold for every answer.
-/

namespace SpaceQuery.Script

open List RustText SqlText Classify Lexing

section

variable [UnicodeClasses]

/-- The statement behind its block labels; a label that is not closed leaves none. -/
def behindLabels : ℕ → List Char → Option (List Char)
  | 0, remaining => some remaining
  | fuel + 1, remaining =>
    match stripPrefix "<<".toList remaining with
    | none => some remaining
    | some labelBody =>
      (afterFind ">>".toList labelBody).bind fun rest =>
        behindLabels fuel (stripLeadingComments rest)

def leadingKeyword (sql : List Char) : Option String :=
  (behindLabels sql.length (stripLeadingComments sql)).bind fun remaining =>
    (analysisWords remaining).head?

end

/-- A character of a word after WITH. -/
def isKeywordChar (c : Char) : Bool := c.isAlphanum || c = '_'

/-- The text behind the word WITH. -/
def behindWith : ℕ → List Char → List Char
  | 0, _ => []
  | _ + 1, [] => []
  | fuel + 1, c :: rest =>
    if c.isAlpha then
      let word := c :: rest.takeWhile isKeywordChar
      let after := rest.dropWhile isKeywordChar
      if eqIgnoreAsciiCase word "WITH" then after else behindWith fuel after
    else behindWith fuel rest

variable (text : List Char)

/-- The length of a comment or quoted text that `find_main_select_after_with` skips. The last
character of a block comment without an end is read as code. -/
def mainSelectSkip : Option ℕ :=
  if "--".toList.isPrefixOf text then some (2 + ((text.drop 2).takeWhile (· ≠ '\n')).length)
  else if "/*".toList.isPrefixOf text then
    match afterFind "*/".toList (text.drop 2) with
    | some rest => some (text.length - rest.length)
    | none => some (max 2 (text.length - 1))
  else
    match text with
    | '\'' :: rest => some (1 + quotedLength false '\'' rest)
    | '"' :: rest => some (1 + quotedLength false '"' rest)
    | _ => none

/-- The variables of the scan for the main SELECT. -/
structure MainSelectScan where
  depth : ℕ := 0
  topLevelClosedParenRecently : Bool := false
  parenthesizedMainQueryDepth : Option ℕ := none

namespace MainSelectScan

variable (scan : MainSelectScan)

def openParen : MainSelectScan :=
  { scan with
    depth := scan.depth + 1
    parenthesizedMainQueryDepth :=
      if scan.depth = 0 && scan.topLevelClosedParenRecently
          && scan.parenthesizedMainQueryDepth.isNone then some 1
      else scan.parenthesizedMainQueryDepth }

def closeParen : MainSelectScan :=
  { depth := scan.depth - 1
    topLevelClosedParenRecently := scan.topLevelClosedParenRecently || scan.depth = 1
    parenthesizedMainQueryDepth :=
      scan.parenthesizedMainQueryDepth.filter fun queryDepth => queryDepth ≤ scan.depth - 1 }

def atQueryDepth : Bool :=
  scan.depth = 0 || scan.parenthesizedMainQueryDepth = some scan.depth

end MainSelectScan

/-- The offset of the main SELECT in the text behind WITH. -/
def mainSelectIn : ℕ → MainSelectScan → List Char → Option ℕ
  | 0, _, _ => none
  | _ + 1, _, [] => none
  | fuel + 1, scan, c :: rest =>
    match mainSelectSkip (c :: rest) with
    | some length =>
      (mainSelectIn fuel scan ((c :: rest).drop length)).map (length + ·)
    | none =>
      if c = '(' then (mainSelectIn fuel scan.openParen rest).map (1 + ·)
      else if c = ')' then (mainSelectIn fuel scan.closeParen rest).map (1 + ·)
      else if isAsciiWhitespace c then (mainSelectIn fuel scan rest).map (1 + ·)
      else
        let scan := { scan with topLevelClosedParenRecently := false }
        if scan.atQueryDepth && c.isAlpha then
          let word := c :: rest.takeWhile isKeywordChar
          if eqIgnoreAsciiCase word "SELECT" then some 0
          else (mainSelectIn fuel scan ((c :: rest).drop word.length)).map (word.length + ·)
        else (mainSelectIn fuel scan rest).map (1 + ·)

variable (sql : List Char)

def findMainSelectAfterWith : Option ℕ :=
  let after := behindWith sql.length sql
  (mainSelectIn after.length {} after).map (sql.length - after.length + ·)

def isParenthesizedSelectStart (selectIdx : ℕ) : Bool :=
  ((sql.take selectIdx).reverse.dropWhile isWhitespace).head? = some '('

/-- `skip_select_prefix_whitespace_and_hint`. -/
def skipHint : List Char :=
  let text := text.dropWhile isAsciiWhitespace
  if "/*+".toList.isPrefixOf text then
    match afterFind "*/".toList text with
    | some rest => rest.dropWhile isAsciiWhitespace
    | none => text
  else text

/-- `starts_with_keyword_at`, with the text behind the keyword and white space. -/
def skipKeyword (keyword : String) : Option (List Char) :=
  let length := keyword.toList.length
  if eqIgnoreAsciiCase (text.take length) keyword
      && text[length]?.all (fun c => !c.isAlphanum && c ≠ '_') then
    some ((text.drop length).dropWhile isAsciiWhitespace)
  else none

/-- The offset of the select list. -/
def findSelectBodyStart : Option ℕ :=
  (findTopLevelKeyword sql "SELECT").map fun selectIdx =>
    let text := skipHint (sql.drop (selectIdx + "SELECT".toList.length))
    let body :=
      (["DISTINCT", "DISTINCTROW", "UNIQUE", "ALL"].findSome? (skipKeyword text)).getD text
    sql.length - body.length

/-- A statement, cut around its main select list. -/
structure SelectList where
  before : List Char
  list : List Char
  after : List Char
  deriving DecidableEq

/-- The select list of the SELECT at an offset. -/
def selectListAt (selectIdx : ℕ) : Option SelectList :=
  let effective := sql.drop selectIdx
  (findTopLevelKeyword effective "FROM").bind fun fromIdx =>
    let bodyStart := (findSelectBodyStart effective).getD fromIdx
    if fromIdx ≤ bodyStart then none
    else
      some ⟨sql.take (selectIdx + bodyStart), (effective.take fromIdx).drop bodyStart,
        effective.drop fromIdx⟩

section

variable [UnicodeClasses] (withClauseStartsWithSelect : List Char → Bool)

/-- The offset of the main SELECT, unless it is in parentheses. -/
def mainSelect (sql : List Char) : Option ℕ :=
  match leadingKeyword sql with
  | some "WITH" =>
    if withClauseStartsWithSelect sql then
      (findMainSelectAfterWith sql).filter (!isParenthesizedSelectStart sql ·)
    else none
  | some "SELECT" => some 0
  | _ => none

def selectList (sql : List Char) : Option SelectList :=
  (mainSelect withClauseStartsWithSelect sql).bind (selectListAt sql)

end

/-- A text is cut at two offsets. -/
lemma take_append_drop_take {n m : ℕ} (h : n ≤ m) (text : List Char) :
    text.take n ++ ((text.take m).drop n ++ text.drop m) = text := by
  have htake : text.take n = (text.take m).take n := by rw [take_take, min_eq_left h]
  rw [htake, ← append_assoc, take_append_drop, take_append_drop]

lemma selectListAt_eq {sql : List Char} {selectIdx : ℕ} {found : SelectList}
    (h : selectListAt sql selectIdx = some found) :
    found.before ++ found.list ++ found.after = sql := by
  obtain ⟨fromIdx, -, h⟩ := Option.bind_eq_some_iff.mp h
  dsimp only at h
  split_ifs at h with hlt
  cases h
  rw [take_add, append_assoc, append_assoc,
    take_append_drop_take (not_le.mp hlt).le, take_append_drop]

/-- The statement is its select list and the text around it. -/
theorem selectList_eq [UnicodeClasses] {withClauseStartsWithSelect : List Char → Bool}
    {sql : List Char} {found : SelectList}
    (h : selectList withClauseStartsWithSelect sql = some found) :
    found.before ++ found.list ++ found.after = sql := by
  obtain ⟨selectIdx, -, h⟩ := Option.bind_eq_some_iff.mp h
  exact selectListAt_eq h

end SpaceQuery.Script
