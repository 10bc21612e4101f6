import SpaceQuery.Classify.ReaderView
import SpaceQuery.Lib.Utf8

/-!
The assignments of `SET` statements of the MySQL family, from `transaction.rs`.

Some scanners go over the bytes of a text and cut it at byte positions: the model goes over the
characters and counts the positions in bytes. Where a cut is out of range or inside of a character
the function panics, and the model gives `none`.
-/

namespace SpaceQuery

/-- `char::to_uppercase`: any mapping that agrees with ASCII there. -/
class UnicodeUppercase where
  toUppercase : Char → List Char
  toUppercase_ascii : ∀ c : Char, c.toNat < 128 → toUppercase c = [c.toUpper]

export UnicodeUppercase (toUppercase)

namespace SetAssignments

open RustText SqlText Script Classify Utf8 Lexing

/-! ### Quoted texts -/

variable (text : List Char)

/-- What stands at the start of a text: a quoted text, through which `mysql_skip_quoted_bytes`
goes, or a character of code. No byte of a character beyond ASCII is a quote, a backslash or any
other character that the loops over bytes look for, so they pass all of them. -/
def quoteNext : TextKind × ℕ :=
  match text with
  | [] => (.code, 1)
  | c :: rest => if isMysqlQuote c then (.quoted, 1 + quotedLength true c rest) else (.code, 1)

/-- The quoted texts and the characters outside of them. -/
def quoteLexer : Lexer Char TextKind where
  next _ text := quoteNext text
  next_pos _ text := by
    unfold quoteNext
    cases text with
    | nil => exact Nat.one_pos
    | cons c rest => dsimp only; split_ifs <;> simp

abbrev Pieces := List (TextKind × List Char)

/-- The pieces of a text. -/
def pieces : Pieces := quoteLexer.tokens [] text

/-- The depth of parentheses behind a piece. -/
def depthAfter (depth : ℕ) (piece : TextKind × List Char) : ℕ :=
  if piece = (.code, ['(']) then depth + 1
  else if piece = (.code, [')']) then depth - 1
  else depth

/-! ### Targets and values -/

/-- Where the assignment operator stands, in bytes, and how long it is. -/
def findOperator : ℕ → ℕ → Pieces → Option (ℕ × ℕ)
  | _, _, [] => none
  | depth, idx, piece :: ps =>
    if piece = (.code, ['=']) ∧ depth = 0 then some (idx, 1)
    else if piece = (.code, [':']) ∧ depth = 0 ∧ ps.head? = some (.code, ['=']) then some (idx, 2)
    else findOperator (depthAfter depth piece) (idx + byteLen piece.2) ps

def mysqlSetAssignmentTargetAndValue (assignment : List Char) :
    Option (Option (List Char × List Char)) :=
  match findOperator 0 0 (pieces assignment) with
  | none => some none
  | some (idx, length) =>
    (getToByte idx assignment).bind fun target =>
      (getFromByte (idx + length) assignment).map fun value => some (target, value)

section

variable [UnicodeUppercase]

/-- The rest of a normalized target behind its last character `last`, with white space pending
or not. -/
def normalizedTargetFrom (last : Option Char) (pendingSpace : Bool) : List Char → List Char
  | [] => []
  | c :: rest =>
    if isWhitespace c then normalizedTargetFrom last last.isSome rest
    else
      let bindsToNeighbour := c = '.' || last = some '.' || last = some '@'
      let space := if pendingSpace && !bindsToNeighbour then [' '] else []
      space ++ toUppercase c ++ normalizedTargetFrom (toUppercase c).getLast? false rest

def mysqlNormalizedSetAssignmentTarget (target : List Char) : List Char :=
  normalizedTargetFrom none false target

def otherScopes : List (List Char) :=
  ["GLOBAL ".toList, "PERSIST ".toList, "PERSIST_ONLY ".toList, "@@GLOBAL.".toList,
    "@@PERSIST.".toList, "@@PERSIST_ONLY.".toList]

def mysqlSessionScopedTarget (target : List Char) : Option (List Char) :=
  if ['@'].isPrefixOf target && !(['@', '@'].isPrefixOf target) then none
  else if otherScopes.any (·.isPrefixOf target) then none
  else
    some ((((((stripPrefix "SESSION ".toList target).or (stripPrefix "LOCAL ".toList target)).or
      (stripPrefix "@@SESSION.".toList target)).or (stripPrefix "@@LOCAL.".toList target)).or
      (stripPrefix "@@".toList target)).getD target)

def mysqlSessionScopedAssignmentParts (assignment : List Char) :
    Option (Option (List Char × List Char)) :=
  (mysqlSetAssignmentTargetAndValue assignment).map fun parts =>
    parts.bind fun (target, value) =>
      (mysqlSessionScopedTarget (mysqlNormalizedSetAssignmentTarget target)).map (·, value)

end

/-! ### Normalized values -/

/-- Whether the parentheses around a text belong together. -/
def wrapsEntireValue : ℕ → Pieces → Bool
  | depth, [] => depth = 0
  | depth, piece :: pieces =>
    let depth' := depthAfter depth piece
    if piece = (.code, [')']) && depth' = 0 && !pieces.isEmpty then false
    else wrapsEntireValue depth' pieces

/-- One round of a loop that strips wrapping parentheses, with `finish` on the stripped text:
`none` when the loop ends, and otherwise the slice. -/
def stripWrappingRound (pieces : List Char → Pieces)
    (finish : List Char → List Char) (current : List Char) : Option (Option (List Char)) :=
  if byteLen current < 2 || current.head? ≠ some '(' || current.getLast? ≠ some ')' then none
  else if !wrapsEntireValue 0 (pieces current) then none
  else some ((getBytes current 1 (byteLen current - 1)).map finish)

def stripWrappingLoop (pieces : List Char → Pieces)
    (finish : List Char → List Char) : ℕ → List Char → Option (List Char)
  | 0, current => some current
  | fuel + 1, current =>
    match stripWrappingRound pieces finish current with
    | none => some current
    | some stripped => stripped.bind (stripWrappingLoop pieces finish fuel)

variable (value : List Char)

def mysqlStripWrappingParenthesesFromValue : Option (List Char) :=
  stripWrappingLoop pieces trim (trim value).length (trim value)

/-- A value whose quotes are of no account. -/
def mysqlStripWrappingParenthesesFromCompactValue : Option (List Char) :=
  stripWrappingLoop (·.map fun c => (.code, [c])) id value.length value

/-- The characters of a literal without its escapes. -/
def unquotedChars (quote : Char) : List Char → Option (List Char)
  | [] => some []
  | [c] => if c = '\\' || c = quote then none else some [c]
  | c :: d :: rest =>
    if c = '\\' then (unquotedChars quote rest).map (d :: ·)
    else if c = quote then
      if d = quote then (unquotedChars quote rest).map (quote :: ·) else none
    else (unquotedChars quote (d :: rest)).map (c :: ·)

def mysqlUnquoteSimpleStringLiteral : Option (Option (List Char)) :=
  match value.head? with
  | none => some none
  | some quote =>
    if quote ≠ '\'' && quote ≠ '"' then some none
    else if value.getLast? ≠ some quote then some none
    else (getBytes value 1 (byteLen value - 1)).map (unquotedChars quote)

/-- The semicolons behind a value, with the white space before them. -/
def stripSemicolon (trimmed : List Char) : Option (List Char) :=
  if trimmed.getLast? = some ';' then some (trimEnd trimmed.dropLast) else none

def mysqlNormalizedSetAssignmentValue : Option (List Char) :=
  let trimmed := Loops.iterate stripSemicolon value.length (trim value)
  (mysqlStripWrappingParenthesesFromValue trimmed).bind fun stripped =>
    (mysqlUnquoteSimpleStringLiteral (trim stripped)).bind fun
      | some unquoted => some ((trim unquoted).map Char.toUpper)
      | none =>
        mysqlStripWrappingParenthesesFromCompactValue
          (((trim stripped).map Char.toUpper).filter (!isWhitespace ·))

/-! ### Assignments -/

/-- More text in front of the first part. -/
def prependText : List (List Char) → List (List Char)
  | [] => [text]
  | part :: parts => (text ++ part) :: parts

/-- `mysql_split_unquoted_assignments`, inside of a quote and at a depth of parentheses. -/
def splitUnquoted : Option Char → ℕ → List Char → List (List Char)
  | _, _, [] => [[]]
  | some _, _, [c] => [[c]]
  | some quote, depth, c :: d :: rest =>
    if c = '\\' then prependText [c, d] (splitUnquoted (some quote) depth rest)
    else if c = quote then
      if d = quote then prependText [c, d] (splitUnquoted (some quote) depth rest)
      else prependText [c] (splitUnquoted none depth (d :: rest))
    else prependText [c] (splitUnquoted (some quote) depth (d :: rest))
  | none, depth, c :: rest =>
    if isMysqlQuote c then prependText [c] (splitUnquoted (some c) depth rest)
    else if c = '(' then prependText [c] (splitUnquoted none (depth + 1) rest)
    else if c = ')' then prependText [c] (splitUnquoted none (depth - 1) rest)
    else if c = ',' && depth = 0 then [] :: splitUnquoted none depth rest
    else prependText [c] (splitUnquoted none depth rest)

def mysqlSplitUnquotedAssignments (input : List Char) : List (List Char) :=
  splitUnquoted none 0 input

/-- The loop of `mysql_statement_without_comments`, inside of a quote or not. -/
def withoutCommentsLoop : ℕ → Option Char → List Char → List Char
  | 0, _, _ => []
  | _ + 1, _, [] => []
  | _ + 1, some _, [c] => [c]
  | fuel + 1, some quote, c :: d :: rest =>
    if c = '\\' then c :: d :: withoutCommentsLoop fuel (some quote) rest
    else if c = quote then
      if d = quote then c :: d :: withoutCommentsLoop fuel (some quote) rest
      else c :: withoutCommentsLoop fuel none (d :: rest)
    else c :: withoutCommentsLoop fuel (some quote) (d :: rest)
  | fuel + 1, none, c :: rest =>
    if "/*".toList.isPrefixOf (c :: rest) then
      match afterFind "*/".toList ((c :: rest).drop 2) with
      | some after => ' ' :: withoutCommentsLoop fuel none after
      | none => []
    else if c = '#' || ("--".toList.isPrefixOf (c :: rest)
        && (rest[1]?).all isAsciiWhitespace) then
      match afterFind ['\n'] (c :: rest) with
      | some after => ' ' :: withoutCommentsLoop fuel none after
      | none => []
    else c :: withoutCommentsLoop fuel (if isMysqlQuote c then some c else none) rest

def mysqlStatementWithoutComments (sql : List Char) : List Char :=
  let cleaned := mysqlSqlWithExecutableCommentsExpanded (stripLeadingComments sql)
  withoutCommentsLoop cleaned.length none cleaned

/-- `mysql_user_variable_name_byte`, of the first byte of a character. -/
def isUserVariableNameChar (c : Char) : Bool := c.isAlphanum || c = '_' || c = '$' || c = '.'

def mysqlConsumeSetKeyword (input : List Char) (keyword : String) : Option ℕ :=
  (getToByte keyword.utf8ByteSize input).bind fun candidate =>
    if !eqIgnoreAsciiCase candidate keyword then none
    else if (input.drop candidate.length).head?.any isUserVariableNameChar then none
    else some keyword.utf8ByteSize

def mysqlSetAssignmentsBody (cleanedSql : List Char) : Option (List Char) :=
  let trimmed := trimStart cleanedSql
  (mysqlConsumeSetKeyword trimmed "SET").bind fun afterSet =>
    (getFromByte afterSet trimmed).map trimStart

section

variable [UnicodeUppercase]

/-- The value that an assignment gives to the variable, normalized, if it is the one. -/
def autocommitValue (assignment : List Char) : Option (Option (List Char)) :=
  (mysqlSessionScopedAssignmentParts assignment).bind fun
    | some (target, value) =>
      if target = "AUTOCOMMIT".toList then (mysqlNormalizedSetAssignmentValue value).map some
      else some none
    | none => some none

def mysqlAutocommitAssignmentValues (sql : List Char) : Option (List (List Char)) :=
  match mysqlSetAssignmentsBody (mysqlStatementWithoutComments sql) with
  | none => some []
  | some assignments =>
    ((mysqlSplitUnquotedAssignments assignments).mapM autocommitValue).map (·.filterMap id)

end

end SetAssignments

end SpaceQuery
