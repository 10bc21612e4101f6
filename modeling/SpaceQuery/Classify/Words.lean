import SpaceQuery.Script.StripComments

/-!
The words of a statement as the classifier reads them, from `sql_classification.rs`: a text is
read piece by piece, and what is not a comment, a quoted text or a q-quote is code. The pieces are
those of `skip_ignored_span` and of the loops of `next_top_level_word` and `next_word_any_depth`.
-/

namespace SpaceQuery

namespace SqlText

open RustText

/-- `u8::is_ascii_whitespace`. -/
def isAsciiWhitespace (c : Char) : Bool :=
  c = ' ' || c = '\t' || c = '\n' || c = '\r' || c.toNat = 0x0C

/-- `u8::is_ascii_control`. -/
def isAsciiControl (c : Char) : Bool := c.toNat < 0x20 || c.toNat = 0x7F

/-- `is_valid_q_quote_delimiter_byte`: the first byte of a character beyond ASCII is one. -/
def isValidQQuoteDelimiterByte (delimiter : Char) : Bool :=
  128 ≤ delimiter.toNat || isValidQQuoteDelimiter delimiter

/-- The length of the body of a q-quote with its end; the first byte of a character beyond ASCII
is nowhere before a quote. -/
def qQuoteBodyLength (delimiter : Char) (body : List Char) : ℕ :=
  if delimiter.toNat < 128 then Script.throughFind [qQuoteClosing delimiter, '\''] body
  else body.length

/-- `'`, `"` and the backtick. -/
def isMysqlQuote (c : Char) : Bool := c = '\'' || c = '"' || c = '\x60'

/-- The length of a quoted text behind its opening quote, with its closing quote: a quote that
is doubled does not close it, and a backslash hides what follows it if `escapes`. -/
def quotedLength (escapes : Bool) (quote : Char) : List Char → ℕ
  | [] => 0
  | [_] => 1
  | c :: d :: rest =>
    if escapes && c = '\\' then 2 + quotedLength escapes quote rest
    else if c = quote then
      if d = quote then 2 + quotedLength escapes quote rest else 1
    else 1 + quotedLength escapes quote (d :: rest)

/-- `is_mysql_dash_comment_start`: two dashes and white space, or a run of dashes and white
space. -/
def isMysqlDashCommentStart (text : List Char) : Bool :=
  let ends (c : Char) := isAsciiWhitespace c || isAsciiControl c
  "--".toList.isPrefixOf text &&
    match text[2]? with
    | none => true
    | some c => ends c || (c = '-' && (text.dropWhile (· = '-')).head?.all ends)

end SqlText

namespace Classify

open RustText SqlText Script

def isWordStart (c : Char) : Bool := c.isAlpha || c = '_'

def isWordPart (c : Char) : Bool := c.isAlphanum || c = '_' || c = '$' || c = '#'

variable (mysqlCompatibleComments : Bool)

/-- The length of a comment at the start of the text. -/
def skipComment (text : List Char) : Option ℕ :=
  let dashComment :=
    if mysqlCompatibleComments then isMysqlDashCommentStart text else "--".toList.isPrefixOf text
  if dashComment || text.head? = some '#' then some (throughFind ['\n'] text)
  else if "/*".toList.isPrefixOf text then some (2 + throughFind "*/".toList (text.drop 2))
  else none

variable (text : List Char)

/-- The length of a quoted text at the start of the text. -/
def skipQuoted : Option ℕ :=
  match text with
  | quote :: rest =>
    if quote = '\'' || quote = '"' || quote = '\x60' then
      some (1 + quotedLength true quote rest)
    else none
  | [] => none

variable (before text : List Char)

/-- The length of the start of a q-quote, and its delimiter. -/
def qQuoteOpening : Option (ℕ × Char) :=
  if before.head?.any isWordPart then none
  else
    (qQuotePrefixLen text).bind fun length =>
      text[length - 1]?.bind fun delimiter =>
        if isValidQQuoteDelimiterByte delimiter then some (length, delimiter) else none

def skipQQuote : Option ℕ :=
  (qQuoteOpening before text).map fun (length, delimiter) =>
    length + qQuoteBodyLength delimiter (text.drop length)

def skipIgnoredSpan : Option ℕ :=
  ((skipComment mysqlCompatibleComments text).or (skipQQuote before text)).or (skipQuoted text)

/-- What stands at the start of a text. -/
inductive WordPiece
  | ignored | word | openParen | closeParen | other
  deriving DecidableEq

/-- The piece at the start of a text that is no span to ignore. -/
def codeNext : WordPiece × ℕ :=
  match text with
  | [] => (.other, 1)
  | c :: rest =>
    if c = '(' then (.openParen, 1)
    else if c = ')' then (.closeParen, 1)
    else if isWordStart c then (.word, 1 + (rest.takeWhile isWordPart).length)
    else (.other, 1)

def wordNext (before text : List Char) : WordPiece × ℕ :=
  match skipIgnoredSpan mysqlCompatibleComments before text with
  | some length => (.ignored, max 1 length)
  | none => codeNext text

lemma codeNext_pos : 0 < (codeNext text).2 := by
  unfold codeNext
  split
  · exact Nat.one_pos
  · split_ifs
    · exact Nat.one_pos
    · exact Nat.one_pos
    · exact Nat.lt_add_right _ Nat.one_pos
    · exact Nat.one_pos

/-- The pieces of a statement. -/
def wordLexer : Lexing.Lexer Char WordPiece where
  next := wordNext mysqlCompatibleComments
  next_pos before text := by
    unfold wordNext
    cases skipIgnoredSpan mysqlCompatibleComments before text with
    | none => exact codeNext_pos text
    | some length => exact Nat.lt_of_lt_of_le Nat.one_pos (le_max_left 1 length)

/-- The words among the pieces that are outside parentheses. -/
def wordsAtDepth : ℕ → List (WordPiece × List Char) → List String
  | _, [] => []
  | depth, (.openParen, _) :: pieces => wordsAtDepth (depth + 1) pieces
  | depth, (.closeParen, _) :: pieces => wordsAtDepth (depth - 1) pieces
  | 0, (.word, text) :: pieces => asciiUppercase text :: wordsAtDepth 0 pieces
  | depth, _ :: pieces => wordsAtDepth depth pieces

def statementWords (sql : List Char) : List String :=
  wordsAtDepth 0 ((wordLexer mysqlCompatibleComments).tokens [] sql)

/-! ### The statement behind labels and parentheses -/

/-- The text in front of the first occurrence of a pattern, and behind it. -/
def splitOnce (pattern text : List Char) : Option (List Char × List Char) :=
  (afterFind pattern text).map fun rest =>
    (text.take (text.length - rest.length - pattern.length), rest)

section

variable [UnicodeClasses]

/-- A label is one identifier, quoted or not. -/
def isLabelName (name : List Char) : Bool :=
  match name with
  | [] => false
  | '"' :: quoted =>
    quoted.getLast? = some '"' && !quoted.dropLast.isEmpty && !quoted.dropLast.contains '"'
      && !quoted.dropLast.any isWhitespace
  | name => name.all isIdentifierChar

variable (sql : List Char)

def stripLeadingPlsqlBlockLabel : Option (List Char) :=
  (stripPrefix "<<".toList sql).bind fun rest =>
    (splitOnce ">>".toList rest).bind fun (label, after) =>
      if isLabelName (trim label) then some after else none

/-- `strip_leading_plsql_block_labels`, with the comments of Oracle. -/
def stripLeadingPlsqlBlockLabels : List Char :=
  Loops.iterate (fun remaining => (stripLeadingPlsqlBlockLabel remaining).map stripLeadingComments)
    sql.length sql

/-- `strip_leading_open_parens`, with the comments of Oracle. -/
def stripLeadingOpenParens : List Char :=
  let step (remaining : List Char) := (stripPrefix ['('] remaining).map stripLeadingComments
  Loops.iterate step sql.length (stripLeadingComments sql)

/-- The words of `SqlStatementAnalysis::new`. -/
def analysisWords : List String :=
  statementWords false
    (stripLeadingOpenParens (stripLeadingPlsqlBlockLabels (stripLeadingComments sql)))

end

end Classify

end SpaceQuery
