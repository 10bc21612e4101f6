import SpaceQuery.Lib.Loops
import SpaceQuery.Script.OracleText

/-!
The comments around a statement, from `strip_comments` of `script.rs`: a forward pass over the
comments before the statement and a backward pass over those behind it.
-/

namespace SpaceQuery.Script

open RustText SqlText

/-! ### The forward pass -/

def lineCommentStarts (line : List Char) : Bool :=
  isSqlplusCommentLine line || isMysqlHashCommentLine line

/-- The comment that a round of `strip_leading_comments_and_whitespace` finds behind the white
space: a line with its line break or a block. -/
def leadingComment (remaining : List Char) : Option (List Char) :=
  let trimmed := trimStart remaining
  if lineCommentStarts trimmed then some (trimmed.take (throughFind ['\n'] trimmed))
  else if "/*".toList.isPrefixOf trimmed && !isMysqlExecutableCommentStart trimmed then
    some (trimmed.take (throughFind "*/".toList trimmed))
  else none

def stripLeadingRound (remaining : List Char) : Option (List Char) :=
  (leadingComment remaining).map fun comment => (trimStart remaining).drop comment.length

variable (sql : List Char)

/-- `strip_leading_comments`. -/
def stripLeadingComments : List Char :=
  trimStart (Loops.iterate stripLeadingRound sql.length sql)

/-! ### The backward pass -/

/-- The text before the last line break and the line behind it. -/
def splitLastLine (text : List Char) : Option (List Char × List Char) :=
  let lastLine := (text.reverse.takeWhile (· ≠ '\n')).reverse
  if lastLine.length = text.length then none
  else some (text.take (text.length - lastLine.length - 1), lastLine)

/-- The backward scan for the `/*` that balances the last `*/`, over the reversed text. It
gives what is left before the `/*`, reversed. -/
def scanBlockStart : ℤ → List Char → Option (List Char)
  | depth, b :: a :: before =>
    if a = '/' && b = '*' then
      if depth - 1 = 0 then some before else scanBlockStart (depth - 1) before
    else if a = '*' && b = '/' then scanBlockStart (depth + 1) before
    else scanBlockStart depth (a :: before)
  | _, _ => none

/-- The text before the block comment that is taken to end a text. -/
def beforeTrailingBlock (trimmed : List Char) : Option (List Char) :=
  if "*/".toList.isSuffixOf trimmed && !isMysqlExecutableCommentStart trimmed then
    (scanBlockStart 0 trimmed.reverse).map List.reverse
  else none

/-- A round of `strip_trailing_comments`: the text before the comment that it finds in front
of the white space. -/
def stripTrailingRound (result : List Char) : Option (List Char) :=
  let trimmed := trimEnd result
  if trimmed.isEmpty then none
  else
    match splitLastLine trimmed with
    | some (before, lastLine) =>
      if lineCommentStarts (trim lastLine) then some before else beforeTrailingBlock trimmed
    | none =>
      if lineCommentStarts trimmed then some [] else beforeTrailingBlock trimmed

end SpaceQuery.Script
