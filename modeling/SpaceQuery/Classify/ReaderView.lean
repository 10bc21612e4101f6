import SpaceQuery.Classify.Words

/-!
The view of a statement that the readers of the MySQL family take, from `sql_classification.rs`:
the bodies of executable comments stand where the comments stood.
-/

namespace SpaceQuery.Classify

open RustText SqlText Script

/-- `mysql_executable_comment_span`: the body of an executable comment at the start of the text,
and the length of the comment. -/
def mysqlExecutableComment (text : List Char) : Option (List Char × ℕ) :=
  if isMysqlExecutableCommentStart text then
    let opening := if text[2]? = some '!' then 3 else 4
    let bodyStart := opening + ((text.drop opening).takeWhile Char.isDigit).length
    (splitOnce "*/".toList (text.drop bodyStart)).map fun (body, _) =>
      (body, bodyStart + body.length + 2)
  else none

inductive ExpandPiece
  | kept | executable
  deriving DecidableEq

def expandNext (before text : List Char) : ExpandPiece × ℕ :=
  match (skipQQuote before text).or (skipQuoted text) with
  | some length => (.kept, max 1 length)
  | none =>
    match mysqlExecutableComment text with
    | some (_, length) => (.executable, max 1 length)
    | none => (.kept, 1)

def expandLexer : Lexing.Lexer Char ExpandPiece where
  next := expandNext
  next_pos before text := by
    unfold expandNext
    cases (skipQQuote before text).or (skipQuoted text) with
    | some length => exact lt_of_lt_of_le one_pos (le_max_left 1 length)
    | none =>
      cases mysqlExecutableComment text with
      | some comment => exact lt_of_lt_of_le one_pos (le_max_left 1 comment.2)
      | none => exact one_pos

/-- The text that takes the place of a piece. -/
def expandPiece : ExpandPiece → List Char → List Char
  | .kept, text => text
  | .executable, text =>
    match mysqlExecutableComment text with
    | some (body, _) => ' ' :: body ++ [' ']
    | none => text

def mysqlSqlWithExecutableCommentsExpanded (sql : List Char) : List Char :=
  (expandLexer.tokens [] sql).flatMap fun (kind, text) => expandPiece kind text

end SpaceQuery.Classify
