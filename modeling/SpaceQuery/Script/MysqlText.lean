import SpaceQuery.Classify.Words

/-!
The lexical structure of MySQL statements: what of a text is code, what is quoted and what is a
comment, reading it from its start. A backslash escapes in single and in double quotes, but not
in backticks; a quote that is doubled closes a quoted text and opens the next one.
-/

namespace SpaceQuery.Script

open RustText SqlText

/-- The length of a text up to the end of the first quote that closes, or the whole length. -/
def throughQuote (escapes : Bool) (quote : Char) : List Char → ℕ
  | [] => 0
  | [_] => 1
  | c :: d :: rest =>
    if escapes && c = '\\' then 2 + throughQuote escapes quote rest
    else if c = quote then 1
    else 1 + throughQuote escapes quote (d :: rest)

def startsMysqlLineComment (text : List Char) : Bool :=
  text.head? = some '#' || isMysqlDashCommentStart text

/-- What stands at the start of a text. -/
def mysqlNext (text : List Char) : TextKind × ℕ :=
  if startsMysqlLineComment text then
    (.comment, 1 + ((text.drop 1).takeWhile (· ≠ '\n')).length)
  else if "/*".toList.isPrefixOf text then (.comment, 2 + throughFind "*/".toList (text.drop 2))
  else
    match text with
    | [] => (.code, 1)
    | c :: rest =>
      if isMysqlQuote c then (.quoted, 1 + throughQuote (c ≠ '\x60') c rest) else (.code, 1)

lemma mysqlNext_code {text : List Char} (h : (mysqlNext text).1 = .code) :
    (mysqlNext text).2 = 1 := by
  unfold mysqlNext at h ⊢
  cases text with
  | nil => rfl
  | cons c text =>
    dsimp only at h ⊢
    split_ifs at h ⊢
    rfl

/-- The lexical rules of MySQL. -/
def mysqlLexer : Lexing.Lexer Char TextKind where
  next _ text := mysqlNext text
  next_pos _ text := by
    unfold mysqlNext
    cases text with
    | nil => split_ifs <;> simp
    | cons c rest => dsimp only; split_ifs <;> simp

end SpaceQuery.Script
