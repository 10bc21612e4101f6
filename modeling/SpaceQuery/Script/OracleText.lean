import SpaceQuery.Lib.Lexing
import SpaceQuery.Splitter.Words

/-!
The lexical structure of Oracle statements: what of a text is code, what is quoted and what is
a comment, reading it from its start.
-/

namespace SpaceQuery

namespace SqlText

open RustText

/-- A comment line of SQL*Plus, `is_sqlplus_comment_line`. -/
def isSqlplusCommentLine (line : List Char) : Bool :=
  let trimmed := trimStart line
  "--".toList.isPrefixOf trimmed || trimmed.head? = some '#' || isSqlplusRemarkCommentLine trimmed

def isMysqlHashCommentLine (line : List Char) : Bool := (trimStart line).head? = some '#'

def isMysqlExecutableCommentStart (text : List Char) : Bool :=
  "/*!".toList.isPrefixOf text || "/*M!".toList.isPrefixOf text

end SqlText

namespace Script

open RustText SqlText

/-- What a part of a text is. -/
inductive TextKind
  | code | quoted | comment
  deriving DecidableEq

/-- The length of a text up to the end of the first occurrence of a pattern, or the whole
length. -/
def throughFind (pattern text : List Char) : ℕ :=
  match afterFind pattern text with
  | some rest => text.length - rest.length
  | none => text.length

lemma throughFind_cons {pattern : List Char} {c : Char} {text : List Char} :
    throughFind pattern (c :: text) = if pattern.isPrefixOf (c :: text) then pattern.length
      else 1 + throughFind pattern text := by
  unfold throughFind
  rw [afterFind, stripPrefix]
  split_ifs with hpre
  · have hle := (List.isPrefixOf_iff_prefix.mp hpre).length_le
    rw [Option.some_or]
    dsimp only
    rw [List.length_drop]
    omega
  · cases hfind : afterFind pattern text with
    | none => simp [add_comm]
    | some rest =>
      obtain ⟨before, rfl⟩ := afterFind_eq_some hfind
      simp
      omega

lemma throughFind_append_of_notMem {c : Char} {u : List Char} (hu : c ∉ u) (v : List Char) :
    throughFind [c] (u ++ v) = u.length + throughFind [c] v := by
  induction u with
  | nil => simp
  | cons d u ih =>
    rw [List.mem_cons, not_or] at hu
    rw [List.cons_append, throughFind_cons, if_neg (by simpa using hu.1), ih hu.2, List.length_cons]
    omega

/-- The length of the start of a q-quote, with its delimiter. -/
def qQuotePrefixLen (text : List Char) : Option ℕ :=
  if (text[0]? matches some 'q' | some 'Q') && text[1]? = some '\'' then some 3
  else if (text[0]? matches some 'n' | some 'N') && (text[1]? matches some 'q' | some 'Q')
      && text[2]? = some '\'' then some 4
  else none

lemma qQuotePrefixLen_spec {c : Char} {rest : List Char} {n : ℕ}
    (h : qQuotePrefixLen (c :: rest) = some n) : 0 < n ∧ isWhitespace c = false ∧ c ≠ '/' := by
  have hletters : isWhitespace 'q' = false ∧ isWhitespace 'Q' = false ∧ isWhitespace 'n' = false
      ∧ isWhitespace 'N' = false := by decide
  unfold qQuotePrefixLen at h
  grind

section

variable [UnicodeClasses]

/-- The closing character of a q-quote at the start of the text, and the length of its
start. -/
def qQuoteStart (before text : List Char) : Option (Char × ℕ) :=
  if before.head?.any isIdentifierChar then none
  else
    (qQuotePrefixLen text).bind fun prefixLen =>
      text[prefixLen - 1]?.bind fun delimiter =>
        if isValidQQuoteDelimiter delimiter then some (qQuoteClosing delimiter, prefixLen)
        else none

lemma qQuoteStart_prefixLen {before text : List Char} {closing : Char} {prefixLen : ℕ}
    (h : qQuoteStart before text = some (closing, prefixLen)) :
    qQuotePrefixLen text = some prefixLen := by
  unfold qQuoteStart at h
  split_ifs at h
  obtain ⟨n, hn, h⟩ := Option.bind_eq_some_iff.mp h
  obtain ⟨delimiter, -, h⟩ := Option.bind_eq_some_iff.mp h
  split_ifs at h
  obtain rfl := (Prod.mk.inj (Option.some.inj h)).2
  exact hn

/-- What stands at the start of a text. -/
def oracleNext (before text : List Char) : TextKind × ℕ :=
  if "--".toList.isPrefixOf text then
    (.comment, 1 + ((text.drop 1).takeWhile (· ≠ '\n')).length)
  else if "/*".toList.isPrefixOf text then (.comment, 2 + throughFind "*/".toList (text.drop 2))
  else
    match qQuoteStart before text with
    | some (closing, prefixLen) =>
      (.quoted, prefixLen + throughFind [closing, '\''] (text.drop prefixLen))
    | none =>
      if text.head? = some '\'' then (.quoted, 1 + throughFind ['\''] (text.drop 1))
      else if text.head? = some '"' then (.quoted, 1 + throughFind ['"'] (text.drop 1))
      else (.code, 1)

lemma oracleNext_code {before text : List Char} (h : (oracleNext before text).1 = .code) :
    (oracleNext before text).2 = 1 := by
  unfold oracleNext at h ⊢
  cases hq : qQuoteStart before text with
  | some start =>
    simp only [hq] at h ⊢
    split_ifs at h
  | none =>
    simp only [hq] at h ⊢
    split_ifs at h ⊢
    rfl

/-- The lexical rules of Oracle. -/
def oracleLexer : Lexing.Lexer Char TextKind where
  next := oracleNext
  next_pos before text := by
    unfold oracleNext
    cases hq : qQuoteStart before text with
    | none => split_ifs <;> simp
    | some start =>
      have hlen := qQuoteStart_prefixLen hq
      cases text with
      | nil => simp [qQuotePrefixLen] at hlen
      | cons c rest =>
        have := (qQuotePrefixLen_spec hlen).1
        split_ifs <;> simp only <;> omega

end

end Script

end SpaceQuery
