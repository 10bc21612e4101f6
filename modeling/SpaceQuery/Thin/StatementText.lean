import SpaceQuery.Classify.Words
import SpaceQuery.Thin.PacketCursor

/-!
The two scanners of `tns-thin/src/exec.rs` over the text of a statement: `sql_keyword_positions`,
which finds the INTO of a RETURNING clause, and `parse_sql_bind_names`.

Both are lexers over characters; what the source counts in bytes is counted in characters here and
translated where a position is reported.
-/

namespace SpaceQuery.Thin

namespace StatementText

open RustText Lexing SqlText Script

/-- What a scanner skips. -/
inductive Region where
  | literal | quotedIdentifier | qQuote | lineComment | blockComment
  deriving DecidableEq

def unterminatedQuotedString : OracleThinError :=
  .other "DPY-2041: SQL text contains an unterminated quoted string"

def invalidQQuoteError : OracleThinError :=
  .other "DPY-2041: SQL text contains an unterminated q-quoted string"

lemma exists_of_map_eq_ok {ε α β : Type} {x : Except ε α} {f : α → β} {b : β}
    (h : x.map f = .ok b) : ∃ a, x = .ok a ∧ f a = b := by
  cases x with
  | error e => cases h
  | ok a => exact ⟨a, rfl, Except.ok.inj h⟩

/-- The length of a text up to its first character of a kind, or the whole length. -/
def through (p : Char → Bool) : List Char → ℕ
  | [] => 0
  | ch :: rest => if p ch then 1 else 1 + through p rest

lemma through_pos {p : Char → Bool} {ch : Char} {rest : List Char} :
    0 < through p (ch :: rest) := by
  unfold through
  split_ifs <;> omega

section Scanners

variable [UnicodeClasses]

def isSqlIdentifierPart (ch : Char) : Bool :=
  isAlphanumeric ch || ch = '_' || ch = '$' || ch = '#'

/-- The place of the delimiter behind `q'` or `nq'`. -/
def delimiterRel (text : List Char) : Option ℕ :=
  if text[0]? = some 'q' ∨ text[0]? = some 'Q' then
    if text[1]? = some '\'' then some 2 else none
  else if text[0]? = some 'n' ∨ text[0]? = some 'N' then
    if text[1]? = some 'q' ∨ text[1]? = some 'Q' then
      if text[2]? = some '\'' then some 3 else none
    else none
  else none

/-- The length of the content of a q-quote with its closing characters. -/
def closingEnd (closing : Char) : List Char → Option ℕ
  | [] => none
  | ch :: rest =>
    if ch = closing ∧ rest.head? = some '\'' then some 2
    else (closingEnd closing rest).map (1 + ·)

/-- `skip_q_quote`: the length of the q-quote at the start of the text. -/
def skipQQuote (before text : List Char) : Option ℕ :=
  if before.head?.any isSqlIdentifierPart then none
  else
    match delimiterRel text with
    | none => none
    | some rel =>
      match text[rel]? with
      | none => none
      | some delimiter =>
        if !isValidQQuoteDelimiter delimiter then none
        else
          match closingEnd (qQuoteClosing delimiter) (text.drop (rel + 1)) with
          | some n => some (rel + 1 + n)
          | none => some text.length

def checkedQQuoteEnd (before text : List Char) : Except OracleThinError (Option ℕ) :=
  if before.head?.any isSqlIdentifierPart then .ok none
  else
    match delimiterRel text with
    | none => .ok none
    | some rel =>
      match text[rel]? with
      | none => .error invalidQQuoteError
      | some delimiter =>
        if !isValidQQuoteDelimiter delimiter then .error invalidQQuoteError
        else
          match closingEnd (qQuoteClosing delimiter) (text.drop (rel + 1)) with
          | some n => .ok (some (rel + 1 + n))
          | none => .error invalidQQuoteError

def isLineEnd (ch : Char) : Bool := ch = '\n' || ch = '\r'

/-! ### `sql_keyword_positions` -/

/-- The length of a literal behind its quote; a doubled quote does not end it. -/
def literalEnd (quote : Char) (text : List Char) : ℕ := quotedLength false quote text

omit [UnicodeClasses] in
lemma literalEnd_cons_cons (quote ch next : Char) (rest : List Char) :
    literalEnd quote (ch :: next :: rest) = if ch = quote then
      if next = quote then 2 + literalEnd quote rest else 1
      else 1 + literalEnd quote (next :: rest) := by
  rw [literalEnd, quotedLength, if_neg (by simp)]
  rfl

/-- The length of a block comment behind its opening, with the character before. -/
def commentEnd : Char → List Char → ℕ
  | _, [] => 0
  | previous, next :: rest =>
    if previous = '*' ∧ next = '/' then 1 else 1 + commentEnd next rest

/-- What a scan for keywords sees. -/
inductive KeywordToken where
  | region (r : Region)
  | word
  | other
  deriving DecidableEq

def isKeywordStart (ch : Char) : Bool := ch.isAlpha || ch = '_'

def isKeywordPart (ch : Char) : Bool := ch.isAlphanum || ch = '_' || ch = '$' || ch = '#'

/-- A round of the loop of `sql_keyword_positions`. -/
def keywordNext (before text : List Char) : KeywordToken × ℕ :=
  match skipQQuote before text with
  | some n => (.region .qQuote, n)
  | none =>
    match text with
    | [] => (.other, 1)
    | ch :: rest =>
      if ch = '\'' then (.region .literal, 1 + literalEnd '\'' rest)
      else if ch = '"' then (.region .quotedIdentifier, 1 + through (· = '"') rest)
      else if ch = '-' ∧ rest.head? = some '-' then
        (.region .lineComment, 2 + through isLineEnd (rest.drop 1))
      else if ch = '/' ∧ rest.head? = some '*' then
        (.region .blockComment, 2 + commentEnd '\x00' (rest.drop 1))
      else if isKeywordStart ch then (.word, 1 + (rest.takeWhile isKeywordPart).length)
      else (.other, 1)

/-! ### `parse_sql_bind_names` -/

def checkedQuotedEnd (quote : Char) : List Char → Except OracleThinError ℕ
  | [] => .error unterminatedQuotedString
  | [ch] => if ch = quote then .ok 1 else .error unterminatedQuotedString
  | ch :: next :: rest =>
    if ch = quote then
      if next = quote then (checkedQuotedEnd quote rest).map (2 + ·) else .ok 1
    else (checkedQuotedEnd quote (next :: rest)).map (1 + ·)

/-- The names of binds stand behind the colon and white space that are counted with them. -/
inductive BindToken where
  | region (r : Region)
  | name (lead : ℕ)
  | quotedName (lead : ℕ)
  | other
  deriving DecidableEq

/-- The character in front of a colon makes it the colon of a JSON member. -/
def behindQuote (before : List Char) : Bool :=
  (before.find? (!isWhitespace ·)).any fun previous => previous = '\'' || previous = '"'

/-- The rest of a round of the loop of `parse_sql_bind_names` behind a colon. -/
def bindColon (before rest : List Char) : Except OracleThinError (BindToken × ℕ) :=
  if rest.head? = some '=' then .ok (.other, 2)
  else if rest.head? = some ':' then .ok (.other, 1)
  else if behindQuote before then .ok (.other, 1)
  else
    let lead := 1 + (rest.takeWhile isWhitespace).length
    match rest.dropWhile isWhitespace with
    | [] => .ok (.other, lead)
    | first :: tail =>
      if first = '"' then
        (checkedQuotedEnd '"' tail).map fun n => (.quotedName lead, lead + (1 + n))
      else if !isSqlIdentifierPart first then .ok (.other, lead)
      else .ok (.name lead, lead + (1 + (tail.takeWhile isSqlIdentifierPart).length))

/-- A round of the loop of `parse_sql_bind_names`. -/
def bindRound (before text : List Char) : Except OracleThinError (BindToken × ℕ) :=
  match checkedQQuoteEnd before text with
  | .error e => .error e
  | .ok (some n) => .ok (.region .qQuote, n)
  | .ok none =>
    match text with
    | [] => .ok (.other, 1)
    | ch :: rest =>
      if ch = '\'' then (checkedQuotedEnd '\'' rest).map fun n => (.region .literal, 1 + n)
      else if ch = '"' then
        (checkedQuotedEnd '"' rest).map fun n => (.region .quotedIdentifier, 1 + n)
      else if ['-', '-'].isPrefixOf text then .ok (.region .lineComment, through isLineEnd text)
      else if ['/', '*'].isPrefixOf text then
        .ok (.region .blockComment, 2 + throughFind ['*', '/'] (text.drop 2))
      else if ch ≠ ':' then .ok (.other, 1)
      else bindColon before rest

/-! ### Tokens have characters -/

variable {before text : List Char} {n : ℕ}

lemma skipQQuote_pos (h : skipQQuote before text = some n) : 0 < n := by
  unfold skipQQuote at h
  cases hrel : delimiterRel text with
  | none => simp [hrel] at h
  | some rel =>
    rw [hrel] at h
    dsimp only at h
    cases hdelim : text[rel]? with
    | none => simp [hdelim] at h
    | some delimiter =>
      rw [hdelim] at h
      dsimp only at h
      split_ifs at h
      have hlen := (List.getElem?_eq_some_iff.mp hdelim).1
      split at h
      · rw [← Option.some.inj h]
        omega
      · rw [← Option.some.inj h]
        omega

/-- On a text without an error the two tests for a q-quote are one. -/
lemma skipQQuote_of_checked {r : Option ℕ}
    (h : checkedQQuoteEnd before text = .ok r) : skipQQuote before text = r := by
  unfold checkedQQuoteEnd at h
  unfold skipQQuote
  split_ifs at h ⊢
  · exact Except.ok.inj h
  · cases hrel : delimiterRel text with
    | none =>
      rw [hrel] at h
      exact Except.ok.inj h
    | some rel =>
      rw [hrel] at h
      dsimp only at h ⊢
      cases hdelim : text[rel]? with
      | none => simp [hdelim] at h
      | some delimiter =>
        rw [hdelim] at h
        dsimp only at h ⊢
        split_ifs at h ⊢
        cases hend : closingEnd (qQuoteClosing delimiter) (text.drop (rel + 1)) with
        | none => simp [hend] at h
        | some n =>
          rw [hend] at h
          exact Except.ok.inj h

lemma keywordNext_pos (before text : List Char) : 0 < (keywordNext before text).2 := by
  unfold keywordNext
  split
  · next n hn => exact skipQQuote_pos hn
  · split
    · exact Nat.one_pos
    · split_ifs <;> simp

def keywordLexer : Lexer Char KeywordToken where
  next := keywordNext
  next_pos := keywordNext_pos

lemma bindColon_pos {rest : List Char} {token : BindToken}
    (h : bindColon before rest = .ok (token, n)) : 0 < n := by
  unfold bindColon at h
  split_ifs at h
  · cases h
    exact Nat.two_pos
  · cases h
    exact Nat.one_pos
  · cases h
    exact Nat.one_pos
  · split at h
    · cases h
      omega
    · split_ifs at h
      · obtain ⟨_, -, h⟩ := exists_of_map_eq_ok h
        cases h
        omega
      · cases h
        omega
      · cases h
        omega

lemma bindRound_pos {token : BindToken} (h : bindRound before text = .ok (token, n)) : 0 < n := by
  unfold bindRound at h
  cases hq : checkedQQuoteEnd before text with
  | error e => simp [hq] at h
  | ok r =>
    rw [hq] at h
    cases r with
    | some m =>
      cases h
      exact skipQQuote_pos (skipQQuote_of_checked hq)
    | none =>
      cases text with
      | nil =>
        cases h
        exact Nat.one_pos
      | cons ch rest =>
        dsimp only at h
        split_ifs at h
        · obtain ⟨_, -, h⟩ := exists_of_map_eq_ok h
          cases h
          omega
        · obtain ⟨_, -, h⟩ := exists_of_map_eq_ok h
          cases h
          omega
        · cases h
          exact through_pos
        · cases h
          omega
        · cases h
          exact Nat.one_pos
        · exact bindColon_pos h

/-- Behind an error there are no more rounds; `bindTokens` does not look there. -/
def bindLexer : Lexer Char (Except OracleThinError BindToken) where
  next before text :=
    match bindRound before text with
    | .ok (token, n) => (.ok token, n)
    | .error e => (.error e, 1)
  next_pos before text := by
    split
    · next h => exact bindRound_pos h
    · exact Nat.one_pos

/-- The rounds of `parse_sql_bind_names`. -/
def bindTokens (before text : List Char) : Except OracleThinError (List (BindToken × List Char)) :=
  (bindLexer.tokens before text).mapM fun token => token.1.map (·, token.2)

/-! ### Results -/

/-- The names or words of some tokens, with the bytes before them. -/
def occurrences {κ : Type} (find : κ → List Char → Option (List Char × List Char)) :
    ℕ → List (κ × List Char) → List (ℕ × List Char)
  | _, [] => []
  | offset, token :: tokens =>
    ((find token.1 token.2).map fun found => (offset + byteLen found.1, found.2)).toList
      ++ occurrences find (offset + byteLen token.2) tokens

def KeywordToken.find : KeywordToken → List Char → Option (List Char × List Char)
  | .word, text => some ([], text)
  | _, _ => none

/-- The name in a token, behind what stands before it. -/
def BindToken.find : BindToken → List Char → Option (List Char × List Char)
  | .name lead, text => some (text.take lead, text.drop lead)
  | .quotedName lead, text =>
    let name := (text.drop (lead + 1)).dropLast
    if name.isEmpty then none else some (text.take (lead + 1), name)
  | _, _ => none

variable (sql : List Char)

/-- The words that the keyword scanner reads, with their starts. -/
def keywordWords : List (ℕ × List Char) :=
  occurrences KeywordToken.find 0 (keywordLexer.tokens [] sql)

def sqlKeywordPositions : List (String × ℕ) :=
  (keywordWords sql).map fun word => (asciiUppercase word.2, word.1 + byteLen word.2)

/-- The loop of `sql_dml_returning_into_tail`: the end of the INTO, with the first keyword and
whether RETURNING was seen. -/
def returningIntoEnd : Option String → Bool → List (String × ℕ) → Option ℕ
  | _, _, [] => none
  | firstKeyword, returningSeen, (keyword, stop) :: keywords =>
    let head := firstKeyword.getD keyword
    if keyword = "RETURNING" ∨ keyword = "RETURN" then returningIntoEnd (some head) true keywords
    else if returningSeen ∧ keyword = "INTO" then
      if head ∈ ["INSERT", "UPDATE", "DELETE", "MERGE"] then some stop else none
    else returningIntoEnd (some head) returningSeen keywords

def sqlDmlReturningIntoTail : Option (List Char) :=
  (returningIntoEnd none false (sqlKeywordPositions sql)).bind (getFromByte · sql)

/-- The tokens of a text that `parse_sql_bind_names` reads to its end. -/
def readTokens : List (BindToken × List Char) :=
  (bindTokens [] sql).toOption.getD []

/-- The names of binds that are read, with their starts. -/
def bindNames : List (ℕ × List Char) :=
  occurrences BindToken.find 0 (readTokens sql)

section Names

-- `str::to_uppercase`
variable (toUppercase : List Char → String)

def BindToken.bindName : BindToken → List Char → Option String
  | .quotedName lead, text => ((BindToken.quotedName lead).find text).map (String.ofList ·.2)
  | token, text => (token.find text).map (toUppercase ·.2)

/-- A name is kept once. -/
def pushName (names : List String) (name : String) : List String :=
  if names.any (· = name) then names else names ++ [name]

def parseSqlBindNames (sql : List Char) : Except OracleThinError (List String) :=
  (bindTokens [] sql).map fun tokens =>
    (tokens.filterMap fun token => token.1.bindName toUppercase token.2).foldl pushName []

end Names

/-! ### What is skipped -/

def KeywordToken.marks : KeywordToken → List Char → List (Char × Option Region)
  | .region r, text => text.map (·, some r)
  | _, text => text.map (·, none)

/-- A name in quotes is a quoted identifier. -/
def BindToken.marks : BindToken → List Char → List (Char × Option Region)
  | .region r, text => text.map (·, some r)
  | .quotedName lead, text =>
    (text.take lead).map (·, none) ++ (text.drop lead).map (·, some .quotedIdentifier)
  | _, text => text.map (·, none)

/-- The marks of the bytes of the characters. -/
def ofBytes (marks : List (Char × Option Region)) : List (Option Region) :=
  marks.flatMap fun mark => List.replicate mark.1.utf8Size mark.2

/-- What `sql_keyword_positions` treats each byte of the text as. -/
def keywordSkips : List (Option Region) :=
  ofBytes ((keywordLexer.tokens [] sql).flatMap fun token => token.1.marks token.2)

/-- What `parse_sql_bind_names` treats each byte of the text as. -/
def bindSkips : List (Option Region) :=
  ofBytes ((readTokens sql).flatMap fun token => token.1.marks token.2)

end Scanners

end StatementText

end SpaceQuery.Thin
