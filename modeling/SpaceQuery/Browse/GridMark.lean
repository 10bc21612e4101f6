import SpaceQuery.Lease.Slot
import SpaceQuery.Script.TextEnds

/-!
The marks of generated grid statements, from `table_browse.rs`: `marked_sql` writes a comment
behind the first word of a statement, and `carries_mark` reads it there. The first word is what
stands before white space or a parenthesis, whatever it opens.
-/

namespace SpaceQuery.TableBrowse

open List RustText SqlText Script Lease Lexing

/-! ### The mark -/

def tableBrowseMaterializeMarker : List Char := "SQ_INTERNAL_TABLE_BROWSE".toList

def resultFilterMarker : List Char := "SQ_INTERNAL_RESULT_FILTER".toList

def markComment (marker : List Char) : List Char := "/* ".toList ++ marker ++ " */".toList

/-- The characters that end the first word. -/
def endsWord (c : Char) : Bool := isWhitespace c || c = '('

/-- The length of the first word of a trimmed statement. -/
def wordLength (trimmed : List Char) : ℕ := (trimmed.takeWhile (!endsWord ·)).length

variable (sql marker : List Char)

/-- The mark stands behind the first word. -/
def markBehindWord : Bool :=
  let trimmed := trimStart sql
  let word := wordLength trimmed
  0 < word && (markComment marker).isPrefixOf (trimStart (trimmed.drop word))

def carriesMark : Bool :=
  if markBehindWord sql marker then true
  else (markComment marker).isPrefixOf (trimStart sql)

def markedSql : List Char :=
  let trimmedStart := sql.length - (trimStart sql).length
  let trimmed := trimStart sql
  let word := wordLength trimmed
  if word = 0 then markComment marker ++ '\n' :: sql
  else sql.take trimmedStart ++ trimmed.take word ++ ' ' :: markComment marker ++ trimmed.drop word

def isMaterializedGridStatement (sql : List Char) : Bool :=
  carriesMark sql tableBrowseMaterializeMarker

def isGeneratedGridStatement (sql : List Char) : Bool :=
  isMaterializedGridStatement sql || carriesMark sql resultFilterMarker

/-- Where the comment stands that `carriesMark` finds. -/
def markPosition : ℕ :=
  let trimmed := trimStart sql
  if markBehindWord sql marker then
    sql.length - (trimStart (trimmed.drop (wordLength trimmed))).length
  else sql.length - trimmed.length

/-- The start of a statement: its first word, with the white space around it. -/
def throughFirstWord : List Char :=
  sql.takeWhile isWhitespace ++ ((trimStart sql).takeWhile (!endsWord ·)
    ++ ((trimStart sql).dropWhile (!endsWord ·)).takeWhile isWhitespace)

/-! ### What is written is read -/

lemma markComment_eq (marker : List Char) :
    ∃ tail, markComment marker = '/' :: '*' :: tail := ⟨' ' :: (marker ++ " */".toList), rfl⟩

lemma trimStart_markComment (marker rest : List Char) :
    trimStart (markComment marker ++ rest) = markComment marker ++ rest := by
  exact trimStart_cons_of_not (by decide) _

lemma isPrefixOf_markComment (marker rest : List Char) :
    (markComment marker).isPrefixOf (markComment marker ++ rest) :=
  List.isPrefixOf_iff_prefix.mpr (prefix_append _ _)

lemma wordLength_append {word tail : List Char} (hword : ∀ c ∈ word, endsWord c = false)
    (htail : ∀ c ∈ tail.head?, endsWord c) : wordLength (word ++ tail) = word.length := by
  rw [wordLength, takeWhile_append_of_pos (fun c hc => by simp [hword c hc])]
  cases tail with
  | nil => simp
  | cons c tail => simp [htail c rfl]

/-- A statement is white space, its first word and the rest. -/
lemma exists_word (sql : List Char) :
    ∃ ws word tail, sql = ws ++ (word ++ tail) ∧ trimStart sql = word ++ tail ∧
      (∀ c ∈ ws, isWhitespace c) ∧ (∀ c ∈ word, endsWord c = false) ∧
      (∀ c ∈ tail.head?, endsWord c) ∧
      throughFirstWord sql = ws ++ (word ++ tail.takeWhile isWhitespace) := by
  have hsql : sql = sql.takeWhile isWhitespace ++ trimStart sql :=
    takeWhile_append_dropWhile.symm
  have hsplit := (takeWhile_append_dropWhile (p := (!endsWord ·)) (l := trimStart sql)).symm
  refine ⟨_, _, _, by rw [← hsplit]; exact hsql, hsplit,
    fun _ hc => all_eq_true.mp all_takeWhile _ hc, fun c hc => ?_, fun c hc => ?_, rfl⟩
  · simpa using all_eq_true.mp all_takeWhile c hc
  · have := head?_dropWhile_not (!endsWord ·) (trimStart sql)
    rw [Option.mem_def.mp hc] at this
    simpa using this

lemma isWhitespace_of_endsWord {c : Char} (h : endsWord c = false) : isWhitespace c = false := by
  simp only [endsWord, Bool.or_eq_false_iff] at h
  exact h.1

lemma trimStart_word {word : List Char} (hne : word ≠ []) (hword : ∀ c ∈ word, endsWord c = false)
    (rest : List Char) : trimStart (word ++ rest) = word ++ rest := by
  obtain ⟨c, word, rfl⟩ := exists_cons_of_ne_nil hne
  exact trimStart_cons_of_not (isWhitespace_of_endsWord (hword c mem_cons_self)) _

/-- **A marked statement carries its mark.** -/
lemma carriesMark_markedSql : carriesMark (markedSql sql marker) marker := by
  obtain ⟨ws, word, tail, hsql, htrim, hws, hword, htail, -⟩ := exists_word sql
  unfold markedSql
  rw [htrim]
  dsimp only
  rw [wordLength_append hword htail]
  by_cases hempty : word.length = 0
  · rw [if_pos hempty, carriesMark, trimStart_markComment, isPrefixOf_markComment, ite_self]
  · -- the first word is still the first word, and a blank ends it
    have hne : word ≠ [] := fun h => hempty (by rw [h]; rfl)
    have hstart : sql.take (sql.length - (word ++ tail).length) = ws := by
      rw [hsql, length_append, Nat.add_sub_cancel, take_left]
    rw [if_neg hempty, hstart, take_left, drop_left, carriesMark, if_pos]
    have htext : ws ++ word ++ ' ' :: markComment marker ++ tail
        = ws ++ (word ++ ' ' :: (markComment marker ++ tail)) := by simp
    have hblank : wordLength (word ++ ' ' :: (markComment marker ++ tail)) = word.length :=
      wordLength_append hword (by simp [endsWord, isWhitespace])
    rw [markBehindWord, htext, trimStart_whitespace hws, trimStart_word hne hword, hblank,
      drop_left]
    have hcomment : trimStart (' ' :: (markComment marker ++ tail))
        = markComment marker ++ tail := by
      exact @trimStart_whitespace [' '] (by simp [isWhitespace]) _
    rw [hcomment, isPrefixOf_markComment, Bool.and_true, decide_eq_true_eq]
    exact pos_of_ne_zero hempty

/-! ### Where it is read -/

lemma endsInSpace_of_forall {ws : List Char} (h : ∀ c ∈ ws, isWhitespace c) :
    EndsInSpace ws := fun c hc => h c (mem_of_getLast? hc)

lemma endsInSpace_append {ws : List Char} (hne : ws ≠ []) (h : ∀ c ∈ ws, isWhitespace c)
    (front : List Char) : EndsInSpace (front ++ ws) := by
  intro c hc
  rw [getLast?_append_of_ne_nil _ hne] at hc
  exact endsInSpace_of_forall h c hc

/-- The comment stands behind the first word, or it is the first thing that is no white space.
The text in front of it ends with white space. -/
lemma exists_head {sql marker : List Char} (h : carriesMark sql marker) :
    ∃ head rest, sql = head ++ (markComment marker ++ rest) ∧ EndsInSpace head ∧
      markPosition sql marker = head.length ∧
      if markBehindWord sql marker then head = throughFirstWord sql
      else ∀ c ∈ head, isWhitespace c := by
  obtain ⟨ws, word, tail, hsql, htrim, hws, hword, htail, hfirst⟩ := exists_word sql
  unfold carriesMark at h
  unfold markPosition
  by_cases hbehind : markBehindWord sql marker
  · simp only [if_pos hbehind, hfirst]
    rw [markBehindWord, htrim, wordLength_append hword htail, drop_left,
      Bool.and_eq_true] at hbehind
    obtain ⟨rest, hrest⟩ := List.isPrefixOf_iff_prefix.mp hbehind.2
    have htailEq : tail = tail.takeWhile isWhitespace ++ (markComment marker ++ rest) := by
      rw [hrest]
      exact takeWhile_append_dropWhile.symm
    have hspace : ∀ c ∈ tail.takeWhile isWhitespace, isWhitespace c :=
      fun _ hc => all_eq_true.mp all_takeWhile _ hc
    generalize tail.takeWhile isWhitespace = space at htailEq hspace ⊢
    have hne : space ≠ [] := by
      rintro rfl
      obtain ⟨comment, hcomment⟩ := markComment_eq marker
      rw [htailEq] at htail
      simpa [endsWord, isWhitespace] using htail '/' rfl
    refine ⟨_, rest, ?_, ?_, ?_, rfl⟩
    · rw [hsql, htailEq]
      simp
    · rw [← append_assoc]
      exact endsInSpace_append hne hspace _
    · rw [htrim, wordLength_append hword htail, drop_left, ← hrest, hsql, htailEq]
      simp only [length_append]
      omega
  · rw [if_neg hbehind] at h
    simp only [if_neg hbehind]
    obtain ⟨rest, hrest⟩ := List.isPrefixOf_iff_prefix.mp h
    refine ⟨ws, rest, by rw [hrest, htrim, hsql], endsInSpace_of_forall hws, ?_, hws⟩
    rw [htrim, hsql, length_append, Nat.add_sub_cancel]

/-! ### Code -/

section

variable [UnicodeClasses]

/-- The lexical rules of a database. -/
def lexicalRules : DatabaseType → Lexer Char TextKind
  | .oracle => oracleLexer
  | .mySQL | .mariaDB => mysqlLexer

variable (db : DatabaseType)

/-- A comment of its own starts at the position: it is in no literal, no quoted name and no
other comment. -/
def LiesInCode (sql : List Char) (position : ℕ) : Prop :=
  ∃ P w R, (lexicalRules db).tokens [] sql = P ++ (.comment, w) :: R ∧
    (P.map Prod.snd).flatten.length = position

/-- A text ends in code, or it is empty. -/
def endsInCode (head : List Char) : Bool :=
  ((lexicalRules db).tokens [] head).getLast?.all (·.1 = .code)

/-- White space is code where a token starts. -/
lemma next_whitespace (before rest : List Char) {c : Char}
    (hc : isWhitespace c) : (lexicalRules db).next before (c :: rest) = (.code, 1) := by
  have hne : c ≠ '-' ∧ c ≠ '/' ∧ c ≠ '#' ∧ c ≠ '\'' ∧ c ≠ '"' ∧ c ≠ '\x60' := by
    refine ⟨?_, ?_, ?_, ?_, ?_, ?_⟩ <;> rintro rfl <;> exact absurd hc (by decide)
  have hline : ¬ "--".toList.isPrefixOf (c :: rest) := by simp [hne.1.symm]
  have hblock : ¬ "/*".toList.isPrefixOf (c :: rest) := by simp [hne.2.1.symm]
  cases db with
  | oracle =>
    change oracleNext before _ = _
    cases hq : qQuoteStart before (c :: rest) with
    | some start =>
      have hquote := (qQuotePrefixLen_spec (qQuoteStart_prefixLen hq)).2.1
      rw [hc] at hquote
      cases hquote
    | none =>
      rw [oracleNext, if_neg hline, if_neg hblock, hq]
      simp [hne]
  | mySQL | mariaDB =>
    change mysqlNext _ = _
    have hcomment : ¬ startsMysqlLineComment (c :: rest) := by
      rw [startsMysqlLineComment, isMysqlDashCommentStart, Bool.eq_false_iff.mpr hline]
      simp [hne]
    rw [mysqlNext, if_neg hcomment, if_neg hblock]
    simp [isMysqlQuote, hne]

lemma endsInCode_whitespace {ws : List Char} (h : ∀ c ∈ ws, isWhitespace c) : endsInCode db ws := by
  have hcode : ∀ before, ∀ token ∈ (lexicalRules db).tokens before ws, token.1 = .code := by
    induction ws with
    | nil => simp
    | cons c ws ih =>
      rw [forall_mem_cons] at h
      intro before
      rw [Lexer.tokens_cons, next_whitespace db before ws h.1, forall_mem_cons]
      exact ⟨rfl, ih h.2 _⟩
  rw [endsInCode, Option.all_eq_true]
  intro token htoken
  rw [decide_eq_true_eq]
  exact hcode [] token (mem_of_getLast? htoken)

/-- A block comment is read where a token starts. -/
lemma next_markComment (before marker rest : List Char) :
    ((lexicalRules db).next before (markComment marker ++ rest)).1 = .comment := by
  obtain ⟨tail, htail⟩ := markComment_eq marker
  have hblock : "/*".toList.isPrefixOf ('/' :: '*' :: tail ++ rest) := rfl
  rw [htail]
  cases db with
  | oracle =>
    change (oracleNext before _).1 = _
    unfold oracleNext
    have hline : ¬ "--".toList.isPrefixOf ('/' :: '*' :: tail ++ rest) := Bool.false_ne_true
    rw [if_neg hline, if_pos hblock]
  | mySQL | mariaDB =>
    change (mysqlNext _).1 = _
    unfold mysqlNext
    by_cases hline : startsMysqlLineComment ('/' :: '*' :: tail ++ rest)
    · rw [if_pos hline]
    · rw [if_neg hline, if_pos hblock]

/-- The mark lies in code exactly when the text in front of it ends in code. -/
lemma liesInCode_iff_of_head {head : List Char} (hhead : EndsInSpace head)
    (marker rest : List Char) :
    LiesInCode db (head ++ (markComment marker ++ rest)) head.length ↔
      endsInCode db head := by
  have hrest : ∃ c tail, markComment marker ++ rest = c :: tail ∧ c ≠ '\n' := by
    obtain ⟨tail, htail⟩ := markComment_eq marker
    exact ⟨'/', '*' :: tail ++ rest, by rw [htail]; rfl, by decide⟩
  have hcut : (lexicalRules db).IsCut [] (head ++ (markComment marker ++ rest)) head.length ↔
      endsInCode db head := by
    rw [endsInCode, Option.all_eq_true]
    simp only [decide_eq_true_eq]
    cases db with
    | oracle => exact isCut_oracle_iff hhead hrest []
    | mySQL | mariaDB => exact isCut_mysql_iff hhead hrest []
  rw [← hcut]
  constructor
  · rintro ⟨P, w, R, htoks, hlen⟩
    exact ⟨P, _, htoks, hlen⟩
  · rintro ⟨P, R, htoks, hlen⟩
    obtain ⟨text, htext, hR⟩ := (lexicalRules db).exists_of_tokens_eq_append htoks
    obtain ⟨-, rfl⟩ := append_inj htext.symm hlen
    obtain ⟨c, tail, htail, -⟩ := hrest
    have hkind := next_markComment db ((P.map Prod.snd).flatten.reverse ++ []) marker rest
    rw [htail] at hR hkind
    rw [Lexer.tokens_cons, hkind] at hR
    exact ⟨P, _, _, by rw [htoks, ← hR], hlen⟩

/-- **The comment that is found**: a marked statement carries its mark, and a mark that is found
lies in code, but for one behind a first word that leaves a literal, a quoted name or a comment
open. -/
theorem carriesMark_liesInCode_iff (db : DatabaseType) (marker : List Char) :
    (∀ sql, carriesMark (markedSql sql marker) marker = true) ∧
      ∀ sql, carriesMark sql marker = true → (LiesInCode db sql (markPosition sql marker) ↔
        (markBehindWord sql marker = true → endsInCode db (throughFirstWord sql) = true)) := by
  refine ⟨fun sql => carriesMark_markedSql sql marker, fun sql h => ?_⟩
  obtain ⟨head, rest, hsql, hhead, hposition, hfront⟩ := exists_head h
  have hiff := liesInCode_iff_of_head db hhead marker rest
  rw [← hsql, ← hposition] at hiff
  rw [hiff]
  split_ifs at hfront with hbehind
  · rw [hfront]
    exact ⟨fun hcode _ => hcode, fun hcode => hcode hbehind⟩
  · exact iff_of_true (endsInCode_whitespace db hfront) fun hb => absurd hb hbehind

end

/-- A mark that was written lies in code. -/
theorem carriesMark_liesInCode_written :
    carriesMark "SELECT /* SQ_INTERNAL_TABLE_BROWSE */ *".toList tableBrowseMaterializeMarker ∧
      @LiesInCode asciiClasses .oracle "SELECT /* SQ_INTERNAL_TABLE_BROWSE */ *".toList
        (markPosition "SELECT /* SQ_INTERNAL_TABLE_BROWSE */ *".toList
          tableBrowseMaterializeMarker) :=
  ⟨by decide, ((@carriesMark_liesInCode_iff asciiClasses .oracle tableBrowseMaterializeMarker).2 _
    (by decide)).mpr fun _ => by decide +kernel⟩

/-- **A value forges a mark**: the first word opens a literal, and the comment is its content. -/
theorem literal_carries_mark :
    isGeneratedGridStatement "SELECT'a /* SQ_INTERNAL_TABLE_BROWSE */' FROM t".toList = true ∧
      ∀ db, ¬ @LiesInCode asciiClasses db "SELECT'a /* SQ_INTERNAL_TABLE_BROWSE */' FROM t".toList
        (markPosition "SELECT'a /* SQ_INTERNAL_TABLE_BROWSE */' FROM t".toList
          tableBrowseMaterializeMarker) := by
  refine ⟨by decide, fun db h => ?_⟩
  have hhead : EndsInSpace "SELECT'a ".toList := by
    intro c hc
    obtain rfl : ' ' = c := by simpa using hc
    decide
  have hcode := (@liesInCode_iff_of_head asciiClasses db _ hhead tableBrowseMaterializeMarker
    "' FROM t".toList).mp h
  cases db <;> exact absurd hcode (by decide +kernel)

end SpaceQuery.TableBrowse
