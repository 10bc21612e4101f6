import SpaceQuery.Script.MysqlText
import SpaceQuery.Script.TopLevel
import SpaceQuery.Splitter.Engine

/-!
`validate_result_edit_expression` of `db/result_edit.rs`: the texts that are put behind `SET col =`
or into `VALUES (..)` as they are. A comma is looked for with `TopLevelScanner`, which reads quotes
by Oracle's rules, and nothing looks whether quotes and parentheses are closed.
-/

namespace SpaceQuery.ResultEdit

open Prod Option List RustText SqlText Script Lexing

/-! ### The check -/

inductive ScriptItem where
  | statement (text : List Char)
  | toolCommand (line : List Char)
  deriving DecidableEq

/-- What depends on the database; `splitScriptItems` is `split_script_items_for_db_type`. -/
structure BackendPolicy where
  hashStartsLineComment : Bool
  splitScriptItems : List Char → List ScriptItem

def mysqlPolicy (splitScriptItems : List Char → List ScriptItem) : BackendPolicy :=
  ⟨true, splitScriptItems⟩

/-- `str::contains`. -/
def contains (text pattern : List Char) : Bool := (afterFind pattern text).isSome

def resultEditExpressionHasTopLevelComma (sql : List Char) : Bool :=
  (findFirstTopLevelComma sql).isSome

def validateResultEditExpression (policy : BackendPolicy) (expression : List Char) :
    Except String (List Char) :=
  let normalized := trim expression
  if normalized.isEmpty then .error "SQL expression after '=' cannot be empty."
  else if contains normalized [';'] || contains normalized "--".toList
      || contains normalized "/*".toList || contains normalized "*/".toList
      || resultEditExpressionHasTopLevelComma normalized
      || (policy.hashStartsLineComment && contains normalized ['#']) then
    .error "SQL expression cannot contain statement/comment delimiters or a top-level comma."
  else
    match policy.splitScriptItems normalized with
    | [.statement _] => .ok normalized
    | _ => .error "SQL expression must contain exactly one expression."

/-! ### Operands -/

/-- The quote at the start of a quoted text is closed. -/
def closesQuote (escapes : Bool) (quote : Char) : List Char → Bool
  | [] => false
  | [c] => c = quote
  | c :: d :: rest =>
    if escapes && c = '\\' then closesQuote escapes quote rest
    else c = quote || closesQuote escapes quote (d :: rest)

def closedToken : TextKind × List Char → Bool
  | (.quoted, quote :: body) => closesQuote (quote ≠ '\x60') quote body
  | _ => true

variable (text : List Char)

/-- MySQL reads no literal of the text up to its end without finding its quote. -/
def literalsClosed : Bool := (mysqlLexer.tokens [] text).all closedToken

/-- The depth of parentheses behind some characters; `none` if one closes that is not open. -/
def depthThrough : ℕ → List (Char × TextKind) → Option ℕ
  | depth, [] => some depth
  | depth, mark :: marks =>
    if mark = ('(', .code) then depthThrough (depth + 1) marks
    else if mark = (')', .code) then if depth = 0 then none else depthThrough (depth - 1) marks
    else depthThrough depth marks

def ParenthesesBalanced : Prop :=
  depthThrough 0 (mysqlLexer.marks [] text) = some 0

/-- MySQL reads a comma outside of parentheses behind the characters `front`. -/
def CommaBehind (front : List (Char × TextKind)) : Prop :=
  depthThrough 0 front = some 0 ∧ ∃ back, mysqlLexer.marks [] text = front ++ (',', .code) :: back

/-- The text is one operand where code may stand. -/
structure IsOperand (text : List Char) : Prop where
  closed : literalsClosed text = true
  balanced : ParenthesesBalanced text
  comma : ∀ front, ¬ CommaBehind text front
  semicolon : (';', .code) ∉ mysqlLexer.marks [] text
  comment : ∀ mark ∈ mysqlLexer.marks [] text, mark.2 ≠ .comment

/-- The quote that a text leaves open and the depth of parentheses behind it, read character by
character from an open quote and a depth; `none` if a parenthesis closes that is not open. -/
def leaves : Option Char → ℕ → List Char → Option (Option Char × ℕ)
  | quote, depth, [] => some (quote, depth)
  | none, depth, c :: rest =>
    if c = '(' then leaves none (depth + 1) rest
    else if c = ')' then if depth = 0 then none else leaves none (depth - 1) rest
    else leaves (if isMysqlQuote c then some c else none) depth rest
  | some quote, depth, [c] => some (if c = quote then none else some quote, depth)
  | some quote, depth, c :: d :: rest =>
    if quote ≠ '\x60' && c = '\\' then leaves (some quote) depth rest
    else leaves (if c = quote then none else some quote) depth (d :: rest)

/-- The scanner reads a comma outside of parentheses behind `n` characters. -/
def ScannerSees (n : ℕ) : Prop :=
  ∃ P R, scanLexer.tokens [] text = P ++ (.symbol, [',']) :: R ∧ depthAfter 0 P = 0 ∧
    (textOf P).length = n

/-- The scanner sees the commas that MySQL sees. -/
def CommasSeen : Prop :=
  ∀ front, CommaBehind text front → ScannerSees text front.length

/-! ### Accepted texts -/

lemma contains_append (before pattern after : List Char) :
    contains (before ++ pattern ++ after) pattern := by
  rw [contains, append_assoc]
  induction before with
  | nil =>
    rw [nil_append]
    cases h : pattern ++ after with
    | nil => rw [afterFind, ← h, stripPrefix_append]; rfl
    | cons c rest => rw [afterFind, ← h, stripPrefix_append]; rfl
  | cons c before ih => rw [cons_append, afterFind, isSome_or, ih, Bool.or_true]

variable {text rest : List Char}

lemma contains_eq_false {pattern : List Char} (h : contains text pattern = false) :
    ¬ pattern <:+: text := by
  rintro ⟨before, after, rfl⟩
  rw [contains_append] at h
  exact absurd h (by simp)

/-- None of the patterns is in the text. -/
def Avoids (patterns : List (List Char)) (text : List Char) : Prop :=
  ∀ p ∈ patterns, ¬ p <:+: text

variable {c : Char}

namespace Avoids

variable {patterns : List (List Char)}

lemma of_suffix (h : Avoids patterns text) (hrest : rest <:+ text) : Avoids patterns rest :=
  fun p hp hin => h p hp (hin.trans hrest.isInfix)

lemma isPrefixOf_eq_false (h : Avoids patterns text) {p : List Char} (hp : p ∈ patterns) :
    p.isPrefixOf text = false := by
  rw [Bool.eq_false_iff, ne_eq, List.isPrefixOf_iff_prefix]
  exact fun hpre => h p hp hpre.isInfix

lemma notMem (h : Avoids patterns text) (hc : [c] ∈ patterns) : c ∉ text := by
  intro hin
  obtain ⟨before, after, rfl⟩ := append_of_mem hin
  exact h [c] hc ⟨before, after, by simp⟩

end Avoids

/-- What starts a comment, and what ends a statement. -/
@[simp] def delimiters : List (List Char) := [[';'], "--".toList, "/*".toList, ['#']]

lemma mysqlNext_of_avoids (h : Avoids delimiters (c :: rest)) :
    mysqlNext (c :: rest) = if isMysqlQuote c then
      (.quoted, 1 + throughQuote (c ≠ '\x60') c rest) else (.code, 1) := by
  have hdashes : "--".toList.isPrefixOf (c :: rest) = false :=
    h.isPrefixOf_eq_false (by simp)
  have hblock : "/*".toList.isPrefixOf (c :: rest) = false :=
    h.isPrefixOf_eq_false (by simp)
  have hhash : c ≠ '#' := fun heq => h.notMem (c := '#') (by simp) (by simp [heq])
  have hline : startsMysqlLineComment (c :: rest) = false := by
    rw [startsMysqlLineComment, isMysqlDashCommentStart, hdashes]
    simpa using hhash
  rw [mysqlNext, hline, hblock, if_neg Bool.false_ne_true, if_neg Bool.false_ne_true]

lemma not_comment_of_avoids (h : Avoids delimiters text) (before : List Char) :
    ∀ mark ∈ mysqlLexer.marks before text, mark.2 ≠ .comment := by
  induction before, text using mysqlLexer.tokens_induction with
  | nil before => simp
  | cons before c rest ih =>
    rw [Lexer.marks_cons, forall_mem_append]
    refine ⟨?_, ih (h.of_suffix (drop_suffix _ _))⟩
    have hkind : (mysqlLexer.next before (c :: rest)).1 ≠ .comment := by
      change (mysqlNext (c :: rest)).1 ≠ _
      rw [mysqlNext_of_avoids h]
      split_ifs <;> simp
    intro mark hmark
    obtain ⟨d, -, rfl⟩ := mem_map.mp hmark
    exact hkind

/-- What is known of an accepted text. -/
lemma accepted_spec {split : List Char → List ScriptItem} {expression : List Char}
    (h : validateResultEditExpression (mysqlPolicy split) expression = .ok text) :
    Avoids delimiters text ∧ findFirstTopLevelComma text = none := by
  unfold validateResultEditExpression at h
  dsimp only at h
  split_ifs at h with hempty hdelim
  obtain rfl : trim expression = text := by
    split at h
    · exact Except.ok.inj h
    · simp at h
  simp only [mysqlPolicy, Bool.true_and, Bool.or_eq_true, not_or, Bool.not_eq_true,
    resultEditExpressionHasTopLevelComma, isSome_eq_false_iff, isNone_iff_eq_none]
    at hdelim
  obtain ⟨⟨⟨⟨⟨hsemicolon, hdashes⟩, hblock⟩, -⟩, hcomma⟩, hhash⟩ := hdelim
  refine ⟨?_, hcomma⟩
  simp only [Avoids, delimiters, forall_mem_cons, not_mem_nil, false_implies,
    implies_true, and_true]
  exact ⟨contains_eq_false hsemicolon, contains_eq_false hdashes, contains_eq_false hblock,
    contains_eq_false hhash⟩

/-- The scanner has found no comma. -/
lemma not_scannerSees (h : findFirstTopLevelComma text = none) (n : ℕ) : ¬ ScannerSees text n := by
  rintro ⟨P, R, htoks, hdepth, -⟩
  rw [findFirstTopLevelComma, htoks] at h
  cases hP : findIn isTopLevelComma 0 P with
  | none =>
    rw [findIn_append hP, hdepth] at h
    simp [findIn, isTopLevelComma] at h
  | some m =>
    obtain ⟨Q, piece, S, rfl, hnone, hfound, -⟩ := exists_of_findIn hP
    rw [append_assoc, findIn_append hnone, cons_append, findIn, if_pos hfound] at h
    simp at h

/-! ### Texts that the scanner reads as MySQL does -/

/-- What only one of the two readers knows: escapes, backticks and q-quotes. -/
def oneSided : List (List Char) := [['\\'], ['\x60'], "q'".toList, "Q'".toList]

/-- A doubled quote closes a literal and opens the next one. -/
lemma quotedLength_eq {quote : Char} (h : '\\' ∉ text) : quotedLength false quote text
      = if (text.drop (throughQuote true quote text)).head? = some quote then
          throughQuote true quote text + 1
            + quotedLength false quote (text.drop (throughQuote true quote text + 1))
        else throughQuote true quote text := by
  induction text using quotedLength.induct false quote with
  | case1 => rfl
  | case2 c => rfl
  | case3 c d rest hslash => simp at hslash
  | case4 rest hslash ih =>
    have hne : quote ≠ '\\' := fun heq => h (by simp [heq])
    simp [quotedLength, throughQuote, hne]
  | case5 d rest hd hslash =>
    have hne : quote ≠ '\\' := fun heq => h (by simp [heq])
    simp [quotedLength, throughQuote, hne, hd]
  | case6 c d rest hslash hc ih =>
    rw [mem_cons, not_or] at h
    have hthrough : throughQuote true quote (c :: d :: rest)
        = throughQuote true quote (d :: rest) + 1 := by
      rw [throughQuote, if_neg (by simpa using Ne.symm h.1), if_neg hc, add_comm]
    rw [quotedLength, ih h.2, hthrough]
    simp only [drop_succ_cons]
    split_ifs <;> omega

/-- MySQL reads what the scanner takes for a literal as one or more literals. -/
lemma reads_quoted {quote : Char} (hquote : quote = '\'' ∨ quote = '"')
    (h : Avoids delimiters (quote :: rest)) (hslash : '\\' ∉ rest) (before : List Char) :
    mysqlLexer.Reads before (quote :: rest.take (quotedLength false quote rest))
      ((quote :: rest.take (quotedLength false quote rest)).map (·, .quoted))
      (rest.drop (quotedLength false quote rest)) := by
  induction hn : rest.length using Nat.strong_induction_on generalizing rest before with
  | _ n ih =>
    have hnext : mysqlLexer.next before (quote :: rest)
        = (.quoted, throughQuote true quote rest + 1) := by
      change mysqlNext _ = _
      rw [mysqlNext_of_avoids h]
      rcases hquote with rfl | rfl <;> simp [isMysqlQuote, Nat.add_comm]
    have hfirst := Lexer.Reads.of_take (cons_ne_nil quote rest) hnext
    rw [quotedLength_eq hslash]
    split_ifs with hdouble
    · obtain ⟨tail, htail⟩ := head?_eq_some_iff.mp hdouble
      have hdrop : rest.drop (throughQuote true quote rest + 1) = tail := by
        rw [← drop_drop, htail, drop_succ_cons, drop_zero]
      have hsuf : quote :: tail <:+ rest := htail ▸ drop_suffix _ _
      have hlt : tail.length < n := by
        have := hsuf.length_le
        rw [length_cons] at this
        omega
      have hsecond := ih _ hlt (h.of_suffix (hsuf.trans (suffix_cons _ _)))
        (fun hin => hslash (hsuf.subset (mem_cons_of_mem _ hin)))
        ((quote :: rest.take (throughQuote true quote rest)).reverse ++ before) rfl
      set m := quotedLength false quote tail with hm
      have htake : rest.take (throughQuote true quote rest + 1 + m)
          = rest.take (throughQuote true quote rest) ++ quote :: tail.take m := by
        rw [Nat.add_assoc, take_add, htail, Nat.add_comm 1, take_succ_cons]
      have hrest : rest.drop (throughQuote true quote rest + 1 + m) = tail.drop m := by
        rw [← drop_drop, hdrop]
      rw [hdrop, htake, hrest, ← cons_append, map_append]
      refine .append ?_ hsecond
      rw [cons_append, take_append_drop, ← htail]
      exact hfirst
    · exact hfirst

/-- How MySQL reads a piece. -/
def pieceMarks (piece : Piece) : List (Char × TextKind) :=
  piece.2.map (·, if piece.1 = .quoted then .quoted else .code)

/-- The pieces of such a text. -/
inductive IsPlainPiece : Piece → Prop
  | openParen : IsPlainPiece (.openParen, ['('])
  | closeParen : IsPlainPiece (.closeParen, [')'])
  | comma : IsPlainPiece (.symbol, [','])
  | other {k : PieceKind} {w : List Char} : k ≠ .openParen → k ≠ .closeParen →
      (∀ c ∈ ['(', ')', ','], (c, .code) ∉ pieceMarks (k, w)) → IsPlainPiece (k, w)

/-- A piece of one character. -/
lemma IsPlainPiece.single {k : PieceKind} (hopen : k ≠ .openParen) (hclose : k ≠ .closeParen)
    (hc : c ∉ ['(', ')', ',']) : IsPlainPiece (k, [c]) := by
  refine .other hopen hclose fun d hd hin => hc ?_
  obtain ⟨e, he, heq⟩ := mem_map.mp hin
  rw [mem_singleton.mp he] at heq
  rwa [(mk.inj heq).1]

lemma scanNext_of_avoids (h : Avoids delimiters (c :: rest))
    (hsided : Avoids oneSided (c :: rest)) (before : List Char) :
    scanNext before (c :: rest) = plainNext (c :: rest) := by
  have hline : scanLineComment before (c :: rest) = none := by
    have hdashes : "--".toList.isPrefixOf (c :: rest) = false :=
      h.isPrefixOf_eq_false (by simp)
    have hhash : c ≠ '#' := fun heq => h.notMem (c := '#') (by simp) (by simp [heq])
    simp only [scanLineComment, sqlLineCommentPrefixLen_eq, hdashes]
    simp [hhash]
  have hopening : scanQQuoteOpeningLength (c :: rest) = none := by
    have hq : ∀ {v}, v <:+ c :: rest → "q'".toList.isPrefixOf v = false ∧
        "Q'".toList.isPrefixOf v = false := fun hv =>
      ⟨(hsided.of_suffix hv).isPrefixOf_eq_false (by simp [oneSided]),
        (hsided.of_suffix hv).isPrefixOf_eq_false (by simp [oneSided])⟩
    have hfirst := hq suffix_rfl
    rcases rest with _ | ⟨d, _ | ⟨e, rest⟩⟩
    · simp [scanQQuoteOpeningLength]
    · simp [scanQQuoteOpeningLength]
      grind
    · simp [scanQQuoteOpeningLength]
      grind
  rw [scanNext, scanQQuoteOpening, hopening, hline]
  rfl

/-- Characters that MySQL reads as code, one by one. -/
lemma reads_code {w : List Char} (hclean : Avoids delimiters (w ++ rest))
    (h : ∀ c ∈ w, isMysqlQuote c = false) (before : List Char) :
    mysqlLexer.Reads before w (w.map (·, .code)) rest := by
  refine .of_forall fun u c v hw => ?_
  change mysqlNext _ = _
  rw [mysqlNext_of_avoids (hclean.of_suffix ⟨u, by rw [hw]; simp⟩),
    if_neg (by rw [h c (by simp [hw])]; simp)]

/-- **The first piece of such a text** is read by MySQL as the scanner does. -/
lemma scanNext_spec (hclean : Avoids delimiters (c :: rest))
    (halike : Avoids oneSided (c :: rest)) (before before' : List Char) {k : PieceKind} {n : ℕ}
    (hnext : scanNext before (c :: rest) = (k, n)) :
    IsPlainPiece (k, (c :: rest).take n) ∧ mysqlLexer.Reads before' ((c :: rest).take n)
      (pieceMarks (k, (c :: rest).take n)) ((c :: rest).drop n) := by
  have hblock : "/*".toList.isPrefixOf (c :: rest) = false :=
    hclean.isPrefixOf_eq_false (by simp)
  have htick : c ≠ '\x60' := fun heq =>
    halike.notMem (c := '\x60') (by simp [oneSided]) (by simp [heq])
  rw [scanNext_of_avoids hclean halike, plainNext, hblock, if_neg Bool.false_ne_true] at hnext
  by_cases hquote : c = '\'' ∨ c = '"'
  · rw [if_pos (by simpa using hquote)] at hnext
    cases hnext
    have hslash : '\\' ∉ rest := fun hin =>
      halike.notMem (by simp [oneSided]) (mem_cons_of_mem _ hin)
    rw [Nat.add_comm]
    refine ⟨.other (by simp) (by simp) fun d _ hin => ?_, reads_quoted hquote hclean hslash before'⟩
    obtain ⟨e, -, heq⟩ := mem_map.mp hin
    simp at heq
  rw [if_neg (by simpa using hquote)] at hnext
  have hcode : isMysqlQuote c = false := by
    rw [not_or] at hquote
    simp [isMysqlQuote, hquote, htick]
  suffices h : k ≠ .quoted ∧ IsPlainPiece (k, (c :: rest).take n) ∧
      ∀ d ∈ (c :: rest).take n, isMysqlQuote d = false by
    refine ⟨h.2.1, ?_⟩
    rw [pieceMarks, if_neg h.1]
    exact reads_code (by rwa [take_append_drop]) h.2.2 before'
  by_cases hopen : c = '('
  · rw [if_pos hopen] at hnext
    cases hnext
    exact ⟨by simp, hopen ▸ .openParen, by simpa using hcode⟩
  by_cases hclose : c = ')'
  · rw [if_neg hopen, if_pos hclose] at hnext
    cases hnext
    exact ⟨by simp, hclose ▸ .closeParen, by simpa using hcode⟩
  rw [if_neg hopen, if_neg hclose] at hnext
  by_cases hspace : isAsciiWhitespace c
  · rw [if_pos hspace] at hnext
    cases hnext
    refine ⟨by simp, .single (by simp) (by simp) fun hin => ?_, by simpa using hcode⟩
    have hall : ∀ d ∈ ['(', ')', ','], isAsciiWhitespace d = false := by simp [isAsciiWhitespace]
    exact absurd hspace (by simp [hall c hin])
  rw [if_neg hspace] at hnext
  by_cases hstart : isIdentifierStartByte c
  · rw [if_pos hstart] at hnext
    cases hnext
    have hbytes : ∀ d ∈ c :: rest.takeWhile isIdentifierByte, isIdentifierByte d := by
      refine forall_mem_cons.mpr ⟨?_, fun d hd => mem_takeWhile_imp hd⟩
      simp only [isIdentifierStartByte, Bool.or_eq_true] at hstart
      simp only [isIdentifierByte, Char.isAlphanum, Bool.or_eq_true]
      tauto
    have hword : (c :: rest).take (1 + (rest.takeWhile isIdentifierByte).length)
        = c :: rest.takeWhile isIdentifierByte := by
      rw [Nat.add_comm, take_succ_cons, prefix_iff_eq_take.mp (List.takeWhile_prefix _) |>.symm]
    rw [hword]
    have hne : ∀ q, isIdentifierByte q = false → q ∉ c :: rest.takeWhile isIdentifierByte := by
      intro q hq hin
      exact absurd (hbytes q hin) (by simp [hq])
    refine ⟨by simp, .other (by simp) (by simp) fun d hd hin => ?_, fun d hd => ?_⟩
    · obtain ⟨e, he, heq⟩ := mem_map.mp hin
      rw [(mk.inj heq).1] at he
      have hall : ∀ d ∈ ['(', ')', ','], isIdentifierByte d = false := by simp [isIdentifierByte]
      exact hne d (hall d hd) he
    · rw [Bool.eq_false_iff]
      intro hq
      simp only [isMysqlQuote, Bool.or_eq_true, decide_eq_true_eq] at hq
      rcases hq with (rfl | rfl) | rfl <;> exact hne _ (by decide) hd
  · rw [if_neg hstart] at hnext
    cases hnext
    refine ⟨by simp, ?_, by simpa using hcode⟩
    by_cases hcomma : c = ','
    · exact hcomma ▸ .comma
    · exact .single (by simp) (by simp) (by simp [hopen, hclose, hcomma])

/-! ### Commas -/

/-- A comma that MySQL reads in a piece is the piece. -/
lemma IsPlainPiece.eq_comma {piece : Piece} (h : IsPlainPiece piece)
    {front back : List (Char × TextKind)} (heq : pieceMarks piece = front ++ (',', .code) :: back) :
    piece = (.symbol, [',']) ∧ front = [] := by
  have hmem : (',', TextKind.code) ∈ pieceMarks piece := by simp [heq]
  cases h with
  | openParen | closeParen => simp [pieceMarks] at hmem
  | comma =>
    have hlen := congrArg length heq
    simp only [pieceMarks, map_cons, map_nil, length_cons, length_nil, length_append] at hlen
    exact ⟨rfl, length_eq_zero_iff.mp (by omega)⟩
  | other hopen hclose hnot => exact absurd hmem (hnot ',' (by simp))

lemma depthThrough_append {w : List (Char × TextKind)} (hopen : ('(', .code) ∉ w)
    (hclose : (')', .code) ∉ w) (depth : ℕ) (marks : List (Char × TextKind)) :
    depthThrough depth (w ++ marks) = depthThrough depth marks := by
  induction w with
  | nil => rfl
  | cons mark w ih =>
    rw [mem_cons, not_or] at hopen hclose
    rw [cons_append, depthThrough, if_neg (Ne.symm hopen.1), if_neg (Ne.symm hclose.1),
      ih hopen.2 hclose.2]

/-- The depth behind a piece is the scanner's, as long as no parenthesis closes too many. -/
lemma IsPlainPiece.depthThrough_eq {piece : Piece} (h : IsPlainPiece piece) {depth depth' : ℕ}
    {marks : List (Char × TextKind)}
    (heq : depthThrough depth (pieceMarks piece ++ marks) = some depth') :
    depthThrough (depthStep depth piece.1) marks = some depth' := by
  cases h with
  | openParen => exact heq
  | closeParen =>
    change (if depth = 0 then none else depthThrough (depth - 1) marks) = _ at heq
    split_ifs at heq
    exact heq
  | comma => exact heq
  | @other k w hopen hclose hnot =>
    rw [depthThrough_append (hnot _ (by simp)) (hnot _ (by simp))] at heq
    have hstep : depthStep depth k = depth := by
      cases k <;> first | rfl | contradiction
    rwa [hstep]

/-- The scanner goes through the commas that MySQL reads. -/
lemma exists_comma (hclean : Avoids delimiters text) (halike : Avoids oneSided text)
    (before before' : List Char) {depth depth' : ℕ} {front back : List (Char × TextKind)}
    (hmarks : mysqlLexer.marks before' text = front ++ (',', .code) :: back)
    (hdepth : depthThrough depth front = some depth') :
    ∃ P R, scanLexer.tokens before text = P ++ (.symbol, [',']) :: R ∧
      depthAfter depth P = depth' ∧ (textOf P).length = front.length := by
  induction before, text using scanLexer.tokens_induction generalizing before' depth front with
  | nil before => simp at hmarks
  | cons before c rest ih =>
    obtain ⟨k, n, hnext⟩ : ∃ k n, scanLexer.next before (c :: rest) = (k, n) := ⟨_, _, rfl⟩
    obtain ⟨hpiece, hread⟩ := scanNext_spec hclean halike before before' hnext
    rw [Lexer.Reads, take_append_drop] at hread
    rw [hread] at hmarks
    rw [scanLexer.tokens_cons, hnext]
    rw [hnext] at ih
    have hsuf := drop_suffix n (c :: rest)
    -- the comma is behind the piece
    have hbehind : ∀ front', front = pieceMarks (k, (c :: rest).take n) ++ front' →
        mysqlLexer.marks (((c :: rest).take n).reverse ++ before') ((c :: rest).drop n)
          = front' ++ (',', .code) :: back →
        ∃ P R, (k, (c :: rest).take n) :: scanLexer.tokens (((c :: rest).take n).reverse ++ before)
            ((c :: rest).drop n) = P ++ (.symbol, [',']) :: R ∧
          depthAfter depth P = depth' ∧ (textOf P).length = front.length := by
      rintro front' rfl hrest
      obtain ⟨P, R, htoks, hdepthP, hlen⟩ := ih (hclean.of_suffix hsuf)
        (halike.of_suffix hsuf) _ hrest (hpiece.depthThrough_eq hdepth)
      refine ⟨(k, (c :: rest).take n) :: P, R, congrArg _ htoks, hdepthP, ?_⟩
      rw [textOf_cons, length_append, length_append, hlen, pieceMarks, length_map]
    rcases append_eq_append_iff.mp hmarks with ⟨front', hfront, hrest⟩ | ⟨more, hwhole, hcomma⟩
    · exact hbehind front' hfront hrest
    · cases more with
      | nil => exact hbehind [] (by simpa using hwhole.symm) (by simpa using hcomma.symm)
      | cons mark more =>
        cases hcomma
        obtain ⟨heq, rfl⟩ := hpiece.eq_comma hwhole
        rw [heq]
        exact ⟨[], _, rfl, some.inj hdepth, rfl⟩

/-! ### Closed literals and balanced parentheses -/

/-- A quote is open up to the character that closes it. -/
lemma leaves_quoted (quote : Char) (depth : ℕ) (rest : List Char) : leaves (some quote) depth rest =
      if closesQuote (quote ≠ '\x60') quote (rest.take (throughQuote (quote ≠ '\x60') quote rest))
      then leaves none depth (rest.drop (throughQuote (quote ≠ '\x60') quote rest))
      else some (some quote, depth) := by
  induction rest using throughQuote.induct (quote ≠ '\x60') quote with
  | case1 => simp [leaves, closesQuote]
  | case2 c => by_cases hc : c = quote <;> simp [leaves, throughQuote, closesQuote, hc]
  | case3 c d rest hslash ih =>
    rw [leaves, if_pos hslash, throughQuote, if_pos hslash, Nat.add_comm, ih]
    simp only [take_succ_cons, drop_succ_cons, closesQuote, if_pos hslash]
  | case4 d rest hslash =>
    rw [leaves, if_neg hslash, if_pos rfl, throughQuote, if_neg hslash, if_pos rfl]
    simp [closesQuote]
  | case5 c d rest hslash hc ih =>
    obtain ⟨n, hn⟩ : ∃ n, throughQuote (quote ≠ '\x60') quote (d :: rest) = n + 1 := by
      refine Nat.exists_eq_add_one_of_ne_zero ?_
      cases rest <;> rw [throughQuote]
      · exact one_ne_zero
      · split_ifs <;> omega
    rw [leaves, if_neg hslash, if_neg hc, throughQuote, if_neg hslash, if_neg hc, Nat.add_comm, ih,
      hn]
    simp only [take_succ_cons, drop_succ_cons, closesQuote, if_neg hslash, hc, decide_false,
      Bool.false_or]

/-- Literals are closed and parentheses balanced if the text leaves nothing open. -/
lemma leaves_eq_iff (h : Avoids delimiters text) (before : List Char) (depth : ℕ) :
    leaves none depth text = some (none, 0) ↔ (mysqlLexer.tokens before text).all closedToken ∧
      depthThrough depth (mysqlLexer.marks before text) = some 0 := by
  induction before, text using mysqlLexer.tokens_induction generalizing depth with
  | nil before => simp [leaves, depthThrough]
  | cons before c rest ih =>
    have hnext : mysqlLexer.next before (c :: rest) = _ := mysqlNext_of_avoids h
    replace ih := ih (h.of_suffix (drop_suffix _ _))
    rw [Lexer.tokens_cons, Lexer.marks_cons, all_cons, Bool.and_eq_true]
    cases hq : isMysqlQuote c with
    | true =>
      have hparen : c ≠ '(' ∧ c ≠ ')' := by
        constructor <;> rintro rfl <;> exact absurd hq (by decide)
      have hquoted : ∀ d, (d, TextKind.code) ∉
          (c :: rest.take (throughQuote (c ≠ '\x60') c rest)).map (·, TextKind.quoted) := by
        intro d hd
        obtain ⟨e, -, heq⟩ := mem_map.mp hd
        cases heq
      rw [hq, if_pos rfl, Nat.add_comm] at hnext
      simp only [hnext, take_succ_cons, drop_succ_cons] at ih ⊢
      rw [leaves, if_neg hparen.1, if_neg hparen.2, hq, if_pos rfl, leaves_quoted,
        depthThrough_append (hquoted _) (hquoted _), closedToken, and_assoc, ← ih depth]
      split_ifs with hclosed
      · exact (and_iff_right hclosed).symm
      · exact iff_of_false (by simp) fun hall => hclosed hall.1
    | false =>
      rw [hq, if_neg Bool.false_ne_true] at hnext
      simp only [hnext, take_succ_cons, take_zero, drop_succ_cons, drop_zero, map_cons, map_nil,
        singleton_append, closedToken, true_and] at ih ⊢
      rw [leaves, depthThrough, hq, if_neg Bool.false_ne_true]
      simp only [mk.injEq, and_true]
      split_ifs <;> simp [ih]

/-- **An accepted expression is one operand** exactly when it leaves no literal and no parenthesis
open and the scanner sees the commas that MySQL sees. It does if nothing in the text is read by one
of the two only. -/
theorem isOperand_iff {split : List Char → List ScriptItem} {expression text : List Char}
    (h : validateResultEditExpression (mysqlPolicy split) expression = .ok text) :
    (IsOperand text ↔ leaves none 0 text = some (none, 0) ∧ CommasSeen text) ∧
      (Avoids oneSided text → CommasSeen text) := by
  obtain ⟨hclean, hcomma⟩ := accepted_spec h
  rw [leaves_eq_iff hclean [] 0]
  refine ⟨⟨fun hop => ⟨⟨hop.closed, hop.balanced⟩, fun front hfront =>
    absurd hfront (hop.comma front)⟩, ?_⟩, ?_⟩
  · rintro ⟨⟨hclosed, hbalanced⟩, hseen⟩
    refine ⟨hclosed, hbalanced, fun front hfront => not_scannerSees hcomma _ (hseen front hfront),
      fun hin => hclean.notMem (c := ';') (by simp) ?_,
      not_comment_of_avoids hclean []⟩
    rw [← mysqlLexer.marks_map_fst [] text]
    exact mem_map_of_mem hin
  · rintro halike front ⟨hdepth, back, hmarks⟩
    exact exists_comma hclean halike [] [] hmarks hdepth

/-- The splitter on a text of one line that is no command. -/
def splitLine [UnicodeClasses] (text : List Char) : List ScriptItem :=
  ((Splitter.SqlParserEngine.new true).feedSplitterLine text {}).finalize.statements.map .statement

theorem isOperand_coalesce :
    validateResultEditExpression (mysqlPolicy (@splitLine asciiClasses)) " COALESCE(a, 'x')".toList
        = .ok "COALESCE(a, 'x')".toList ∧ IsOperand "COALESCE(a, 'x')".toList := by
  have haccepted : validateResultEditExpression (mysqlPolicy (@splitLine asciiClasses))
      " COALESCE(a, 'x')".toList = .ok "COALESCE(a, 'x')".toList := by rfl
  obtain ⟨hiff, hseen⟩ := isOperand_iff haccepted
  refine ⟨haccepted, hiff.mpr ⟨by decide, hseen ?_⟩⟩
  unfold Avoids
  decide

/-- **An escaped quote hides a comma from the scanner**: the text is accepted, and it assigns
another column. -/
theorem escaped_quote_hides_comma :
    validateResultEditExpression (mysqlPolicy (@splitLine asciiClasses))
        "'\\'', b=('x')".toList = .ok "'\\'', b=('x')".toList ∧
      ¬ IsOperand "'\\'', b=('x')".toList := by
  refine ⟨by rfl, fun h => ?_⟩
  refine h.comma ("'\\''".toList.map (·, .quoted)) ⟨by decide, " b=".toList.map (·, .code)
    ++ ('(', .code) :: ("'x'".toList.map (·, .quoted) ++ [(')', .code)]), by decide⟩

end SpaceQuery.ResultEdit
