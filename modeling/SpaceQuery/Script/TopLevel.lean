import SpaceQuery.Classify.Words

/-!
`TopLevelScanner` of `script.rs`: the pieces of a statement, and the words and symbols among
them that are outside parentheses, comments and quoted texts.
-/

namespace SpaceQuery.Script

open Prod Option List RustText SqlText Lexing

inductive PieceKind
  | blank | comment | quoted | openParen | closeParen | word | symbol
  deriving DecidableEq

/-- A piece of a text. -/
abbrev Piece := PieceKind × List Char

def isIdentifierStartByte (c : Char) : Bool := c.isAlpha || c = '_' || c = '$' || c = '#'

variable (text : List Char)

/-- The length of the opening of a q-quote, with its delimiter. -/
def scanQQuoteOpeningLength : Option ℕ :=
  let isQ (c : Char) : Bool := c = 'q' || c = 'Q'
  let isNational (c : Char) : Bool := c = 'n' || c = 'N' || c = 'u' || c = 'U'
  if text[0]?.any isNational && text[1]?.any isQ && text[2]? = some '\'' then some 4
  else if text[0]?.any isQ && text[1]? = some '\'' then some 3
  else none

def scanQQuoteOpening : Option (ℕ × Char) :=
  (scanQQuoteOpeningLength text).bind fun length =>
    (text[length - 1]?.filter isValidQQuoteDelimiterByte).map (length, ·)

/-- The start of a line comment; the operator `<#>` is none. -/
def scanLineComment (before text : List Char) : Option ℕ :=
  if before.head? = some '<' && "#>".toList.isPrefixOf text then none
  else sqlLineCommentPrefixLen before.head? text

/-- What stands at the start of a text, apart from q-quotes and line comments. -/
def plainNext : PieceKind × ℕ :=
  match text with
  | [] => (.symbol, 1)
  | c :: rest =>
    if "/*".toList.isPrefixOf (c :: rest) then
      (.comment, 2 + throughFind "*/".toList (rest.drop 1))
    else if c = '\'' || c = '"' then (.quoted, 1 + quotedLength false c rest)
    else if c = '(' then (.openParen, 1)
    else if c = ')' then (.closeParen, 1)
    else if isAsciiWhitespace c then (.blank, 1)
    else if isIdentifierStartByte c then (.word, 1 + (rest.takeWhile isIdentifierByte).length)
    else (.symbol, 1)

def scanNext (before text : List Char) : PieceKind × ℕ :=
  match scanQQuoteOpening text with
  | some (length, delimiter) =>
    (.quoted, length + qQuoteBodyLength delimiter (text.drop length))
  | none =>
    match scanLineComment before text with
    | some length =>
      (.comment, length + ((text.drop length).takeWhile (· ≠ '\n')).length)
    | none => plainNext text

variable {length : ℕ} {text : List Char}

lemma scanQQuoteOpening_spec {delimiter : Char}
    (h : scanQQuoteOpening text = some (length, delimiter)) :
    scanQQuoteOpeningLength text = some length ∧ text[length - 1]? = some delimiter ∧
      isValidQQuoteDelimiterByte delimiter := by
  obtain ⟨n, hn, h⟩ := bind_eq_some_iff.mp h
  obtain ⟨c, hc, heq⟩ := map_eq_some_iff.mp h
  cases heq
  rw [filter_eq_some_iff] at hc
  exact ⟨hn, hc⟩

lemma scanQQuoteOpeningLength_eq (h : scanQQuoteOpeningLength text = some length) :
    length = 4 ∨ length = 3 := by
  unfold scanQQuoteOpeningLength at h
  dsimp only at h
  split_ifs at h
  · exact .inl (some.inj h).symm
  · exact .inr (some.inj h).symm

variable {before : List Char}

lemma scanLineComment_pos (h : scanLineComment before text = some length) : 0 < length := by
  unfold scanLineComment sqlLineCommentPrefixLen at h
  grind

lemma plainNext_pos (text : List Char) : 0 < (plainNext text).2 := by
  unfold plainNext
  split
  · exact Nat.one_pos
  · split_ifs <;> simp

/-- The pieces that the scanner goes through. -/
def scanLexer : Lexer Char PieceKind where
  next := scanNext
  next_pos before text := by
    unfold scanNext
    split
    next length delimiter h =>
      have := scanQQuoteOpeningLength_eq (scanQQuoteOpening_spec h).1
      omega
    next =>
      split
      next length h => exact Nat.lt_add_right _ (scanLineComment_pos h)
      next => exact plainNext_pos text

/-! ### Tokens of the top level -/

def depthStep (depth : ℕ) : PieceKind → ℕ
  | .openParen => depth + 1
  | .closeParen => depth - 1
  | _ => depth

/-- The offset of the first piece that is found, at its depth of parentheses. -/
def findIn (found : ℕ → Piece → Bool) : ℕ → List Piece → Option ℕ
  | _, [] => none
  | depth, piece :: pieces =>
    if found depth piece then some 0
    else (findIn found (depthStep depth piece.1) pieces).map (piece.2.length + ·)

/-- A comma that the scanner yields. -/
def isTopLevelComma (depth : ℕ) (piece : Piece) : Bool :=
  depth = 0 && piece = (.symbol, [','])

/-- A word that the scanner yields, and that is the keyword. -/
def isTopLevelKeyword (keyword : String) (depth : ℕ) (piece : Piece) : Bool :=
  depth = 0 && piece.1 = .word && eqIgnoreAsciiCase piece.2 keyword

def findFirstTopLevelComma (sql : List Char) : Option ℕ :=
  findIn isTopLevelComma 0 (scanLexer.tokens [] sql)

def findTopLevelKeyword (sql : List Char) (keyword : String) : Option ℕ :=
  findIn (isTopLevelKeyword keyword) 0 (scanLexer.tokens [] sql)

/-! ### What a piece looks at -/

/-- A character that no piece in front of it goes on with. -/
def isStop (c : Char) : Bool :=
  !isIdentifierByte c && c != '\'' && c != '"' && c != '*' && c != '-' && c != '>'

/-- The end of a text, or a character that no piece goes on with. -/
def Stops (rest : List Char) : Prop := ∀ c ∈ rest.head?, isStop c = true

lemma stops_nil : Stops [] := by simp [Stops]

variable {c : Char}

lemma stops_cons (hc : isStop c) (rest : List Char) : Stops (c :: rest) := by
  intro d hd
  obtain rfl : c = d := by simpa using hd
  exact hc

variable (more : List Char)

lemma stops_comma : Stops (',' :: more) := stops_cons (by decide) more

/-- What a character that stops a piece is not. -/
lemma ne_of_isStop (h : isStop c) :
    isIdentifierByte c = false ∧ c ≠ '\'' ∧ c ≠ '"' ∧ c ≠ '*' ∧ c ≠ '-' ∧ c ≠ '>' := by
  simpa [isStop, and_assoc] using h

variable {rest : List Char}

lemma Stops.eq (h : Stops rest) : rest = [] ∨ ∃ c more, rest = c :: more ∧ isStop c := by
  cases rest with
  | nil => exact .inl rfl
  | cons c more => exact .inr ⟨c, more, rfl, h c rfl⟩

lemma takeWhile_append_of_stops (hrest : Stops rest) (w : List Char) :
    (w ++ rest).takeWhile isIdentifierByte = w.takeWhile isIdentifierByte := by
  have hnil : rest.takeWhile isIdentifierByte = [] := by
    obtain rfl | ⟨c, more, rfl, hc⟩ := hrest.eq
    · rfl
    · rw [takeWhile_cons_of_neg (by simp [(ne_of_isStop hc).1])]
  rw [takeWhile_append]
  split_ifs with hall
  · rw [hnil, append_nil]
    exact ((List.takeWhile_prefix _).eq_of_length hall).symm
  · rfl

variable {w : List Char}

lemma takeWhile_exchange {p : Char → Bool} (hp : p ',') {more : List Char}
    (h : ((w ++ ',' :: more).takeWhile p).length ≤ w.length) (rest' : List Char) :
    (w ++ rest').takeWhile p = (w ++ ',' :: more).takeWhile p := by
  rw [takeWhile_append] at h
  rw [takeWhile_append, takeWhile_append]
  split_ifs at h ⊢
  · rw [takeWhile_cons_of_pos hp, length_append, length_cons] at h
    omega
  · rfl

lemma isPrefixOf_append_of_le {pattern : List Char} (h : pattern.length ≤ w.length)
    (rest : List Char) : pattern.isPrefixOf (w ++ rest) = pattern.isPrefixOf w := by
  rw [Bool.eq_iff_iff, List.isPrefixOf_iff_prefix, List.isPrefixOf_iff_prefix]
  exact ⟨fun hp => prefix_of_prefix_length_le hp (prefix_append w rest) h,
    fun hp => hp.trans (prefix_append w rest)⟩

lemma le_throughFind (pattern text : List Char) :
    pattern.length ≤ throughFind pattern text ∨ throughFind pattern text = text.length := by
  unfold throughFind
  cases hfind : afterFind pattern text with
  | none => exact .inr rfl
  | some rest =>
    obtain ⟨before, rfl⟩ := afterFind_eq_some hfind
    simp only [length_append]
    omega

/-- A pattern that ends inside a text is found without what follows. -/
lemma throughFind_exchange {pattern : List Char} (hpattern : pattern ≠ [])
    (hrest : rest ≠ []) (h : throughFind pattern (w ++ rest) ≤ w.length) (rest' : List Char) :
    throughFind pattern (w ++ rest') = throughFind pattern (w ++ rest) := by
  have hlen := length_pos_iff.mpr hpattern
  induction w with
  | nil =>
    obtain ⟨c, rest, rfl⟩ := exists_cons_of_ne_nil hrest
    rw [nil_append, throughFind_cons, length_nil] at h
    split_ifs at h <;> omega
  | cons c w ih =>
    rw [cons_append, throughFind_cons] at h
    rw [cons_append, cons_append, throughFind_cons, throughFind_cons]
    by_cases hpre : pattern.isPrefixOf (c :: (w ++ rest))
    · rw [if_pos hpre] at h
      rw [← cons_append, isPrefixOf_append_of_le h] at hpre
      have hpre' : ∀ rest, pattern.isPrefixOf (c :: (w ++ rest)) := fun rest => by
        rw [← cons_append, isPrefixOf_append_of_le h, hpre]
      rw [if_pos (hpre' rest), if_pos (hpre' rest')]
    · rw [if_neg hpre, length_cons] at h
      have hle : throughFind pattern (w ++ rest) ≤ w.length := by omega
      -- the pattern fits into the text
      have hfits : pattern.length ≤ (c :: w).length := by
        have hrestlen := length_pos_iff.mpr hrest
        have := le_throughFind pattern (w ++ rest)
        rw [length_append] at this
        rw [length_cons]
        omega
      rw [← cons_append, isPrefixOf_append_of_le hfits] at hpre
      have hpre' : ∀ rest, ¬ pattern.isPrefixOf (c :: (w ++ rest)) := fun rest => by
        rw [← cons_append, isPrefixOf_append_of_le hfits]
        exact hpre
      rw [if_neg (hpre' rest), if_neg (hpre' rest'), ih hle]

variable {rest' : List Char}

/-- A quoted text that is closed inside a text is so without what follows. -/
lemma quotedLength_exchange {quote : Char} (hquote : quote ≠ ',') (more : List Char)
    (hrest' : rest'.head? ≠ some quote) (w : List Char)
    (h : quotedLength false quote (w ++ ',' :: more) ≤ w.length) :
    quotedLength false quote (w ++ rest') = quotedLength false quote (w ++ ',' :: more) := by
  have hcomma : ∀ text, 0 < quotedLength false quote (',' :: text) := by
    intro text
    cases text with
    | nil => exact Nat.one_pos
    | cons d text =>
      rw [quotedLength, if_neg (by simp), if_neg (Ne.symm hquote)]
      omega
  induction hn : w.length using Nat.strong_induction_on generalizing w with
  | _ n ih =>
    match w, hn with
    | [], _ =>
      have := hcomma more
      rw [nil_append, length_nil] at h
      omega
    | [c], _ =>
      rw [singleton_append, quotedLength, if_neg (by simp)] at h
      have hc : c = quote := by
        by_contra hne
        rw [if_neg hne, length_singleton] at h
        have := hcomma more
        omega
      rw [singleton_append, singleton_append, quotedLength, if_neg (by simp), if_pos hc,
        if_neg (Ne.symm hquote)]
      cases rest' with
      | nil => rfl
      | cons d more' =>
        have hd : d ≠ quote := fun hd => hrest' (by rw [hd]; rfl)
        rw [quotedLength, if_neg (by simp), if_pos hc, if_neg hd]
    | c :: d :: w, hn =>
      simp only [length_cons] at hn
      simp only [cons_append, quotedLength, Bool.false_and, Bool.false_eq_true,
        if_false, length_cons] at h ⊢
      split_ifs at h ⊢ with hc hd
      · rw [ih w.length (by omega) w (by omega) rfl]
      · rfl
      · have := ih (w.length + 1) (by omega) (d :: w) (by simpa using by omega) rfl
        rw [cons_append, cons_append] at this
        rw [this]

lemma scanQQuoteOpeningLength_exchange (hw : w ≠ []) (hrest : Stops rest) (hrest' : Stops rest') :
    scanQQuoteOpeningLength (w ++ rest') = scanQQuoteOpeningLength (w ++ rest) := by
  -- neither the quote nor the letter of a q-quote stops a piece
  have hstop : ∀ {c}, isStop c → c ≠ 'q' ∧ c ≠ 'Q' ∧ c ≠ '\'' := by
    rintro c hc
    refine ⟨?_, ?_, (ne_of_isStop hc).2.1⟩ <;> rintro rfl <;> exact absurd hc (by decide)
  match w, hw with
  | [a], _ | [a, b], _ =>
    obtain rfl | ⟨c, more, rfl, hc⟩ := hrest.eq <;>
      obtain rfl | ⟨c', more', rfl, hc'⟩ := hrest'.eq <;>
      simp_all [scanQQuoteOpeningLength]
  | a :: b :: c :: w, _ => rfl

lemma sqlLineCommentPrefixLen_eq (before : Option Char) (text : List Char) :
    sqlLineCommentPrefixLen before text = if "--".toList.isPrefixOf text then some 2
      else if text.head? = some '#' ∧ before.all (!isIdentifierByte ·) then some 1 else none := by
  unfold sqlLineCommentPrefixLen
  split
  · simp
  · simp
  next hdash hhash =>
    have hdash : ¬ "--".toList.isPrefixOf text := by
      intro hpre
      obtain ⟨tail, rfl⟩ := List.isPrefixOf_iff_prefix.mp hpre
      exact hdash tail rfl
    have hhash : text.head? ≠ some '#' := by
      intro hhead
      obtain ⟨tail, rfl⟩ := head?_eq_some_iff.mp hhead
      exact hhash tail rfl
    rw [if_neg hdash, if_neg (fun h => hhash h.1)]

lemma scanLineComment_exchange (before : List Char) (hw : w ≠ [])
    (hrest : Stops rest) (hrest' : Stops rest') :
    scanLineComment before (w ++ rest') = scanLineComment before (w ++ rest) := by
  have hstop : ∀ {c}, isStop c → c ≠ '-' ∧ c ≠ '>' := fun hc =>
    ⟨(ne_of_isStop hc).2.2.2.2.1, (ne_of_isStop hc).2.2.2.2.2⟩
  simp only [scanLineComment, sqlLineCommentPrefixLen_eq]
  match w, hw with
  | [a], _ =>
    obtain rfl | ⟨c, more, rfl, hc⟩ := hrest.eq <;>
      obtain rfl | ⟨c', more', rfl, hc'⟩ := hrest'.eq <;>
      simp_all [isPrefixOf, Ne.symm]
  | a :: b :: w, _ => simp [isPrefixOf]

/-- A q-quote that opens in front of a comma and is not closed there goes on behind it. -/
lemma scanQQuoteOpening_exchange (hw : w ≠ []) (more : List Char) (hrest' : Stops rest')
    (h : ∀ length delimiter, scanQQuoteOpening (w ++ ',' :: more) = some (length, delimiter) →
      length ≤ w.length) :
    scanQQuoteOpening (w ++ rest') = scanQQuoteOpening (w ++ ',' :: more) := by
  unfold scanQQuoteOpening at h ⊢
  rw [scanQQuoteOpeningLength_exchange hw (stops_comma more) hrest']
  cases hlen : scanQQuoteOpeningLength (w ++ ',' :: more) with
  | none => rfl
  | some length =>
    rw [hlen, bind_some] at h
    rw [bind_some, bind_some]
    have hcases := scanQQuoteOpeningLength_eq hlen
    by_cases hle : length ≤ w.length
    · have hget : ∀ rest : List Char, (w ++ rest)[length - 1]? = w[length - 1]? := fun rest =>
        getElem?_append_left (by omega)
      rw [hget, hget]
    · -- the delimiter would be the comma
      have hcomma : (w ++ ',' :: more)[length - 1]? = some ',' := by
        have hshort : w.length = length - 1 := by
          match w, hw with
          | [a], _ => simp [scanQQuoteOpeningLength] at hlen
          | [a, b], _ =>
            have : length = 3 := by
              simp [scanQQuoteOpeningLength] at hlen
              exact hlen.2.symm
            simp [this]
          | a :: b :: c :: w, _ =>
            simp only [length_cons] at hle ⊢
            omega
        rw [← hshort, getElem?_append_right le_rfl, Nat.sub_self]
        rfl
      rw [hcomma] at h
      exact absurd (h length ',' (by simp [isValidQQuoteDelimiterByte, isValidQQuoteDelimiter,
        isWhitespace])) hle

lemma plainNext_exchange (hrest' : Stops rest')
    (w : List Char) (hw : w ≠ []) (h : (plainNext (w ++ ',' :: more)).2 ≤ w.length) :
    plainNext (w ++ rest') = plainNext (w ++ ',' :: more) := by
  obtain ⟨c, w, rfl⟩ := exists_cons_of_ne_nil hw
  have hopen : "/*".toList.isPrefixOf (c :: (w ++ rest'))
      = "/*".toList.isPrefixOf (c :: (w ++ ',' :: more)) := by
    cases w with
    | nil =>
      obtain rfl | ⟨d, more', rfl, hd⟩ := hrest'.eq
      · simp [isPrefixOf]
      · have := (ne_of_isStop hd).2.2.2.1
        simp [isPrefixOf, this.symm]
    | cons d w => simp [isPrefixOf]
  simp only [cons_append, plainNext] at h ⊢
  rw [hopen]
  by_cases hblock : "/*".toList.isPrefixOf (c :: (w ++ ',' :: more))
  · rw [if_pos hblock] at h ⊢
    rw [if_pos hblock]
    cases w with
    | nil => simp [isPrefixOf] at hblock
    | cons d w =>
      simp only [cons_append, drop_succ_cons, drop_zero, length_cons] at h ⊢
      have hle : throughFind "*/".toList (w ++ ',' :: more) ≤ w.length := by omega
      rw [throughFind_exchange (by decide) (cons_ne_nil _ _) hle]
  rw [if_neg hblock] at h ⊢
  rw [if_neg hblock]
  by_cases hquote : (c = '\'' || c = '"')
  · rw [if_pos hquote] at h ⊢
    rw [if_pos hquote]
    have hcomma : c ≠ ',' := by
      rintro rfl
      simp at hquote
    have hle : quotedLength false c (w ++ ',' :: more) ≤ w.length := by
      rw [length_cons] at h
      omega
    have hhead : rest'.head? ≠ some c := by
      intro hhead
      have hstop := ne_of_isStop (hrest' c hhead)
      simp [hstop] at hquote
    rw [quotedLength_exchange hcomma more hhead w hle]
  rw [if_neg hquote, if_neg hquote,
    takeWhile_append_of_stops hrest', takeWhile_append_of_stops (stops_comma more)]

/-- No piece in front of a comma looks behind it. -/
lemma scanNext_exchange (hrest' : Stops rest')
    (before w : List Char) (hw : w ≠ []) (h : (scanNext before (w ++ ',' :: more)).2 ≤ w.length) :
    scanNext before (w ++ rest') = scanNext before (w ++ ',' :: more) := by
  have hopening : scanQQuoteOpening (w ++ rest') = scanQQuoteOpening (w ++ ',' :: more) := by
    refine scanQQuoteOpening_exchange hw more hrest' fun length delimiter hopening => ?_
    rw [scanNext, hopening] at h
    exact le_trans (Nat.le_add_right _ _) h
  unfold scanNext at h ⊢
  rw [hopening, scanLineComment_exchange before hw (stops_comma more) hrest']
  cases hq : scanQQuoteOpening (w ++ ',' :: more) with
  | some opening =>
    obtain ⟨length, delimiter⟩ := opening
    rw [hq] at h
    dsimp only at h ⊢
    have hle : length ≤ w.length := le_trans (Nat.le_add_right _ _) h
    rw [drop_append_of_le_length hle] at h ⊢
    rw [drop_append_of_le_length hle]
    unfold qQuoteBodyLength at h ⊢
    by_cases hascii : delimiter.toNat < 128
    · rw [if_pos hascii] at h ⊢
      have hfind : throughFind [qQuoteClosing delimiter, '\''] (w.drop length ++ ',' :: more)
          ≤ (w.drop length).length := by
        rw [length_drop]
        omega
      rw [if_pos hascii, throughFind_exchange (by simp) (cons_ne_nil _ _) hfind]
    · rw [if_neg hascii, length_append, length_cons, length_drop] at h
      omega
  | none =>
    rw [hq] at h
    cases hline : scanLineComment before (w ++ ',' :: more) with
    | some length =>
      rw [hline] at h
      dsimp only at h ⊢
      have hle : length ≤ w.length := le_trans (Nat.le_add_right _ _) h
      rw [drop_append_of_le_length hle] at h ⊢
      rw [drop_append_of_le_length hle]
      have hline : ((w.drop length ++ ',' :: more).takeWhile (· ≠ '\n')).length
          ≤ (w.drop length).length := by
        rw [length_drop]
        omega
      rw [takeWhile_exchange (by decide) hline]
    | none =>
      rw [hline] at h
      exact plainNext_exchange more hrest' w hw h

/-! ### What stands before a piece -/

/-- A character that a line comment may follow. -/
def isPlainBefore (c : Char) : Bool := !isIdentifierByte c && c != '<'

lemma scanNext_cons (c : Char) (before before' text : List Char) :
    scanNext (c :: before) text = scanNext (c :: before') text := rfl

lemma scanNext_plain (hc : isPlainBefore c) (before text : List Char) :
    scanNext (c :: before) text = scanNext [] text := by
  have hplain : isIdentifierByte c = false ∧ c ≠ '<' := by simpa [isPlainBefore] using hc
  have hline : scanLineComment (c :: before) text = scanLineComment [] text := by
    simp [scanLineComment, sqlLineCommentPrefixLen_eq, hplain.1, hplain.2]
  rw [scanNext, scanNext, hline]

/-- Behind such a character a text is read as from its start. -/
lemma tokens_plain (hc : isPlainBefore c) (before text : List Char) :
    scanLexer.tokens (c :: before) text = scanLexer.tokens [] text :=
  scanLexer.tokens_congr_before scanNext_cons (scanNext_plain hc before) text

/-- A piece of one character, behind which a text is read as from its start. -/
lemma tokens_single {k : PieceKind} (hc : isPlainBefore c)
    (h : scanNext before (c :: rest) = (k, 1)) :
    scanLexer.tokens before (c :: rest) = (k, [c]) :: scanLexer.tokens [] rest := by
  rw [← singleton_append, scanLexer.tokens_of_next (cons_ne_nil c []) h]
  exact congrArg _ (tokens_plain hc before rest)

lemma scanNext_of_plain (hq : scanQQuoteOpening text = none)
    (hline : scanLineComment before text = none) : scanNext before text = plainNext text := by
  rw [scanNext, hq, hline]

/-- Nothing but the letters of a q-quote and the characters of line comments is looked at before
the rest. -/
lemma scanNext_symbol (hq : c ∉ ['q', 'Q', 'n', 'N', 'u', 'U', '#', '-'])
    (before rest : List Char) : scanNext before (c :: rest) = plainNext (c :: rest) := by
  simp only [mem_cons, not_or] at hq
  refine scanNext_of_plain ?_ ?_
  · have : scanQQuoteOpeningLength (c :: rest) = none := by
      simp [scanQQuoteOpeningLength, hq]
    rw [scanQQuoteOpening, this, bind_none]
  · simp [scanLineComment, sqlLineCommentPrefixLen_eq, isPrefixOf, hq, Ne.symm]

lemma tokens_comma (before rest : List Char) :
    scanLexer.tokens before (',' :: rest) = (.symbol, [',']) :: scanLexer.tokens [] rest :=
  tokens_single (by decide) (by
    rw [scanNext_symbol (by decide)]
    rfl)

lemma tokens_closeParen (before rest : List Char) :
    scanLexer.tokens before (')' :: rest) = (.closeParen, [')']) :: scanLexer.tokens [] rest :=
  tokens_single (by decide) (by
    rw [scanNext_symbol (by decide)]
    rfl)

lemma tokens_openParen (before rest : List Char) :
    scanLexer.tokens before ('(' :: rest) = (.openParen, ['(']) :: scanLexer.tokens [] rest :=
  tokens_single (by decide) (by
    rw [scanNext_symbol (by decide)]
    rfl)

/-! ### Segments between commas -/

/-- The depth of parentheses behind some pieces. -/
def depthAfter (depth : ℕ) (pieces : List Piece) : ℕ :=
  pieces.foldl (fun depth piece => depthStep depth piece.1) depth

/-- The text of some pieces. -/
def textOf (pieces : List Piece) : List Char := (pieces.map snd).flatten

lemma depthAfter_cons (depth : ℕ) (piece : Piece) (pieces : List Piece) :
    depthAfter depth (piece :: pieces) = depthAfter (depthStep depth piece.1) pieces := rfl

lemma textOf_cons (piece : Piece) (pieces : List Piece) :
    textOf (piece :: pieces) = piece.2 ++ textOf pieces := rfl

variable {P : List Piece}

lemma findIn_append {found : ℕ → Piece → Bool} {depth : ℕ}
    (h : findIn found depth P = none) (R : List Piece) :
    findIn found depth (P ++ R)
      = (findIn found (depthAfter depth P) R).map ((textOf P).length + ·) := by
  induction P generalizing depth with
  | nil => simp [depthAfter, textOf]
  | cons piece P ih =>
    rw [findIn] at h
    split_ifs at h with hfound
    rw [map_eq_none_iff] at h
    rw [cons_append, findIn, if_neg hfound, ih h, depthAfter_cons, textOf_cons]
    simp [Nat.add_assoc]

variable {pieces : List Piece} {n : ℕ}

/-- What was found, and the pieces in front of it. -/
lemma exists_of_findIn {found : ℕ → Piece → Bool} {depth : ℕ}
    (h : findIn found depth pieces = some n) :
    ∃ P piece R, pieces = P ++ piece :: R ∧ findIn found depth P = none ∧
      found (depthAfter depth P) piece ∧ (textOf P).length = n := by
  induction pieces generalizing depth n with
  | nil => exact absurd h (by simp [findIn])
  | cons piece pieces ih =>
    rw [findIn] at h
    split_ifs at h with hfound
    · exact ⟨[], piece, pieces, rfl, rfl, hfound, some.inj h⟩
    · obtain ⟨m, hm, rfl⟩ := map_eq_some_iff.mp h
      obtain ⟨P, piece', R, rfl, hnone, hfound', rfl⟩ := ih hm
      refine ⟨piece :: P, piece', R, rfl, ?_, hfound', ?_⟩
      · rw [findIn, if_neg hfound, hnone, map_none]
      · rw [textOf_cons, length_append]

/-- A text in front of a comma outside parentheses, and its pieces. -/
structure Segment (text : List Char) (pieces : List Piece) : Prop where
  textOf : textOf pieces = text
  /-- Whatever follows the comma, the pieces are the same. -/
  tokens_comma : ∀ more, scanLexer.tokens [] (text ++ ',' :: more)
    = pieces ++ (.symbol, [',']) :: scanLexer.tokens [] more
  tokens_end : scanLexer.tokens [] text = pieces
  noComma : findIn isTopLevelComma 0 pieces = none
  depth : depthAfter 0 pieces = 0

/-- The text up to the first comma is a segment. -/
lemma exists_segment (h : findFirstTopLevelComma text = some n) :
    ∃ pieces more, Segment (text.take n) pieces ∧ text = text.take n ++ ',' :: more := by
  obtain ⟨P, piece, R, hpieces, hnone, hfound, hn⟩ := exists_of_findIn h
  obtain ⟨hdepth, rfl⟩ : depthAfter 0 P = 0 ∧ piece = (.symbol, [',']) := by
    simpa [isTopLevelComma] using hfound
  obtain ⟨rest, hrest, htoks⟩ := scanLexer.exists_of_tokens_eq_append hpieces
  -- the rest starts with the comma
  have hflat := scanLexer.tokens_flatten ((P.map snd).flatten.reverse ++ []) rest
  rw [htoks] at hflat
  subst hflat
  have htake : text.take n = textOf P := by
    rw [hrest, ← hn]
    exact take_left
  rw [hrest] at hpieces
  have hexchange : ∀ {rest' : List Char}, Stops rest' → scanLexer.tokens [] (textOf P ++ rest')
      = P ++ scanLexer.tokens ((textOf P).reverse ++ []) rest' := fun hrest' =>
    scanLexer.tokens_exchange (cons_ne_nil _ _) (scanNext_exchange _ hrest') hpieces
  rw [htake]
  refine ⟨P, _, ⟨rfl, fun more => ?_, ?_, hnone, hdepth⟩, hrest⟩
  · rw [hexchange (stops_comma more), tokens_comma]
  · have hend := hexchange stops_nil
    rwa [append_nil, scanLexer.tokens_nil, append_nil] at hend

lemma Segment.findFirstTopLevelComma (h : Segment text pieces) (more : List Char) :
    findFirstTopLevelComma (text ++ ',' :: more) = some text.length := by
  rw [Script.findFirstTopLevelComma, h.tokens_comma, findIn_append h.noComma, h.depth, h.textOf]
  rfl

/-- The texts between the commas outside parentheses, at most `fuel + 1` of them. -/
def splitAtCommas : ℕ → List Char → List (List Char)
  | 0, text => [text]
  | fuel + 1, text =>
    match findFirstTopLevelComma text with
    | none => [text]
    | some n => text.take n :: splitAtCommas fuel (text.drop (n + 1))

/-- The expressions of a select list. -/
def projections (selectList : List Char) : List (List Char) :=
  splitAtCommas selectList.length selectList

lemma length_drop_of_firstTopLevelComma (h : findFirstTopLevelComma text = some n) :
    (text.drop (n + 1)).length < text.length := by
  obtain ⟨-, more, -, htext⟩ := exists_segment h
  have hpos : 0 < text.length := by
    rw [htext]
    simp
  rw [length_drop]
  omega

lemma splitAtCommas_of_none (h : findFirstTopLevelComma text = none) (fuel : ℕ) :
    splitAtCommas fuel text = [text] := by
  cases fuel with
  | zero => rfl
  | succ fuel => rw [splitAtCommas, h]

/-- More fuel than characters makes no difference. -/
lemma splitAtCommas_of_le {fuel : ℕ} (h : text.length ≤ fuel) :
    splitAtCommas fuel text = projections text := by
  induction hn : text.length using Nat.strong_induction_on generalizing fuel text with
  | _ n ih =>
    cases hfind : findFirstTopLevelComma text with
    | none => rw [projections, splitAtCommas_of_none hfind, splitAtCommas_of_none hfind]
    | some m =>
      have hlt := length_drop_of_firstTopLevelComma hfind
      obtain ⟨fuel, rfl⟩ : ∃ k, fuel = k + 1 := ⟨fuel - 1, by omega⟩
      obtain ⟨k, hk⟩ : ∃ k, text.length = k + 1 := ⟨text.length - 1, by omega⟩
      rw [projections, hk, splitAtCommas, splitAtCommas, hfind]
      dsimp only
      rw [ih _ (hn ▸ hlt) (by omega) rfl, ih _ (hn ▸ hlt) (by omega) rfl]

lemma projections_of_none (h : findFirstTopLevelComma text = none) : projections text = [text] :=
  splitAtCommas_of_none h _

lemma projections_of_some (h : findFirstTopLevelComma text = some n) :
    projections text = text.take n :: projections (text.drop (n + 1)) := by
  have hlt := length_drop_of_firstTopLevelComma h
  rw [← splitAtCommas_of_le (Nat.le_succ text.length), splitAtCommas, h]
  dsimp only
  rw [splitAtCommas_of_le hlt.le]

/-- A segment in front of a comma is the first expression. -/
lemma Segment.projections (h : Segment text pieces) (more : List Char) :
    Script.projections (text ++ ',' :: more) = text :: Script.projections more := by
  rw [projections_of_some (h.findFirstTopLevelComma more), take_left, drop_append,
    drop_eq_nil_of_le (Nat.le_succ _), Nat.add_sub_cancel_left]
  rfl

lemma Segment.projections_end (h : Segment text pieces) : Script.projections text = [text] :=
  projections_of_none (by rw [Script.findFirstTopLevelComma, h.tokens_end, h.noComma])

/-- The expressions of a select list that are followed by a comma are segments, and the last one
has no comma. -/
theorem projections_induction {motive : List Char → List (List Char) → Prop}
    (last : ∀ text, findFirstTopLevelComma text = none → motive text [text])
    (comma : ∀ text pieces more, Segment text pieces → motive more (projections more) →
      motive (text ++ ',' :: more) (text :: projections more))
    (text : List Char) : motive text (projections text) := by
  induction hn : text.length using Nat.strong_induction_on generalizing text with
  | _ n ih =>
    cases hfind : findFirstTopLevelComma text with
    | none =>
      rw [projections_of_none hfind]
      exact last text hfind
    | some m =>
      obtain ⟨pieces, more, hseg, htext⟩ := exists_segment hfind
      have hlen : more.length < n := by
        rw [← hn, htext, length_append, length_cons]
        omega
      rw [htext, hseg.projections]
      exact comma _ pieces more hseg (ih _ hlen more rfl)

/-! ### White space in front of a segment -/

lemma ne_of_isWhitespace {d : Char} (hc : isWhitespace c) (hd : isWhitespace d = false) :
    c ≠ d := by
  rintro rfl
  exact absurd (hc.symm.trans hd) (by simp)

lemma isIdentifierByte_of_isWhitespace (hc : isWhitespace c) : isIdentifierByte c = false := by
  have halphanum : c.isAlphanum = false := by
    rw [Bool.eq_false_iff]
    intro h
    exact absurd (hc.symm.trans (isWhitespace_of_isAlphanum h)) (by simp)
  simp [isIdentifierByte, halphanum, ne_of_isWhitespace (d := '_') hc (by decide),
    ne_of_isWhitespace (d := '$') hc (by decide), ne_of_isWhitespace (d := '#') hc (by decide)]

/-- Unicode white space is blank to the scanner or one of its symbols. -/
lemma tokens_whitespace (hc : isWhitespace c) : ∃ k, (k = .blank ∨ k = .symbol) ∧ ∀ before rest,
      scanLexer.tokens before (c :: rest) = (k, [c]) :: scanLexer.tokens [] rest := by
  have hne : ∀ {d}, isWhitespace d = false → c ≠ d := ne_of_isWhitespace hc
  have hbyte := isIdentifierByte_of_isWhitespace hc
  have hstart : isIdentifierStartByte c = false := by
    simp only [isIdentifierByte, Char.isAlphanum, Bool.or_eq_false_iff] at hbyte
    simp [isIdentifierStartByte, hbyte]
  have hplain : isPlainBefore c := by
    simp [isPlainBefore, hbyte, hne (d := '<') (by decide)]
  have hletters : c ∉ ['q', 'Q', 'n', 'N', 'u', 'U', '#', '-'] := by
    intro hmem
    have hall : (['q', 'Q', 'n', 'N', 'u', 'U', '#', '-'].all (!isWhitespace ·)) := by decide
    have := all_eq_true.mp hall c hmem
    rw [hc] at this
    exact absurd this (by simp)
  have hnext : ∀ rest, plainNext (c :: rest)
      = (if isAsciiWhitespace c then .blank else .symbol, 1) := by
    intro rest
    simp [plainNext, isPrefixOf, (hne (d := '/') (by decide)).symm, hne (d := '"') (by decide),
      hne (d := '\'') (by decide), hne (d := '(') (by decide), hne (d := ')') (by decide), hstart]
    split_ifs <;> rfl
  refine ⟨if isAsciiWhitespace c then .blank else .symbol, ?_, fun before rest =>
    tokens_single hplain ((scanNext_symbol hletters before rest).trans (hnext rest))⟩
  split_ifs
  · exact .inl rfl
  · exact .inr rfl

/-! ### Segments with another start -/

/-- Pieces without a comma that leave the depth of parentheses alone. -/
structure IsFlat (pieces : List Piece) : Prop where
  noComma : ∀ depth, findIn isTopLevelComma depth pieces = none
  depth : ∀ depth, depthAfter depth pieces = depth

namespace IsFlat

lemma nil : IsFlat [] := ⟨fun _ => rfl, fun _ => rfl⟩

lemma cons {piece : Piece} {pieces : List Piece} (hcomma : piece ≠ (.symbol, [',']))
    (hopen : piece.1 ≠ .openParen) (hclose : piece.1 ≠ .closeParen) (h : IsFlat pieces) :
    IsFlat (piece :: pieces) := by
  have hstep : ∀ depth, depthStep depth piece.1 = depth := by
    intro depth
    cases hkind : piece.1 <;> first | rfl | exact absurd hkind ‹_›
  constructor
  · intro depth
    rw [findIn, if_neg (by simp [isTopLevelComma, hcomma]), h.noComma, map_none]
  · intro depth
    rw [depthAfter_cons, hstep, h.depth]

lemma append {Q : List Piece} (hP : IsFlat P) (hQ : IsFlat Q) : IsFlat (P ++ Q) where
  noComma depth := by rw [findIn_append (hP.noComma depth), hQ.noComma, map_none]
  depth depth := by
    rw [depthAfter, foldl_append]
    exact (congrArg (depthAfter · Q) (hP.depth depth)).trans (hQ.depth depth)

/-- Pieces in parentheses. -/
lemma parens (hP : IsFlat P) : IsFlat ((.openParen, ['(']) :: (P ++ [(.closeParen, [')'])])) where
  noComma depth := by
    rw [findIn, findIn_append (hP.noComma _)]
    simp [findIn, isTopLevelComma]
  depth depth := by
    rw [depthAfter_cons, depthAfter, foldl_append]
    exact congrArg (depthAfter · [(.closeParen, [')'])]) (hP.depth (depth + 1))

end IsFlat

/-- What may follow an expression of a select list. -/
def Ends (rest : List Char) : Prop := rest = [] ∨ ∃ more, rest = ',' :: more

/-- A text that starts with flat pieces, in front of another text. -/
structure StartsFlat (text tail : List Char) (pieces : List Piece) : Prop where
  flat : IsFlat pieces
  textOf : textOf pieces ++ tail = text
  tokens : ∀ {rest}, Ends rest →
    scanLexer.tokens [] (text ++ rest) = pieces ++ scanLexer.tokens [] (tail ++ rest)

namespace StartsFlat

variable {text' tail : List Char} {A B : List Piece}

lemma refl (text : List Char) : StartsFlat text text [] := ⟨IsFlat.nil, rfl, fun _ => rfl⟩

/-- The start of a segment may be exchanged. -/
lemma segment (hA : StartsFlat text tail A) (hB : StartsFlat text' tail B)
    (h : Segment text P) : ∃ Q, Segment text' Q := by
  have hend := hA.tokens (.inl rfl)
  rw [append_nil, append_nil, h.tokens_end] at hend
  subst hend
  refine ⟨B ++ scanLexer.tokens [] tail, ?_, fun more => ?_, ?_, ?_, ?_⟩
  · rw [← hB.textOf, Script.textOf, map_append, flatten_append, scanLexer.tokens_flatten]
    rfl
  · have hcomma := hA.tokens (.inr ⟨more, rfl⟩)
    rw [h.tokens_comma, append_assoc, append_cancel_left_eq] at hcomma
    rw [hB.tokens (.inr ⟨more, rfl⟩), ← hcomma, append_assoc]
  · have := hB.tokens (.inl rfl)
    rwa [append_nil, append_nil] at this
  · have hnone := h.noComma
    rw [findIn_append (hA.flat.noComma 0), hA.flat.depth, map_eq_none_iff] at hnone
    rw [findIn_append (hB.flat.noComma 0), hB.flat.depth, hnone, map_none]
  · have hdepth := h.depth
    rw [depthAfter, foldl_append] at hdepth ⊢
    exact (congrArg (depthAfter · _) ((hB.flat.depth 0).trans (hA.flat.depth 0).symm)).trans hdepth

/-- So may the start of the last expression. -/
lemma findFirstTopLevelComma_eq_none (hA : StartsFlat text tail A) (hB : StartsFlat text' tail B)
    (h : findFirstTopLevelComma text = none) : findFirstTopLevelComma text' = none := by
  have hendA := hA.tokens (.inl rfl)
  have hendB := hB.tokens (.inl rfl)
  rw [append_nil] at hendA hendB
  rw [findFirstTopLevelComma, hendA, findIn_append (hA.flat.noComma 0), hA.flat.depth,
    map_eq_none_iff] at h
  rw [findFirstTopLevelComma, hendB, findIn_append (hB.flat.noComma 0), hB.flat.depth, h, map_none]

/-- White space. -/
lemma whitespace {c : Char} (hc : isWhitespace c) (h : StartsFlat text tail A) :
    ∃ B, StartsFlat (c :: text) tail B := by
  obtain ⟨k, hk, htoks⟩ := tokens_whitespace hc
  have hcomma : (k, [c]) ≠ ((.symbol, [',']) : Piece) := by
    rintro heq
    obtain rfl : c = ',' := by simpa using congrArg snd heq
    exact absurd hc (by decide)
  refine ⟨(k, [c]) :: A, ?_, ?_, fun hrest => ?_⟩
  · exact h.flat.cons hcomma (by obtain rfl | rfl := hk <;> simp)
      (by obtain rfl | rfl := hk <;> simp)
  · rw [textOf_cons, append_assoc, h.textOf]
    rfl
  · rw [cons_append, htoks, h.tokens hrest]
    rfl

lemma whitespaces {ws : List Char} (hws : ∀ c ∈ ws, isWhitespace c)
    (h : StartsFlat text tail A) : ∃ B, StartsFlat (ws ++ text) tail B := by
  induction ws with
  | nil => exact ⟨A, h⟩
  | cons c ws ih =>
    rw [forall_mem_cons] at hws
    obtain ⟨B, hB⟩ := ih hws.2
    exact hB.whitespace hws.1

end StartsFlat

/-- A text whose first character is white space, a comma or missing is read the same whatever
stands before. -/
def IsFresh (text : List Char) : Prop := ∀ c ∈ text.head?, isWhitespace c = true ∨ c = ','

lemma tokens_fresh (h : IsFresh text) (before : List Char) :
    scanLexer.tokens before text = scanLexer.tokens [] text := by
  cases text with
  | nil => rfl
  | cons c rest =>
    obtain hc | rfl := h c rfl
    · obtain ⟨k, -, htoks⟩ := tokens_whitespace hc
      rw [htoks, htoks]
    · rw [tokens_comma, tokens_comma]

lemma IsFresh.append_ends {tail : List Char} (h : IsFresh tail) (hrest : Ends rest) :
    IsFresh (tail ++ rest) := by
  cases tail with
  | nil =>
    obtain rfl | ⟨more, rfl⟩ := hrest
    · exact h
    · intro c hc
      right
      simpa using hc.symm
  | cons c tail => exact h

lemma isStop_of_isWhitespace (hc : isWhitespace c) : isStop c := by
  have hne : ∀ {d}, isWhitespace d = false → c ≠ d := ne_of_isWhitespace hc
  simp [isStop, isIdentifierByte_of_isWhitespace hc, hne (d := '\'') (by decide),
    hne (d := '"') (by decide), hne (d := '*') (by decide), hne (d := '-') (by decide),
    hne (d := '>') (by decide)]

lemma IsFresh.stops (h : IsFresh text) : Stops text := by
  intro c hc
  obtain hspace | rfl := h c hc
  · exact isStop_of_isWhitespace hspace
  · decide

/-- A word that is no q-quote. -/
lemma tokens_word (hc : isIdentifierStartByte c)
    (hq : c ∉ ['q', 'Q', 'n', 'N', 'u', 'U', '#', '-']) (hw : w.all isIdentifierByte)
    (before : List Char) (hrest : Stops rest) :
    scanLexer.tokens before (c :: w ++ rest)
      = (.word, c :: w) :: scanLexer.tokens ((c :: w).reverse ++ before) rest := by
  have hne : ∀ {d}, isIdentifierStartByte d = false → c ≠ d := by
    rintro d hd rfl
    exact absurd (hc.symm.trans hd) (by simp)
  have hspace : isAsciiWhitespace c = false := by
    simp only [isAsciiWhitespace, Bool.or_eq_false_iff, decide_eq_false_iff_not]
    refine ⟨⟨⟨⟨hne (by decide), hne (by decide)⟩, hne (by decide)⟩, hne (by decide)⟩, fun h => ?_⟩
    exact absurd (Char.toNat_inj.mp (h.trans (by decide))) (hne (d := Char.ofNat 0x0C) (by decide))
  have htake : (w ++ rest).takeWhile isIdentifierByte = w := by
    rw [takeWhile_append_of_stops hrest]
    exact takeWhile_eq_self_iff.mpr (all_eq_true.mp hw)
  refine scanLexer.tokens_of_next (cons_ne_nil _ _) ?_
  refine (scanNext_symbol hq before (w ++ rest)).trans ?_
  simp [plainNext, isPrefixOf, (hne (d := '/') (by decide)).symm, hne (d := '"') (by decide),
    hne (d := '\'') (by decide), hne (d := '(') (by decide), hne (d := ')') (by decide), hc,
    hspace, htake, add_comm]

/-- A word. -/
lemma StartsFlat.word {tail : List Char} {A : List Piece} (hc : isIdentifierStartByte c)
    (hq : c ∉ ['q', 'Q', 'n', 'N', 'u', 'U', '#', '-']) (hw : w.all isIdentifierByte)
    (hfresh : IsFresh text) (h : StartsFlat text tail A) :
    StartsFlat (c :: w ++ text) tail ((.word, c :: w) :: A) where
  flat := h.flat.cons (by simp) (by simp) (by simp)
  textOf := by rw [textOf_cons, append_assoc, h.textOf]
  tokens hrest := by
    have hstart := hfresh.append_ends hrest
    rw [append_assoc, tokens_word hc hq hw [] hstart.stops, tokens_fresh hstart,
      h.tokens hrest, cons_append]

end SpaceQuery.Script
