import SpaceQuery.Thin.StatementMarks

/-!
The literals, quoted identifiers, q-quotes and comments of a statement, and what the scanners of
`tns-thin/src/exec.rs` make of them.
-/

namespace SpaceQuery.Thin

open List

open Prod hiding map

open Option hiding or_assoc

namespace StatementText

open RustText Lexing SqlText Script

section

variable [UnicodeClasses]

/-- `skip_q_quote` goes through the end of a q-quote. -/
lemma skipQQuote_eq (before text : List Char) :
    skipQQuote before text = (qQuoteStart before text).map fun start =>
      start.2 + throughFind [start.1, '\''] (text.drop start.2) := by
  unfold skipQQuote qQuoteStart
  rw [qQuotePrefixLen_eq]
  have hpart : before.head?.any isSqlIdentifierPart = before.head?.any isIdentifierChar := rfl
  rw [hpart]
  by_cases hbefore : before.head?.any isIdentifierChar
  · rw [if_pos hbefore, if_pos hbefore, map_none]
  · rw [if_neg hbefore, if_neg hbefore]
    cases delimiterRel text with
    | none => rfl
    | some rel =>
      simp only [map_some, bind_some, Nat.add_sub_cancel]
      cases hdelim : text[rel]? with
      | none => rfl
      | some delimiter =>
        have hlen := (List.getElem?_eq_some_iff.mp hdelim).1
        simp only [bind_some, Bool.not_eq_eq_eq_not, Bool.not_true]
        by_cases hvalid : isValidQQuoteDelimiter delimiter
        · rw [if_neg (by simp [hvalid]), if_pos hvalid, map_some, ← closingEnd_eq]
          cases closingEnd (qQuoteClosing delimiter) (text.drop (rel + 1)) with
          | some n => rfl
          | none =>
            simp only [getD_none, length_drop]
            congr 1
            omega
        · rw [if_pos (by simpa using hvalid), if_neg hvalid, map_none]

/-! ### The lexical structure -/

/-- What stands at the start of a text; a doubled quote ends a quoted text and starts another. -/
def regionNext (before text : List Char) : Option Region × ℕ :=
  match qQuoteStart before text with
  | some (closing, start) =>
    (some .qQuote, start + throughFind [closing, '\''] (text.drop start))
  | none =>
    if text.head? = some '\'' then (some .literal, 1 + throughFind ['\''] (text.drop 1))
    else if text.head? = some '"' then
      (some .quotedIdentifier, 1 + throughFind ['"'] (text.drop 1))
    else if ['-', '-'].isPrefixOf text then (some .lineComment, through isLineEnd text)
    else if ['/', '*'].isPrefixOf text then
      (some .blockComment, 2 + throughFind ['*', '/'] (text.drop 2))
    else (none, 1)

/-- The literals, quoted identifiers, q-quotes and comments of a statement. -/
def regionLexer : Lexer Char (Option Region) where
  next := regionNext
  next_pos before text := by
    unfold regionNext
    split
    · next closing start h =>
        have hlen := qQuoteStart_prefixLen h
        cases text with
        | nil => simp [qQuotePrefixLen] at hlen
        | cons c rest =>
          have := (qQuotePrefixLen_spec hlen).1
          omega
    · split_ifs with _ _ hline
      · simp
      · simp
      · obtain ⟨rest, rfl⟩ := List.isPrefixOf_iff_prefix.mp hline
        show 0 < through isLineEnd ('-' :: '-' :: rest)
        exact through_pos
      · simp
      · simp

variable {c : Char} {rest : List Char}

lemma qQuoteStart_eq_none (h : c ∉ ['q', 'Q', 'n', 'N'])
    (before : List Char) : qQuoteStart before (c :: rest) = none := by
  rw [qQuoteStart, qQuotePrefixLen_eq_none h]
  split_ifs <;> rfl

/-- Behind a character of a name there is no q-quote. -/
lemma qQuoteStart_behind (h : isSqlIdentifierPart c) (before text : List Char) :
    qQuoteStart (c :: before) text = none := by
  rw [qQuoteStart, if_pos]
  exact h

variable {before : List Char}

/-- A character that starts nothing. -/
lemma regionNext_code
    (hq : qQuoteStart before (c :: rest) = none) (hliteral : c ≠ '\'') (hquoted : c ≠ '"')
    (hline : ¬ (c = '-' ∧ rest.head? = some '-')) (hblock : ¬ (c = '/' ∧ rest.head? = some '*')) :
    regionNext before (c :: rest) = (none, 1) := by
  rw [regionNext, hq]
  rw [if_neg (by simpa using hliteral), if_neg (by simpa using hquoted),
    if_neg (mt isPrefixOf_pair.mp hline), if_neg (mt isPrefixOf_pair.mp hblock)]

lemma regionNext_plain
    (hq : qQuoteStart before (c :: rest) = none) (hc : c ∉ ['\'', '"', '-', '/']) :
    regionNext before (c :: rest) = (none, 1) := by
  simp only [mem_cons, not_mem_nil, or_false, not_or] at hc
  exact regionNext_code hq hc.1 hc.2.1 (fun h => hc.2.2.1 h.1) (fun h => hc.2.2.2 h.1)

/-- ASCII has the characters of names that keywords have. -/
lemma isSqlIdentifierPart_ascii (h : c.toNat < 128) : isSqlIdentifierPart c = isKeywordPart c := by
  rw [isSqlIdentifierPart, isAlphanumeric, UnicodeClasses.isAlphabetic_ascii c h,
    UnicodeClasses.isNumeric_ascii c h]
  rfl

lemma isSqlIdentifierPart_of_keyword (h : isKeywordPart c) : isSqlIdentifierPart c := by
  unfold isKeywordPart at h
  rw [isSqlIdentifierPart_ascii, isKeywordPart, h]
  have hchars : c.isAlphanum ∨ c = '_' ∨ c = '$' ∨ c = '#' := by simpa [or_assoc] using h
  rcases hchars with hc | rfl | rfl | rfl
  · have := toNat_of_isAlphanum hc
    omega
  · decide
  · decide
  · decide

lemma notMem_of_isSqlIdentifierPart (h : isSqlIdentifierPart c) : c ∉ ['\'', '"', '-', '/'] := by
  intro hc
  have hascii : c.toNat < 128 := by
    fin_cases hc <;> decide
  rw [isSqlIdentifierPart_ascii hascii] at h
  fin_cases hc <;> simp [isKeywordPart] at h

variable {w : List Char}

/-- The characters of a name are code. -/
lemma reads_name (hw : ∀ c ∈ w, isSqlIdentifierPart c)
    (hq : qQuoteStart before (w ++ rest) = none) :
    regionLexer.Reads before w (w.map (·, none)) rest := by
  refine .of_forall fun u c v huv => ?_
  have hc := notMem_of_isSqlIdentifierPart (hw c (by rw [huv]; simp))
  refine regionNext_plain ?_ hc
  rcases eq_nil_or_concat u with rfl | ⟨u, d, rfl⟩
  · rw [huv] at hq
    simpa using hq
  · have hd := hw d (by rw [huv]; simp)
    rw [concat_eq_append, reverse_concat]
    exact qQuoteStart_behind hd _ _

lemma reads_whitespace (hw : ∀ c ∈ w, isWhitespace c) :
    regionLexer.Reads before w (w.map (·, none)) rest := by
  refine .of_forall fun u c v huv => ?_
  have hc := notMem_of_isWhitespace (hw c (by rw [huv]; simp))
  exact regionNext_plain (qQuoteStart_eq_none hc.1 _) hc.2.1

/-! ### Quoted texts -/

/-- The quotes and what stands between them. -/
inductive QuoteOf : Char → Region → Prop
  | literal : QuoteOf '\'' .literal
  | identifier : QuoteOf '"' .quotedIdentifier

lemma QuoteOf.next {quote : Char} {r : Region} (h : QuoteOf quote r) (before rest : List Char) :
    regionNext before (quote :: rest) = (some r, 1 + throughFind [quote] rest) := by
  cases h with
  | literal | identifier =>
    rw [regionNext, qQuoteStart_eq_none (by decide)]
    rfl

/-- A quoted text with doubled quotes is several quoted texts. -/
lemma QuoteOf.reads {quote : Char} {r : Region} (h : QuoteOf quote r) (before text : List Char) :
    regionLexer.Reads before (quote :: text.take (literalEnd quote text))
      ((quote :: text.take (literalEnd quote text)).map (·, some r))
      (text.drop (literalEnd quote text)) := by
  induction hn : text.length using Nat.strong_induction_on generalizing before text with
  | _ n ih =>
    have hspan := takeWhile_append_dropWhile (p := (· ≠ quote)) (l := text)
    have hu : quote ∉ text.takeWhile (· ≠ quote) := fun hmem => by
      simpa using mem_takeWhile_imp hmem
    have hv := head?_dropWhile_not (fun c => decide (c ≠ quote)) text
    generalize text.takeWhile (· ≠ quote) = u at hspan hu
    generalize text.dropWhile (· ≠ quote) = v at hspan hv
    subst hspan
    cases v with
    | nil =>
      have hnext := h.next before (u ++ [])
      rw [throughFind_append_of_notMem hu, add_comm] at hnext
      rw [literalEnd_append_of_notMem hu]
      exact Lexer.Reads.of_take (L := regionLexer) (cons_ne_nil _ _) hnext
    | cons d v =>
      obtain rfl : d = quote := by simpa using hv
      have hnext : regionNext before (d :: (u ++ [d]) ++ v)
          = (some r, (d :: (u ++ [d])).length) := by
        rw [cons_append, append_assoc, h.next, throughFind_append_of_notMem hu,
          singleton_append, throughFind_cons]
        simp
        omega
      have hfirst := Lexer.Reads.of_next (L := regionLexer) (cons_ne_nil _ _) hnext
      rw [literalEnd_append_of_notMem hu, take_length_add_append]
      by_cases hdouble : ∃ rest, v = d :: rest
      · obtain ⟨rest, rfl⟩ := hdouble
        have hrest := ih _ (by rw [← hn]; simp; omega) ((d :: (u ++ [d])).reverse ++ before)
          rest rfl
        rw [literalEnd_cons_cons, add_comm 2]
        rw [← take_append_drop (literalEnd d rest) rest] at hfirst
        simpa using hfirst.append hrest
      · have hone : literalEnd d (d :: v) = 1 := by
          cases v with
          | nil => rfl
          | cons next rest =>
            rw [literalEnd_cons_cons, if_pos rfl, if_neg]
            rintro rfl
            exact hdouble ⟨rest, rfl⟩
        rw [hone]
        simpa using hfirst

/-! ### The keyword scanner -/

variable {text : List Char} {n : ℕ}

lemma regionNext_of_skip (h : skipQQuote before text = some n) :
    regionNext before text = (some .qQuote, n) := by
  rw [skipQQuote_eq, map_eq_some_iff] at h
  obtain ⟨⟨closing, start⟩, hstart, rfl⟩ := h
  rw [regionNext, hstart]

lemma qQuoteStart_of_skip (h : skipQQuote before text = none) : qQuoteStart before text = none := by
  rwa [skipQQuote_eq, map_eq_none_iff] at h

lemma regionNext_lineComment (before rest : List Char) :
    regionNext before ('-' :: '-' :: rest) = (some .lineComment, 2 + through isLineEnd rest) := by
  rw [regionNext, qQuoteStart_eq_none (by decide)]
  rw [if_neg (by simp), if_neg (by simp), if_pos (by simp), through, through, if_neg (by decide),
    if_neg (by decide), ← add_assoc]

lemma regionNext_blockComment (before rest : List Char) : regionNext before ('/' :: '*' :: rest)
      = (some .blockComment, 2 + throughFind ['*', '/'] rest) := by
  rw [regionNext, qQuoteStart_eq_none (by decide)]
  rfl

/-- The tokens of the keyword scanner are read as it marks them. -/
theorem keyword_reads (before text : List Char) (htext : text ≠ []) :
    regionLexer.Reads before (text.take (keywordNext before text).2)
      ((keywordNext before text).1.marks (text.take (keywordNext before text).2))
      (text.drop (keywordNext before text).2) := by
  unfold keywordNext
  cases hq : skipQQuote before text with
  | some n => exact .of_take htext (regionNext_of_skip hq)
  | none =>
    have hstart := qQuoteStart_of_skip hq
    obtain ⟨ch, rest, rfl⟩ := exists_cons_of_ne_nil htext
    dsimp only
    split_ifs with hliteral hquoted hline hblock hword
    · subst hliteral
      rw [add_comm 1]
      exact QuoteOf.literal.reads before rest
    · subst hquoted
      rw [through_eq_throughFind]
      exact .of_take htext (QuoteOf.identifier.next before rest)
    · obtain ⟨rfl, hhead⟩ := hline
      obtain ⟨rest, rfl⟩ := head?_eq_some_iff.mp hhead
      exact .of_take htext (regionNext_lineComment before rest)
    · obtain ⟨rfl, hhead⟩ := hblock
      obtain ⟨rest, rfl⟩ := head?_eq_some_iff.mp hhead
      rw [commentEnd_eq]
      exact .of_take htext (regionNext_blockComment before rest)
    · have hch : isSqlIdentifierPart ch := by
        refine isSqlIdentifierPart_of_keyword ?_
        unfold isKeywordPart
        rcases Bool.or_eq_true_iff.mp hword with h | h
        · simp [Char.isAlphanum, h]
        · simp [of_decide_eq_true h]
      rw [add_comm 1]
      have hparts : rest.take (rest.takeWhile isKeywordPart).length
          = rest.takeWhile isKeywordPart :=
        prefix_iff_eq_take.mp (List.takeWhile_prefix _) |>.symm
      refine reads_name (fun c hc => ?_) (by simpa using hstart)
      rcases mem_cons.mp hc with rfl | hc
      · exact hch
      · rw [hparts] at hc
        exact isSqlIdentifierPart_of_keyword (mem_takeWhile_imp hc)
    · exact .of_next (cons_ne_nil _ _)
        (regionNext_code hstart hliteral hquoted hline hblock)

/-! ### The bind parser -/

/-- The colon in front of `rest` introduces a bind. -/
def IntroducesBind (before rest : List Char) : Prop :=
  rest.head? ≠ some '=' ∧ rest.head? ≠ some ':' ∧ behindQuote before = false

/-- A round of the bind parser, by the token, the text it reads and the text that is left. -/
inductive Round (before : List Char) : BindToken → List Char → List Char → Prop
  | region {r : Region} {w rest : List Char}
      (hread : regionLexer.Reads before w (w.map (·, some r)) rest) :
      Round before (.region r) w rest
  | code {c : Char} {rest : List Char} (hc : c ≠ ':')
      (hread : regionLexer.Reads before [c] [(c, none)] rest) : Round before .other [c] rest
  | assign (rest : List Char) : Round before .other [':', '='] rest
  | apart {rest : List Char} (hbind : ¬ IntroducesBind before rest) : Round before .other [':'] rest
  | blank {space rest : List Char} (hbind : IntroducesBind before (space ++ rest))
      (hspace : ∀ c ∈ space, isWhitespace c = true) (hrest : ∀ c ∈ rest.head?,
        isWhitespace c = false ∧ c ≠ '"' ∧ isSqlIdentifierPart c = false) :
      Round before .other (':' :: space) rest
  | quotedName {space tail : List Char} {n : ℕ}
      (hbind : IntroducesBind before (space ++ '"' :: tail))
      (hspace : ∀ c ∈ space, isWhitespace c = true) (hend : checkedQuotedEnd '"' tail = .ok n) :
      Round before (.quotedName (1 + space.length)) (':' :: space ++ '"' :: tail.take n)
        (tail.drop n)
  | name {space name rest : List Char}
      (hbind : IntroducesBind before (space ++ (name ++ rest)))
      (hspace : ∀ c ∈ space, isWhitespace c = true) (hne : name ≠ [])
      (hname : ∀ c ∈ name, isSqlIdentifierPart c = true)
      (hhead : ∀ c ∈ name.head?, isWhitespace c = false) :
      Round before (.name (1 + space.length)) (':' :: space ++ name) rest

variable {token : BindToken}

lemma bindColon_round (h : bindColon before rest = .ok (token, n)) :
    Round before token ((':' :: rest).take n) ((':' :: rest).drop n) := by
  unfold bindColon at h
  split_ifs at h with hassign hcolon hquote
  · cases h
    obtain ⟨rest, rfl⟩ := head?_eq_some_iff.mp hassign
    exact .assign rest
  · cases h
    exact .apart fun hbind => hbind.2.1 hcolon
  · cases h
    refine .apart fun hbind => ?_
    rw [hbind.2.2] at hquote
    exact Bool.false_ne_true hquote
  · have hbind : IntroducesBind before rest := ⟨hassign, hcolon, by simpa using hquote⟩
    have hspan := takeWhile_append_dropWhile (p := isWhitespace) (l := rest)
    have hspace : ∀ c ∈ rest.takeWhile isWhitespace, isWhitespace c :=
      fun c hc => mem_takeWhile_imp hc
    have hhead := head?_dropWhile_not isWhitespace rest
    generalize rest.takeWhile isWhitespace = space at *
    generalize rest.dropWhile isWhitespace = tail at *
    subst hspan
    cases tail with
    | nil =>
      cases h
      have hblank : Round before .other (':' :: space) [] := .blank hbind hspace (by simp)
      simpa [add_comm] using hblank
    | cons first tail =>
      dsimp only at h
      have hlead : ∀ m, (':' :: (space ++ first :: tail)).take (1 + space.length + m)
          = ':' :: space ++ (first :: tail).take m ∧
        (':' :: (space ++ first :: tail)).drop (1 + space.length + m)
          = (first :: tail).drop m := fun m => by
        rw [add_comm 1, ← length_cons (a := ':')]
        exact ⟨take_length_add_append _, drop_length_add_append _⟩
      split_ifs at h with hfirst hpart
      · obtain ⟨m, hm, h⟩ := exists_of_map_eq_ok h
        cases h
        subst hfirst
        rw [(hlead _).1, (hlead _).2, add_comm 1 m]
        exact .quotedName hbind hspace hm
      · cases h
        have hblank : Round before .other (':' :: space) (first :: tail) := by
          refine .blank hbind hspace fun c hc => ?_
          obtain rfl : first = c := by simpa using hc
          exact ⟨by simpa using hhead, hfirst, by simpa using hpart⟩
        have := hlead 0
        rw [add_zero] at this
        rw [this.1, this.2, take_zero, append_nil]
        exact hblank
      · cases h
        have hparts : tail.take (tail.takeWhile isSqlIdentifierPart).length
            = tail.takeWhile isSqlIdentifierPart :=
          prefix_iff_eq_take.mp (List.takeWhile_prefix _) |>.symm
        rw [(hlead _).1, (hlead _).2, add_comm 1 (tail.takeWhile _).length,
          take_succ_cons, drop_succ_cons, hparts]
        have hsplit : tail.takeWhile isSqlIdentifierPart
            ++ tail.drop (tail.takeWhile isSqlIdentifierPart).length = tail := by
          conv_rhs => rw [← take_append_drop (tail.takeWhile _).length tail, hparts]
        refine .name ?_ hspace (cons_ne_nil _ _) (fun c hc => ?_) ?_
        · rw [cons_append, hsplit]
          exact hbind
        · rcases mem_cons.mp hc with rfl | hc
          · simpa using hpart
          · exact mem_takeWhile_imp hc
        · intro c hc
          obtain rfl : first = c := by simpa using hc
          simpa using hhead

lemma bindRound_round (htext : text ≠ []) (h : bindRound before text = .ok (token, n)) :
    Round before token (text.take n) (text.drop n) := by
  unfold bindRound at h
  cases hq : checkedQQuoteEnd before text with
  | error e => simp [hq] at h
  | ok r =>
    have hskip := skipQQuote_of_checked hq
    rw [hq] at h
    cases r with
    | some m =>
      cases h
      exact .region (.of_take htext (regionNext_of_skip hskip))
    | none =>
      have hstart := qQuoteStart_of_skip hskip
      obtain ⟨ch, rest, rfl⟩ := exists_cons_of_ne_nil htext
      dsimp only at h
      split_ifs at h with hliteral hquoted hline hblock hcolon
      · obtain ⟨m, hm, h⟩ := exists_of_map_eq_ok h
        cases h
        subst hliteral
        rw [add_comm 1, ← literalEnd_of_checked hm]
        exact .region (QuoteOf.literal.reads before rest)
      · obtain ⟨m, hm, h⟩ := exists_of_map_eq_ok h
        cases h
        subst hquoted
        rw [add_comm 1, ← literalEnd_of_checked hm]
        exact .region (QuoteOf.identifier.reads before rest)
      · cases h
        obtain ⟨rfl, hhead⟩ := isPrefixOf_pair.mp hline
        obtain ⟨rest, rfl⟩ := head?_eq_some_iff.mp hhead
        have hlen : through isLineEnd ('-' :: '-' :: rest) = 2 + through isLineEnd rest := by
          rw [through, through, if_neg (by decide), if_neg (by decide), ← add_assoc]
        rw [hlen]
        exact .region (.of_take htext (regionNext_lineComment before rest))
      · cases h
        obtain ⟨rfl, hhead⟩ := isPrefixOf_pair.mp hblock
        obtain ⟨rest, rfl⟩ := head?_eq_some_iff.mp hhead
        exact .region (.of_take htext (regionNext_blockComment before rest))
      · cases h
        refine .code hcolon (.of_next (cons_ne_nil _ _) (regionNext_code hstart hliteral
          hquoted ?_ ?_))
        · exact mt isPrefixOf_pair.mpr hline
        · exact mt isPrefixOf_pair.mpr hblock
      · obtain rfl : ch = ':' := by simpa using hcolon
        exact bindColon_round h

/-! ### Binds that are quoted -/

/-- The colon in front of `rest` introduces a bind whose name is quoted or starts a q-quote. -/
def Clash (before rest : List Char) : Prop :=
  IntroducesBind before rest ∧
    ((qQuoteStart ((rest.takeWhile isWhitespace).reverse ++ ':' :: before) (trimStart rest)).isSome
      ∨ StartsQuotedName (trimStart rest))

instance (before rest : List Char) : Decidable (Clash before rest) := by
  unfold Clash IntroducesBind StartsQuotedName
  infer_instance

/-- No colon outside quoted texts and comments introduces such a bind. -/
def Apart (before text : List Char) : Prop :=
  ∀ i, (regionLexer.marks before text)[i]? = some (':', none) →
    ¬ Clash ((text.take i).reverse ++ before) (text.drop (i + 1))

lemma apart_iff : Apart before text ↔ ∀ a b, regionLexer.marks before text = a ++ (':', none) :: b →
      ¬ Clash ((a.map fst).reverse ++ before) (b.map fst) := by
  constructor
  · intro h a b hab
    have htext := congrArg (map fst) hab
    rw [Lexer.marks_map_fst, map_append] at htext
    have := h a.length (by rw [hab, getElem?_append_right le_rfl, Nat.sub_self]; rfl)
    rw [htext, ← length_map (f := fst), take_left, ← drop_drop, drop_left] at this
    exact this
  · intro h i hi
    obtain ⟨hlt, hget⟩ := List.getElem?_eq_some_iff.mp hi
    have hsplit := take_append_drop i (regionLexer.marks before text)
    rw [drop_eq_getElem_cons hlt, hget] at hsplit
    have := h _ _ hsplit.symm
    rwa [map_take, map_drop, Lexer.marks_map_fst] at this

lemma clash_iff {space : List Char} (hbind : IntroducesBind before (space ++ rest))
    (hspace : ∀ c ∈ space, isWhitespace c) (hrest : ∀ c ∈ rest.head?, isWhitespace c = false) :
    Clash before (space ++ rest) ↔
      (qQuoteStart (space.reverse ++ ':' :: before) rest).isSome ∨ StartsQuotedName rest := by
  obtain ⟨htake, htrim⟩ := span_whitespace hspace hrest
  rw [Clash, htake, htrim]
  exact and_iff_right hbind

variable {m : List (Char × Option Region)}

lemma reads_map_fst (h : regionLexer.Reads before w m rest) : m.map fst = w := by
  have := congrArg (map fst) h
  rw [map_append, Lexer.marks_map_fst, Lexer.marks_map_fst, append_left_inj] at this
  exact this.symm

lemma apart_iff_of_reads (h : regionLexer.Reads before w m rest) : Apart before (w ++ rest) ↔
      (∀ a b, m = a ++ (':', none) :: b →
        ¬ Clash ((a.map fst).reverse ++ before) (b.map fst ++ rest)) ∧
      Apart (w.reverse ++ before) rest := by
  have hm := reads_map_fst h
  rw [apart_iff, apart_iff]
  constructor
  · intro hapart
    constructor
    · intro a b hab hclash
      refine hapart a (b ++ regionLexer.marks (w.reverse ++ before) rest) ?_ ?_
      · rw [h, hab]
        simp
      · simpa using hclash
    · intro a b hab hclash
      refine hapart (m ++ a) b ?_ ?_
      · rw [h, hab, append_assoc]
      · rw [map_append, hm, reverse_append, append_assoc]
        exact hclash
  · rintro ⟨hfirst, hrest⟩ a b hab hclash
    rw [h] at hab
    rcases append_eq_append_iff.mp hab with ⟨a', rfl, hab'⟩ | ⟨a', rfl, hab'⟩
    · refine hrest a' b hab' ?_
      rwa [map_append, hm, reverse_append, append_assoc] at hclash
    · cases a' with
      | nil =>
        rw [append_nil] at hm
        refine hrest [] b (by simpa using hab'.symm) ?_
        rwa [hm] at hclash
      | cons x a' =>
        obtain ⟨rfl, rfl⟩ : (':', none) = x ∧ b = a' ++ _ := by simpa using hab'
        refine hfirst a a' rfl ?_
        simpa using hclash

lemma reads_colon (before rest : List Char) : regionLexer.Reads before [':'] [(':', none)] rest :=
  .of_next (cons_ne_nil _ _) (regionNext_plain (qQuoteStart_eq_none (by decide) before) (by decide))

lemma reads_lead {space : List Char} (hspace : ∀ c ∈ space, isWhitespace c)
    (before rest : List Char) :
    regionLexer.Reads before (':' :: space) ((':' :: space).map (·, none)) rest :=
  (reads_colon before (space ++ rest)).append (reads_whitespace hspace)

/-- A token whose first character is the only colon that may be code. -/
lemma forall_colon_iff (hm : (':', none) ∉ m) : (∀ a b, (c, none) :: m = a ++ (':', none) :: b →
      ¬ Clash ((a.map fst).reverse ++ before) (b.map fst ++ rest)) ↔
        (c = ':' → ¬ Clash before (m.map fst ++ rest)) := by
  constructor
  · rintro h rfl
    exact h [] m rfl
  · intro h a b hab
    cases a with
    | nil =>
      obtain ⟨hc, rfl⟩ := cons.inj hab
      exact h (mk.inj hc).1
    | cons x a =>
      rw [cons_append, cons.injEq] at hab
      exact absurd (by rw [hab.2]; simp) hm

/-- A q-quote starts with a character of names. -/
lemma qQuoteStart_of_head
    (h : ∀ c ∈ text.head?, isSqlIdentifierPart c = false) : qQuoteStart before text = none := by
  cases text with
  | nil => simp [qQuoteStart, qQuotePrefixLen]
  | cons c rest =>
    refine qQuoteStart_eq_none (fun hc => ?_) before
    have hpart := h c rfl
    rw [isSqlIdentifierPart_ascii (by fin_cases hc <;> decide)] at hpart
    fin_cases hc <;> exact absurd hpart (by decide)

open BindToken

/-- A round that is read as it marks the text, and whose colon clashes if it has a quoted name. -/
lemma Round.fine (h : Round before token w rest) (hstart : ∀ lead, token = .name lead →
      qQuoteStart ((w.take lead).reverse ++ before) (w.drop lead ++ rest) = none) :
    regionLexer.Reads before w (token.marks w) rest ∧
      ((∀ a b, token.marks w = a ++ (':', none) :: b →
        ¬ Clash ((a.map fst).reverse ++ before) (b.map fst ++ rest)) ↔ Unquoted (token, w)) := by
  cases h with
  | @region r _ _ hread =>
    refine ⟨hread, iff_of_true (fun a b hab => ?_) (unquoted_of_ne (by simp))⟩
    refine absurd ?_ (notMem_marks_of_region r w)
    rw [show w.map (·, some r) = a ++ (':', none) :: b from hab]
    simp
  | code hc hread =>
    refine ⟨hread, (forall_colon_iff (by simp)).trans (iff_of_true ?_ (unquoted_of_ne (by simp)))⟩
    exact fun hcolon => absurd hcolon hc
  | assign rest =>
    refine ⟨?_, (forall_colon_iff (by simp)).trans (iff_of_true ?_ (unquoted_of_ne (by simp)))⟩
    · have hequals : regionLexer.Reads (':' :: before) ['='] [('=', none)] rest :=
        .of_next (cons_ne_nil _ _)
          (regionNext_plain (qQuoteStart_eq_none (by decide) _) (by decide))
      exact (reads_colon before (['='] ++ rest)).append hequals
    · exact fun _ hclash => hclash.1.1 rfl
  | apart hbind =>
    refine ⟨reads_colon before rest,
      (forall_colon_iff (by simp)).trans (iff_of_true ?_ (unquoted_of_ne (by simp)))⟩
    exact fun _ hclash => hbind hclash.1
  | @blank space _ hbind hspace hrest =>
    refine ⟨reads_lead hspace before rest, (forall_colon_iff (notMem_marks_of_space hspace)).trans
      (iff_of_true ?_ (unquoted_of_ne (by simp)))⟩
    rw [map_fst_marks]
    intro _ hclash
    rcases (clash_iff hbind hspace fun c hc => (hrest c hc).1).mp hclash with hq | hq
    · exact absurd hq (by simp [qQuoteStart_of_head fun c hc => (hrest c hc).2.2])
    · exact (hrest _ hq.1).2.1 rfl
  | @quotedName space tail n hbind hspace hend =>
    rw [marks_quotedName, take_lead, drop_lead]
    refine ⟨(reads_lead hspace before _).append ?_, ?_⟩
    · rw [← literalEnd_of_checked hend]
      exact QuoteOf.identifier.reads _ tail
    · have hm : (':', (none : Option Region)) ∉ space.map (·, none)
          ++ ('"' :: tail.take n).map (·, some Region.quotedIdentifier) := by
        rw [mem_append, not_or]
        exact ⟨notMem_marks_of_space hspace, notMem_marks_of_region _ _⟩
      have hclash := clash_iff hbind hspace (by simp [isWhitespace])
      rw [qQuoteStart_eq_none (by decide), startsQuotedName_iff hend] at hclash
      rw [map_cons, cons_append, forall_colon_iff hm, map_append, map_fst_marks,
        map_fst_marks, append_assoc, cons_append, take_append_drop, hclash,
        unquoted_quotedName]
      simp
  | @name space name _ hbind hspace hne hparts hhead =>
    have hq := hstart _ rfl
    rw [take_lead, drop_lead] at hq
    rw [marks_name]
    refine ⟨?_, ?_⟩
    · rw [map_append]
      exact (reads_lead hspace before _).append (reads_name hparts hq)
    · have hm : (':', (none : Option Region)) ∉ (space ++ name).map (·, none) := by
        rw [map_append, mem_append, not_or]
        refine ⟨notMem_marks_of_space hspace, fun hmem => ?_⟩
        obtain ⟨c, hc, hcolon⟩ := mem_map.mp hmem
        obtain rfl : c = ':' := (mk.inj hcolon).1
        have hpart := hparts _ hc
        rw [isSqlIdentifierPart_ascii (by decide)] at hpart
        exact absurd hpart (by decide)
      rw [cons_append, map_cons, forall_colon_iff hm, map_fst_marks]
      refine iff_of_true (fun _ hclash => ?_) (unquoted_of_ne (by simp))
      rw [append_assoc] at hclash
      have hhead' : (name ++ rest).head? = name.head? := head?_append_of_ne_nil name hne
      rcases (clash_iff hbind hspace (by rw [hhead']; exact hhead)).mp hclash with hsome | hquoted
      · rw [reverse_cons, append_assoc, singleton_append] at hq
        rw [hq] at hsome
        exact Bool.false_ne_true hsome
      · have hquote := hquoted.1
        rw [hhead'] at hquote
        have hpart := hparts '"' (mem_of_mem_head? hquote)
        exact notMem_of_isSqlIdentifierPart hpart (by decide)

/-- A bind whose name starts a q-quote. -/
lemma Round.clash (h : Round before token w rest) {lead : ℕ} (htok : token = .name lead)
    (hstart : qQuoteStart ((w.take lead).reverse ++ before) (w.drop lead ++ rest) ≠ none) :
    ¬ Apart before (w ++ rest) ∧
      ∀ m, regionLexer.marks before (w ++ rest) ≠ token.marks w ++ m := by
  cases h with
  | @name space name _ hbind hspace hne hparts hhead =>
    cases htok
    rw [take_lead, drop_lead] at hstart
    obtain ⟨c, name, rfl⟩ := exists_cons_of_ne_nil hne
    constructor
    · intro hapart
      rw [cons_append, cons_append, append_assoc] at hapart
      refine apart_iff.mp hapart []
        (regionLexer.marks (':' :: before) (space ++ (c :: name ++ rest)))
        (reads_colon before _) ?_
      rw [Lexer.marks_map_fst]
      refine (clash_iff hbind hspace (by simpa using hhead)).mpr (.inl ?_)
      rw [reverse_cons, append_assoc] at hstart
      exact isSome_iff_ne_none.mpr hstart
    · intro m hm
      rw [marks_name, append_assoc, reads_lead hspace before (c :: name ++ rest), cons_append,
        Lexer.marks_cons] at hm
      -- the first character of the name belongs to the q-quote
      obtain ⟨start, hsome⟩ := ne_none_iff_exists'.mp hstart
      have hpos := regionLexer.next_pos ((':' :: space).reverse ++ before) (c :: (name ++ rest))
      have hkind : (regionLexer.next ((':' :: space).reverse ++ before) (c :: (name ++ rest))).1
          = some .qQuote := by
        show (regionNext _ _).1 = _
        rw [regionNext]
        rw [cons_append] at hsome
        rw [hsome]
      obtain ⟨k, hk⟩ := Nat.exists_eq_add_of_lt hpos
      rw [hkind, hk] at hm
      simp at hm
  | _ => cases htok

variable {tokens : List (BindToken × List Char)}

/-- The first round of a text that is read to its end. -/
lemma exists_of_bindTokens_cons (h : bindTokens before (c :: rest) = .ok tokens) :
    ∃ token n more, bindRound before (c :: rest) = .ok (token, n) ∧
      bindLexer.next before (c :: rest) = (.ok token, n) ∧
      tokens = (token, (c :: rest).take n) :: more ∧
      bindTokens (((c :: rest).take n).reverse ++ before) ((c :: rest).drop n) = .ok more := by
  rw [bindTokens, Lexer.tokens_cons, mapM_cons] at h
  cases hround : bindRound before (c :: rest) with
  | error e =>
    have hnext : bindLexer.next before (c :: rest) = (.error e, 1) := by
      simp only [bindLexer, hround]
    rw [hnext] at h
    cases h
  | ok round =>
    obtain ⟨token, n⟩ := round
    have hnext : bindLexer.next before (c :: rest) = (.ok token, n) := by
      simp only [bindLexer, hround]
    rw [hnext] at h
    cases hmore : bindTokens (((c :: rest).take n).reverse ++ before) ((c :: rest).drop n) with
    | error e =>
      rw [bindTokens] at hmore
      simp only [hmore] at h
      cases h
    | ok more =>
      refine ⟨token, n, more, rfl, hnext, ?_, hmore⟩
      rw [bindTokens] at hmore
      simp only [hmore] at h
      exact (Except.ok.inj h).symm

/-- The bind parser follows the lexical structure and takes no quoted name exactly if no bind has
one and none starts a q-quote. -/
theorem bindMarks_eq_iff (h : bindTokens before text = .ok tokens) :
    (tokens.flatMap (fun token => token.1.marks token.2) = regionLexer.marks before text ∧
      ∀ token ∈ tokens, Unquoted token) ↔ Apart before text := by
  induction before, text using bindLexer.tokens_induction generalizing tokens with
  | nil before =>
    cases h
    simp [Apart]
  | cons before c rest ih =>
    obtain ⟨token, n, more, hround, hnext, rfl, hmore⟩ := exists_of_bindTokens_cons h
    have hspec := bindRound_round (cons_ne_nil _ _) hround
    rw [hnext] at ih
    have ih := ih hmore
    have htext : (c :: rest).take n ++ (c :: rest).drop n = c :: rest :=
      take_append_drop _ _
    generalize (c :: rest).take n = w at *
    generalize (c :: rest).drop n = left at *
    rw [← htext, flatMap_cons, forall_mem_cons]
    by_cases hstart : ∀ lead, token = .name lead →
        qQuoteStart ((w.take lead).reverse ++ before) (w.drop lead ++ left) = none
    · obtain ⟨hread, hcolon⟩ := hspec.fine hstart
      rw [apart_iff_of_reads hread, hread, append_cancel_left_eq]
      tauto
    · push Not at hstart
      obtain ⟨lead, htok, hstart⟩ := hstart
      obtain ⟨hapart, hmarks⟩ := hspec.clash htok hstart
      exact iff_of_false (fun hboth => hmarks _ hboth.1.symm) hapart

/-- The keyword scanner follows the lexical structure. -/
theorem keywordMarks_eq (sql : List Char) :
    (keywordLexer.tokens [] sql).flatMap (fun token => token.1.marks token.2)
      = regionLexer.marks [] sql :=
  (Lexer.marks_eq_flatMap (f := KeywordToken.marks) keyword_reads [] sql).symm

/-- The tokens are the text. -/
lemma flatMap_bindTokens (h : bindTokens before text = .ok tokens) : tokens.flatMap snd = text := by
  induction before, text using bindLexer.tokens_induction generalizing tokens with
  | nil before =>
    cases h
    rfl
  | cons before c rest ih =>
    obtain ⟨token, n, more, -, hnext, rfl, hmore⟩ := exists_of_bindTokens_cons h
    rw [hnext] at ih
    rw [flatMap_cons, ih hmore, take_append_drop]

/-! ### The two scanners -/

/-- The scanners skip the same bytes, each as the same thing; the RETURNING and the INTO that
`sql_dml_returning_into_tail` takes are code for the bind parser, as every keyword is, and the
names of the binds are code for the keyword scanner. -/
structure Agree (sql : List Char) : Prop where
  skips : keywordSkips sql = bindSkips sql
  keywords : ∀ word ∈ keywordWords sql, Outside (bindSkips sql) word
  returning : ∀ tail, sqlDmlReturningIntoTail sql = some tail →
    ∃ returning ∈ keywordWords sql, ∃ into ∈ keywordWords sql,
      (asciiUppercase returning.2 = "RETURNING" ∨ asciiUppercase returning.2 = "RETURN") ∧
      asciiUppercase into.2 = "INTO" ∧ getFromByte (into.1 + byteLen into.2) sql = some tail ∧
      Outside (bindSkips sql) returning ∧ Outside (bindSkips sql) into
  names : ∀ name ∈ bindNames sql, Outside (keywordSkips sql) name

lemma keywordWords_outside {sql : List Char} {word : ℕ × List Char} (h : word ∈ keywordWords sql) :
    Outside (keywordSkips sql) word := by
  obtain ⟨P, token, R, lead, htoks, hfind, hstart⟩ := mem_occurrences.mp h
  intro p hp hlt
  rw [hstart, zero_add] at hp hlt
  rw [keywordSkips, htoks]
  obtain ⟨kind, w⟩ := token
  cases kind with
  | word =>
    cases hfind
    refine getElem?_occurrence KeywordToken.marks_fst (A := []) (C := []) ?_ rfl hp hlt
    rw [append_nil]
    rfl
  | _ => cases hfind

/-- **The two scanners skip the same text** exactly where no bind has a quoted name or starts a
q-quote: behind a colon `parse_sql_bind_names` reads a name without looking for the q-quote. -/
theorem scanners_agree_iff (toUppercase : List Char → String) {sql : List Char}
    {names : List String} (h : parseSqlBindNames toUppercase sql = .ok names) :
    Agree sql ↔ Apart [] sql := by
  obtain ⟨tokens, htokens, -⟩ := exists_of_map_eq_ok h
  have hread : readTokens sql = tokens := by rw [readTokens, htokens]; rfl
  have hmarks : keywordSkips sql = bindSkips sql ↔
      tokens.flatMap (fun token => token.1.marks token.2) = regionLexer.marks [] sql := by
    rw [keywordSkips, bindSkips, keywordMarks_eq, hread]
    refine ⟨fun hbytes => (ofBytes_injective ?_ hbytes).symm, fun heq => by rw [heq]⟩
    rw [flatMap_marks_fst marks_fst, flatMap_bindTokens htokens, Lexer.marks_map_fst]
  rw [← bindMarks_eq_iff htokens]
  constructor
  · intro hagree
    refine ⟨hmarks.mp hagree.skips, unquoted_of_outside fun name hname => ?_⟩
    have := hagree.names name (by rwa [bindNames, hread])
    rwa [hagree.skips, bindSkips, hread] at this
  · rintro ⟨hsame, hquoted⟩
    have hskips := hmarks.mpr hsame
    have hkeywords : ∀ word ∈ keywordWords sql, Outside (bindSkips sql) word := by
      intro word hword
      rw [← hskips]
      exact keywordWords_outside hword
    refine ⟨hskips, hkeywords, fun tail htail => ?_, fun name hname => ?_⟩
    · obtain ⟨stop, hstop, htail⟩ := bind_eq_some_iff.mp htail
      obtain ⟨hseen, into, hinto, hword, rfl⟩ := exists_of_returningIntoEnd hstop
      obtain ⟨returning, hreturning, hword'⟩ := hseen.resolve_left Bool.false_ne_true
      exact ⟨returning, hreturning, into, hinto, hword', hword, htail,
        hkeywords returning hreturning, hkeywords into hinto⟩
    · rw [hskips, bindSkips, hread]
      rw [bindNames, hread] at hname
      exact bindName_outside hquoted hname

end

/-! ### Two statements -/

/-- The q-quote behind the colon of a JSON member. -/
def jsonMember : List Char :=
  "UPDATE t SET a=json_object(k:q'[b]') RETURNING a INTO :r".toList

/-- The bind parser takes `q` as a name, and the keyword scanner skips it. -/
theorem scanners_disagree_jsonMember :
    @parseSqlBindNames asciiClasses asciiUppercase jsonMember = .ok ["Q", "R"] ∧
      ¬ @Agree asciiClasses jsonMember := by
  refine ⟨by decide +kernel, fun h => ?_⟩
  have hskips := @Agree.skips asciiClasses _ h
  revert hskips
  decide +kernel

/-- Literals, quoted identifiers, q-quotes and comments between binds. -/
def plainBinds : List Char :=
  "DELETE t WHERE a=:v AND \"b\"\"\"=nq'<:x>' --:y\n RETURNING 'it''s' /*:z*/ INTO : w".toList

lemma apart_of_lt [UnicodeClasses] {text : List Char}
    (h : ∀ i < text.length, (regionLexer.marks [] text)[i]? = some (':', none) →
      ¬ Clash (text.take i).reverse (text.drop (i + 1))) : Apart [] text := by
  intro i hi
  have hlt := (List.getElem?_eq_some_iff.mp hi).1
  rw [Lexer.marks_length] at hlt
  rw [append_nil]
  exact h i hlt hi

theorem scanners_agree_plainBinds :
    @parseSqlBindNames asciiClasses asciiUppercase plainBinds = .ok ["V", "W"] ∧
      @Agree asciiClasses plainBinds := by
  have hnames : @parseSqlBindNames asciiClasses asciiUppercase plainBinds = .ok ["V", "W"] := by
    decide +kernel
  refine ⟨hnames, (@scanners_agree_iff asciiClasses asciiUppercase _ _ hnames).mpr ?_⟩
  refine @apart_of_lt asciiClasses _ ?_
  decide +kernel

end StatementText

end SpaceQuery.Thin
