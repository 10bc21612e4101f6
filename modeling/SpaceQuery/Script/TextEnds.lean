import SpaceQuery.Script.MysqlText

/-!
Starts of texts that end with white space, read by the lexical rules of Oracle and of MySQL. White
space closes no quoted text and no block comment, and nothing that opens one goes across it.
-/

namespace SpaceQuery.Script

open Bool Option List RustText SqlText

/-- The last character of a text is white space. -/
def EndsInSpace (text : List Char) : Prop := ∀ c ∈ text.getLast?, isWhitespace c = true

variable {v : List Char}

lemma EndsInSpace.of_append {w : List Char} (h : EndsInSpace (v ++ w)) : EndsInSpace w := by
  intro c hc
  refine h c ?_
  rw [getLast?_append, mem_def.mp hc]
  rfl

variable {c : Char}

lemma EndsInSpace.tail (h : EndsInSpace (c :: v)) : EndsInSpace v :=
  h.of_append (v := [c])

lemma EndsInSpace.drop (h : EndsInSpace v) (n : ℕ) : EndsInSpace (v.drop n) := by
  rw [← take_append_drop n v] at h
  exact h.of_append

lemma EndsInSpace.singleton (h : EndsInSpace [c]) : isWhitespace c :=
  h c rfl

/-- A pattern without white space does not go across it. -/
lemma EndsInSpace.isPrefixOf_append (h : EndsInSpace v) (pattern : List Char)
    (hv : v ≠ []) (hpattern : ∀ c ∈ pattern, isWhitespace c = false) (rest : List Char) :
    pattern.isPrefixOf (v ++ rest) = pattern.isPrefixOf v := by
  induction pattern generalizing v with
  | nil => simp
  | cons p pattern ih =>
    obtain ⟨c, v, rfl⟩ := exists_cons_of_ne_nil hv
    rw [cons_append, isPrefixOf_cons_cons, isPrefixOf_cons_cons]
    by_cases hpc : p = c
    · subst hpc
      have hne : v ≠ [] := by
        rintro rfl
        simp [EndsInSpace, hpattern p mem_cons_self] at h
      rw [ih h.tail hne fun c hc => hpattern c (mem_cons_of_mem _ hc)]
    · rw [beq_eq_false_iff_ne.mpr hpc, Bool.false_and, Bool.false_and]

/-- A pattern without white space is shorter than the text that starts with it. -/
lemma EndsInSpace.length_lt {pattern : List Char} (h : EndsInSpace v) (hv : v ≠ [])
    (hpattern : ∀ c ∈ pattern, isWhitespace c = false) (hstart : pattern <+: v) :
    pattern.length < v.length := by
  refine lt_of_le_of_ne hstart.length_le fun hlen => ?_
  obtain rfl := hstart.eq_of_length hlen
  have hlast := h _ (getLast?_eq_some_getLast hv)
  rw [hpattern _ (getLast_mem hv)] at hlast
  exact false_ne_true hlast

/-! ### Lengths that do not look further -/

/-- A length that is read inside of `v` is read the same in front of `rest`, and one that is
not goes on into `rest`. -/
structure Settled (length : List Char → ℕ) (v rest : List Char) : Prop where
  stays : length v < v.length → length (v ++ rest) = length v
  goesOn : v.length ≤ length v → v.length < length (v ++ rest)

variable {rest : List Char}

/-- A length behind a start of the text. -/
lemma Settled.drop {length : List Char → ℕ} {n : ℕ} (hn : n ≤ v.length)
    (h : Settled length (v.drop n) rest) :
    Settled (fun text => n + length (text.drop n)) v rest := by
  have happ : (v ++ rest).drop n = v.drop n ++ rest := drop_append_of_le_length hn
  have hlen : (v.drop n).length = v.length - n := length_drop
  constructor
  · intro hlt
    rw [happ, h.stays (by omega)]
  · intro hle
    have := h.goesOn (by omega)
    rw [happ]
    omega

lemma Settled.congr {length length' : List Char → ℕ} (h : Settled length v rest)
    (hv : length' v = length v) (happ : length' (v ++ rest) = length (v ++ rest)) :
    Settled length' v rest := by
  constructor
  · rw [hv, happ]
    exact h.stays
  · rw [hv, happ]
    exact h.goesOn

open Settled

lemma settled_throughFind {pattern : List Char} (h : EndsInSpace v) (hpattern : pattern ≠ [])
    (hspace : ∀ c ∈ pattern, isWhitespace c = false) (hrest : rest ≠ []) :
    Settled (throughFind pattern) v rest := by
  have hpos := length_pos_iff.mpr hpattern
  induction v with
  | nil =>
    obtain ⟨d, rest, rfl⟩ := exists_cons_of_ne_nil hrest
    refine ⟨by simp, fun _ => ?_⟩
    rw [nil_append, throughFind_cons]
    split_ifs <;> simp [hpos]
  | cons c v ih =>
    have hstart := h.isPrefixOf_append _ (cons_ne_nil _ _) hspace rest
    rw [cons_append] at hstart
    cases hpre : pattern.isPrefixOf (c :: v) with
    | true =>
      have hlt := h.length_lt (cons_ne_nil _ _) hspace (List.isPrefixOf_iff_prefix.mp hpre)
      have hlen : throughFind pattern (c :: v) = pattern.length := by
        rw [throughFind_cons, if_pos hpre]
      refine ⟨fun _ => ?_, fun hle => absurd (hlen ▸ hle) (by omega)⟩
      rw [cons_append, throughFind_cons, hstart, if_pos hpre, hlen]
    | false =>
      refine (drop (n := 1) (by simp) (ih h.tail)).congr ?_ ?_
      · rw [throughFind_cons, if_neg (by simp [hpre])]
        rfl
      · rw [cons_append, throughFind_cons, hstart, if_neg (by simp [hpre])]
        rfl

lemma settled_throughQuote {escapes : Bool} {quote : Char} (h : EndsInSpace v)
    (hquote : isWhitespace quote = false) (hrest : rest ≠ []) :
    Settled (throughQuote escapes quote) v rest := by
  have hpos : ∀ text, text ≠ [] → 0 < throughQuote escapes quote text := by
    intro text htext
    fun_cases throughQuote escapes quote text <;> simp_all
  have hslash : isWhitespace '\\' = false := by decide
  induction v using throughQuote.induct escapes quote with
  | case1 => exact ⟨by simp, fun _ => hpos rest hrest⟩
  | case2 c =>
    have hspace := h.singleton
    have hc : c ≠ quote ∧ c ≠ '\\' := by
      constructor <;> rintro rfl <;> simp_all
    obtain ⟨d, rest, rfl⟩ := exists_cons_of_ne_nil hrest
    have := hpos (d :: rest) hrest
    constructor
    · simp [throughQuote]
    · intro _
      rw [singleton_append, throughQuote, if_neg (by simp [hc.2]), if_neg hc.1, length_singleton]
      omega
  | case3 c d v hc ih =>
    refine (drop (n := 2) (by simp) (ih h.tail.tail)).congr ?_ ?_
    · rw [throughQuote, if_pos hc]
      rfl
    · rw [cons_append, cons_append, throughQuote, if_pos hc]
      rfl
  | case4 d v hc =>
    constructor
    · intro _
      rw [cons_append, cons_append, throughQuote, throughQuote, if_neg hc, if_neg hc,
        if_pos rfl, if_pos rfl]
    · rw [throughQuote, if_neg hc, if_pos rfl, length_cons, length_cons]
      omega
  | case5 c d v hc hne ih =>
    refine (drop (n := 1) (by simp) (ih h.tail)).congr ?_ ?_
    · rw [throughQuote, if_neg hc, if_neg hne]
      rfl
    · rw [cons_append, cons_append, throughQuote, if_neg hc, if_neg hne]
      rfl

/-- A text that goes on in the line it is put behind. -/
def GoesOn (rest : List Char) : Prop := ∃ c tail, rest = c :: tail ∧ c ≠ '\n'

lemma GoesOn.ne_nil (h : GoesOn rest) : rest ≠ [] := by
  obtain ⟨c, tail, rfl, -⟩ := h
  exact cons_ne_nil c tail

/-- The rest of a line, if what follows does not start a new one. -/
lemma settled_takeWhile (hrest : GoesOn rest) :
    Settled (fun text => (text.takeWhile (· ≠ '\n')).length) v rest := by
  obtain ⟨c, tail, rfl, hc⟩ := hrest
  induction v with
  | nil => exact ⟨by simp, fun _ => by simp [hc]⟩
  | cons d v ih =>
    by_cases hd : d = '\n'
    · subst hd
      exact ⟨fun _ => by simp, by simp⟩
    · have hcons : ∀ text : List Char, ((d :: text).takeWhile (· ≠ '\n')).length
          = 1 + (text.takeWhile (· ≠ '\n')).length := by
        intro text
        rw [takeWhile_cons_of_pos (by simpa using hd), length_cons, add_comm]
      exact (drop (n := 1) (by simp) ih).congr (hcons v) (hcons (v ++ c :: tail))

/-! ### Tokens that do not look further -/

/-- The first token of `v` is one character of code, or its length is settled. -/
def NextSettled (next : List Char → TextKind × ℕ) (v rest : List Char) : Prop :=
  (next v = (.code, 1) ∧ next (v ++ rest) = (.code, 1)) ∨
    ∃ kind length, kind ≠ .code ∧ next v = (kind, length v) ∧
      next (v ++ rest) = (kind, length (v ++ rest)) ∧ Settled length v rest

lemma NextSettled.stays {next : List Char → TextKind × ℕ}
    (h : NextSettled next v rest) (hnext : (next v).1 = .code ∨ (next v).2 < v.length) :
    next (v ++ rest) = next v := by
  rcases h with ⟨hv, happ⟩ | ⟨kind, length, hkind, hv, happ, hsettled⟩
  · rw [hv, happ]
  · rw [hv] at hnext
    rw [hv, happ, hsettled.stays (hnext.resolve_left hkind)]

lemma NextSettled.goesOn {next : List Char → TextKind × ℕ}
    (h : NextSettled next v rest) (hkind : (next v).1 ≠ .code) (hle : v.length ≤ (next v).2) :
    v.length < (next (v ++ rest)).2 := by
  rcases h with ⟨hv, -⟩ | ⟨kind, length, -, hv, happ, hsettled⟩
  · rw [hv] at hkind
    exact absurd rfl hkind
  · rw [hv] at hle
    rw [happ]
    exact hsettled.goesOn hle

lemma settled_lineComment (hv : v ≠ []) (hrest : GoesOn rest) :
    Settled (fun text => 1 + ((text.drop 1).takeWhile (· ≠ '\n')).length) v rest :=
  drop (length_pos_iff.mpr hv) (settled_takeWhile hrest)

lemma settled_blockComment (h : EndsInSpace v) (hv : v ≠ [])
    (hblock : "/*".toList.isPrefixOf v) (hrest : rest ≠ []) :
    Settled (fun text => 2 + throughFind "*/".toList (text.drop 2)) v rest :=
  drop (h.length_lt hv (by simp [isWhitespace]) (List.isPrefixOf_iff_prefix.mp hblock)).le
    (settled_throughFind (h.drop 2) (by simp) (by simp [isWhitespace]) hrest)

lemma head?_append_of_ne_nil (hv : v ≠ []) (rest : List Char) : (v ++ rest).head? = v.head? := by
  obtain ⟨c, v, rfl⟩ := exists_cons_of_ne_nil hv
  rfl

/-! ### The rules of MySQL -/

lemma isMysqlDashCommentStart_append (h : EndsInSpace v) (hv : v ≠ [])
    (rest : List Char) : isMysqlDashCommentStart (v ++ rest) = isMysqlDashCommentStart v := by
  have hdash : isWhitespace '-' = false := by decide
  have hstart := h.isPrefixOf_append "--".toList hv (by simp [isWhitespace]) rest
  unfold isMysqlDashCommentStart
  rw [hstart]
  cases hpre : "--".toList.isPrefixOf v with
  | false => simp
  | true =>
    have hlt := h.length_lt hv (by simp [isWhitespace]) (List.isPrefixOf_iff_prefix.mp hpre)
    have hdashes : (v.dropWhile (· = '-')) ≠ [] := by
      intro hnil
      rw [dropWhile_eq_nil_iff] at hnil
      have hlast := hnil _ (getLast_mem hv)
      have hspace := h _ (getLast?_eq_some_getLast hv)
      rw [decide_eq_true_eq] at hlast
      rw [hlast] at hspace
      exact false_ne_true hspace
    have hthird : (v ++ rest)[2]? = v[2]? := getElem?_append_left hlt
    have hend : ((v ++ rest).dropWhile (· = '-')).head? = (v.dropWhile (· = '-')).head? := by
      rw [dropWhile_append, if_neg (by simpa [List.isEmpty_iff] using hdashes),
        head?_append_of_ne_nil hdashes]
    rw [hthird, hend]

lemma startsMysqlLineComment_append (h : EndsInSpace v) (hv : v ≠ [])
    (rest : List Char) : startsMysqlLineComment (v ++ rest) = startsMysqlLineComment v := by
  rw [startsMysqlLineComment, startsMysqlLineComment, isMysqlDashCommentStart_append h hv,
    head?_append_of_ne_nil hv]

lemma isWhitespace_of_isMysqlQuote (h : isMysqlQuote c) : isWhitespace c = false := by
  simp only [isMysqlQuote, or_eq_true, decide_eq_true_eq] at h
  rcases h with (rfl | rfl) | rfl <;> decide

lemma nextSettled_mysql (h : EndsInSpace v) (hv : v ≠ [])
    (hrest : GoesOn rest) : NextSettled mysqlNext v rest := by
  have hne := hrest.ne_nil
  have hline := startsMysqlLineComment_append h hv rest
  have hblock := h.isPrefixOf_append "/*".toList hv (by simp [isWhitespace]) rest
  unfold NextSettled mysqlNext
  rw [hline, hblock]
  by_cases hl : startsMysqlLineComment v
  · rw [if_pos hl, if_pos hl]
    exact .inr ⟨.comment, _, by decide, rfl, rfl, settled_lineComment hv hrest⟩
  rw [if_neg hl, if_neg hl]
  by_cases hb : "/*".toList.isPrefixOf v
  · rw [if_pos hb, if_pos hb]
    exact .inr ⟨.comment, _, by decide, rfl, rfl, settled_blockComment h hv hb hne⟩
  rw [if_neg hb, if_neg hb]
  obtain ⟨c, v, rfl⟩ := exists_cons_of_ne_nil hv
  dsimp only [cons_append]
  by_cases hq : isMysqlQuote c
  · rw [if_pos hq, if_pos hq]
    refine .inr ⟨.quoted, fun text => 1 + throughQuote (c ≠ '\x60') c (text.drop 1), by decide,
      rfl, rfl, ?_⟩
    exact drop (by simp) (settled_throughQuote h.tail (isWhitespace_of_isMysqlQuote hq) hne)
  · rw [if_neg hq, if_neg hq]
    exact .inl ⟨rfl, rfl⟩

/-- Where a start of a text that ends with white space is cut. -/
theorem isCut_mysql_iff {u : List Char} (hu : EndsInSpace u)
    (hrest : GoesOn rest) (before : List Char) :
    mysqlLexer.IsCut before (u ++ rest) u.length ↔
      ∀ token ∈ (mysqlLexer.tokens before u).getLast?, token.1 = .code := by
  refine mysqlLexer.isCut_append_iff (S := EndsInSpace) (fun _ _ _ h => h.of_append)
    (fun _ v hcode => ?_) (fun _ v hv h hnext => (nextSettled_mysql h hv hrest).stays hnext)
    (fun _ v hv h => (nextSettled_mysql h hv hrest).goesOn) hrest.ne_nil before fun _ => hu
  exact mysqlNext_code hcode

/-! ### The rules of Oracle -/

lemma qQuotePrefixLen_append (h : EndsInSpace v) (hv : v ≠ [])
    (rest : List Char) : qQuotePrefixLen (v ++ rest) = qQuotePrefixLen v := by
  have hletters : isWhitespace 'q' = false ∧ isWhitespace 'Q' = false ∧ isWhitespace 'n' = false
      ∧ isWhitespace 'N' = false ∧ isWhitespace '\'' = false := by decide
  match v, hv with
  | [a], _ =>
    have ha := h.singleton
    unfold qQuotePrefixLen
    grind
  | [a, b], _ =>
    have hb := h.tail.singleton
    unfold qQuotePrefixLen
    grind
  | a :: b :: c :: v, _ => rfl

lemma qQuotePrefixLen_le {n : ℕ} (h : EndsInSpace v)
    (hlen : qQuotePrefixLen v = some n) : 0 < n ∧ n ≤ v.length := by
  have hquote : isWhitespace '\'' = false := by decide
  match v with
  | [] => simp [qQuotePrefixLen] at hlen
  | [a] => simp [qQuotePrefixLen] at hlen
  | [a, b] =>
    have hb := h.tail.singleton
    unfold qQuotePrefixLen at hlen
    grind
  | [a, b, c] =>
    have hc := h.tail.tail.singleton
    unfold qQuotePrefixLen at hlen
    grind
  | a :: b :: c :: d :: v =>
    unfold qQuotePrefixLen at hlen
    grind

section

variable [UnicodeClasses]

/-- No q-quote is closed by white space. -/
lemma qQuoteStart_closing {before text : List Char} {closing : Char} {prefixLen : ℕ}
    (h : qQuoteStart before text = some (closing, prefixLen)) : isWhitespace closing = false := by
  unfold qQuoteStart at h
  split_ifs at h
  obtain ⟨n, -, h⟩ := bind_eq_some_iff.mp h
  obtain ⟨delimiter, -, h⟩ := bind_eq_some_iff.mp h
  split_ifs at h with hvalid
  cases h
  simp only [isValidQQuoteDelimiter, and_eq_true, not_eq_true'] at hvalid
  unfold qQuoteClosing
  split <;> first | decide | exact hvalid.1

lemma qQuoteStart_append {v : List Char} (h : EndsInSpace v) (hv : v ≠ [])
    (before rest : List Char) : qQuoteStart before (v ++ rest) = qQuoteStart before v := by
  unfold qQuoteStart
  rw [qQuotePrefixLen_append h hv]
  cases hlen : qQuotePrefixLen v with
  | none => rfl
  | some n =>
    obtain ⟨hpos, hle⟩ := qQuotePrefixLen_le h hlen
    rw [bind_some, bind_some, getElem?_append_left (by omega)]

lemma nextSettled_oracle {v rest : List Char} (h : EndsInSpace v) (hv : v ≠ [])
    (hrest : GoesOn rest) (before : List Char) : NextSettled (oracleNext before) v rest := by
  have hne := hrest.ne_nil
  have hline := h.isPrefixOf_append "--".toList hv (by simp [isWhitespace]) rest
  have hblock := h.isPrefixOf_append "/*".toList hv (by simp [isWhitespace]) rest
  have hquote := qQuoteStart_append h hv before rest
  have hhead := head?_append_of_ne_nil hv rest
  have hone : 1 ≤ v.length := length_pos_iff.mpr hv
  unfold NextSettled oracleNext
  rw [hline, hblock, hquote, hhead]
  by_cases hl : "--".toList.isPrefixOf v
  · rw [if_pos hl, if_pos hl]
    exact .inr ⟨.comment, _, by decide, rfl, rfl, settled_lineComment hv hrest⟩
  rw [if_neg hl, if_neg hl]
  by_cases hb : "/*".toList.isPrefixOf v
  · rw [if_pos hb, if_pos hb]
    exact .inr ⟨.comment, _, by decide, rfl, rfl, settled_blockComment h hv hb hne⟩
  rw [if_neg hb, if_neg hb]
  cases hq : qQuoteStart before v with
  | some start =>
    obtain ⟨closing, prefixLen⟩ := start
    have hle := (qQuotePrefixLen_le h (qQuoteStart_prefixLen hq)).2
    refine .inr ⟨.quoted, fun text => prefixLen + throughFind [closing, '\''] (text.drop prefixLen),
      by decide, rfl, rfl, drop hle ?_⟩
    refine settled_throughFind (h.drop prefixLen) (by simp) ?_ hne
    simpa using ⟨qQuoteStart_closing hq, (by decide : isWhitespace '\'' = false)⟩
  | none =>
    by_cases hs : v.head? = some '\''
    · rw [if_pos hs, if_pos hs]
      exact .inr ⟨.quoted, fun text => 1 + throughFind ['\''] (text.drop 1), by decide, rfl, rfl,
        drop hone (settled_throughFind (h.drop 1) (by simp) (by simp [isWhitespace]) hne)⟩
    rw [if_neg hs, if_neg hs]
    by_cases hd : v.head? = some '"'
    · rw [if_pos hd, if_pos hd]
      exact .inr ⟨.quoted, fun text => 1 + throughFind ['"'] (text.drop 1), by decide, rfl, rfl,
        drop hone (settled_throughFind (h.drop 1) (by simp) (by simp [isWhitespace]) hne)⟩
    rw [if_neg hd, if_neg hd]
    exact .inl ⟨rfl, rfl⟩

/-- Where a start of a text that ends with white space is cut. -/
theorem isCut_oracle_iff {u rest : List Char} (hu : EndsInSpace u)
    (hrest : GoesOn rest) (before : List Char) :
    oracleLexer.IsCut before (u ++ rest) u.length ↔
      ∀ token ∈ (oracleLexer.tokens before u).getLast?, token.1 = .code := by
  refine oracleLexer.isCut_append_iff (S := EndsInSpace) (fun _ _ _ h => h.of_append)
    (fun before v hcode => ?_)
    (fun before v hv h hnext => (nextSettled_oracle h hv hrest before).stays hnext)
    (fun before v hv h => (nextSettled_oracle h hv hrest before).goesOn) hrest.ne_nil before
    fun _ => hu
  exact oracleNext_code hcode

end

end SpaceQuery.Script
