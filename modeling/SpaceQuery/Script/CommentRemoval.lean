import SpaceQuery.Script.StripComments

/-!
What `strip_comments` removes from a statement, against the lexical structure of the statement
(`oracleLexer`).

The forward pass follows the lexer. The backward pass looks at the last line of the text, or counts
the `*/` and `/*` from its end, without knowing what is quoted.
-/

namespace SpaceQuery.Script

open Option List RustText SqlText

/-! ### Tokens -/

variable {text u v : List Char}

/-- What is found first is found nowhere before. -/
lemma eq_nil_of_take_throughFind {pattern : List Char}
    (h : text.take (throughFind pattern text) = u ++ (pattern ++ v)) : v = [] := by
  induction text generalizing u with
  | nil =>
    rw [take_nil] at h
    simp_all
  | cons c text ih =>
    rw [throughFind_cons] at h
    split_ifs at h with hfound
    · have hlen := congrArg length h
      simp only [length_take, length_append] at hlen
      exact length_eq_zero_iff.mp (by omega)
    · rw [Nat.add_comm, take_succ_cons] at h
      cases u with
      | nil =>
        refine absurd (List.isPrefixOf_iff_prefix.mpr ?_) hfound
        have hpre : pattern <+: c :: text.take (throughFind pattern text) := ⟨v, h.symm⟩
        exact hpre.trans (cons_prefix_cons.mpr ⟨rfl, take_prefix _ _⟩)
      | cons d u => exact ih (cons.inj h).2

/-- A token of Oracle's SQL, with its kind. -/
abbrev OracleToken := TextKind × List Char

/-- The tokens in front of a text. A block comment ends where its end is found first. -/
inductive Word (rest : List Char) : TextKind → List Char → Prop
  | space {c : Char} (hc : isWhitespace c) : Word rest .code [c]
  | code {c : Char} (hc : isWhitespace c = false) (hdash : c = '-' → rest.head? ≠ some '-')
      (hslash : c = '/' → rest.head? ≠ some '*') : Word rest .code [c]
  | quoted {c : Char} {w : List Char} (hc : isWhitespace c = false) (hslash : c ≠ '/')
      (hend : rest ≠ [] → (c :: w).getLast? ≠ some '-') : Word rest .quoted (c :: w)
  | line {body : List Char} (hbody : '\n' ∉ body) (hrest : ∀ c ∈ rest.head?, c = '\n') :
      Word rest .comment ('-' :: '-' :: body)
  | block {body : List Char} (hbody : throughFind "*/".toList (body ++ rest) = body.length) :
      Word rest .comment ('/' :: '*' :: body)

variable {body rest : List Char}

/-- The end of a block comment is nowhere inside of it. -/
lemma eq_nil_of_block (h : throughFind "*/".toList (body ++ rest) = body.length)
    (hbody : body = u ++ ("*/".toList ++ v)) : v = [] := by
  have htake : (body ++ rest).take (throughFind "*/".toList (body ++ rest))
      = u ++ ("*/".toList ++ v) := by rw [h, take_left, hbody]
  exact eq_nil_of_take_throughFind htake

variable {c : Char}

section

variable [UnicodeClasses]

end

/-! ### The forward pass -/

/-- A token that may be removed from around a statement: a comment, or white space in code. -/
@[simp] def removableToken (token : OracleToken) : Bool :=
  match token.1 with
  | .comment => true
  | .code => token.2.all isWhitespace
  | .quoted => false

/-- A token that the forward pass goes over. -/
def skipped (token : OracleToken) : Bool :=
  removableToken token && !isMysqlExecutableCommentStart token.2

/-- The text that tokens are read from. -/
def tokenText (tokens : List OracleToken) : List Char := (tokens.map Prod.snd).flatten

/-- A word with a character that starts a comment is no `REM`. -/
lemma not_isRemark {word : List Char} (hc : c = '-' ∨ c = '/') (hmem : c ∈ word) :
    (eqIgnoreAsciiCase word "REM" || eqIgnoreAsciiCase word "REMARK") = false := by
  have hno : ∀ pattern : String, c.toUpper ∉ pattern.toList.map Char.toUpper →
      eqIgnoreAsciiCase word pattern = false := by
    intro pattern hpattern
    refine decide_eq_false fun heq => hpattern ?_
    rw [← String.ofList_injective heq]
    exact mem_map_of_mem hmem
  obtain rfl | rfl := hc
  · rw [hno "REM" (by decide), hno "REMARK" (by decide), Bool.or_false]
  · rw [hno "REM" (by decide), hno "REMARK" (by decide), Bool.or_false]

variable {before : List Char} {token : OracleToken} {R : List OracleToken}

section

variable [UnicodeClasses]

end

/-! ### The backward pass -/

/-- What is left of a text when its end is trimmed. -/
lemma trimEnd_isPrefix (text : List Char) : trimEnd text <+: text :=
  ⟨_, trimEnd_append_trailingWhitespace text⟩

/-- Trimming does not go into a text that does not end with white space. -/
lemma isPrefix_trimEnd {a : List Char} (ha : ∀ c ∈ a.getLast?, isWhitespace c = false)
    (h : a <+: u) : a <+: trimEnd u := by
  obtain ⟨x, rfl⟩ := h
  induction x using reverseRecOn with
  | nil =>
    rw [append_nil]
    cases a using reverseRecOn with
    | nil => exact nil_prefix
    | append_singleton a c =>
      rw [trimEnd_concat (ha c (by simp))]
  | append_singleton x c ih =>
    cases hc : isWhitespace c with
    | true =>
      have htrim : trimEnd (a ++ (x ++ [c])) = trimEnd (a ++ x) := by
        rw [trimEnd, trimEnd, ← append_assoc, reverse_concat, dropWhile_cons_of_pos hc]
      rwa [htrim]
    | false =>
      rw [← append_assoc, trimEnd_concat hc, append_assoc]
      exact prefix_append _ _

/-- The line that a text ends with. -/
def lastLine (text : List Char) : List Char := (text.reverse.takeWhile (· ≠ '\n')).reverse

lemma lastLine_of_notMem (h : '\n' ∉ text) : lastLine text = text := by
  rw [lastLine, takeWhile_eq_self_iff.mpr, reverse_reverse]
  intro c hc
  simp only [decide_eq_true_eq]
  rintro rfl
  exact h (mem_reverse.mp hc)

lemma lastLine_append {line : List Char} (h : '\n' ∉ line) (before : List Char) :
    lastLine (before ++ '\n' :: line) = line := by
  have hline : ∀ c ∈ line.reverse, decide (c ≠ '\n') = true := by
    intro c hc
    rw [decide_eq_true_eq]
    rintro rfl
    exact h (mem_reverse.mp hc)
  rw [lastLine, reverse_append, reverse_cons, append_assoc, takeWhile_append_of_pos hline]
  simp

/-- A text is one line, or it is cut at its last line break. -/
lemma splitLastLine_cases (text : List Char) : '\n' ∉ text ∧ splitLastLine text = none ∨
      ∃ before line, text = before ++ '\n' :: line ∧ '\n' ∉ line ∧
        splitLastLine text = some (before, line) := by
  have hsplit : splitLastLine text = if (lastLine text).length = text.length then none
      else some (text.take (text.length - (lastLine text).length - 1), lastLine text) := rfl
  by_cases hmem : '\n' ∈ text
  · obtain ⟨line, before, hrev, hline⟩ := eq_append_cons_of_mem (mem_reverse.mpr hmem)
    have hline : '\n' ∉ line.reverse := mem_reverse.not.mpr hline
    obtain rfl : text = before.reverse ++ '\n' :: line.reverse := by
      rw [← reverse_reverse text, hrev]
      simp
    refine .inr ⟨before.reverse, line.reverse, rfl, hline, ?_⟩
    have hlen : (before.reverse ++ '\n' :: line.reverse).length
        = before.reverse.length + (line.reverse.length + 1) := by rw [length_append, length_cons]
    have hcut : before.reverse.length + (line.reverse.length + 1) - line.reverse.length - 1
        = before.reverse.length := by omega
    rw [hsplit, lastLine_append hline, hlen, if_neg (by omega), hcut, take_left]
  · exact .inl ⟨hmem, by rw [hsplit, lastLine_of_notMem hmem, if_pos rfl]⟩

variable {next : List Char}

/-- What a round of the backward pass cuts off: the last line, all of the text, or a block. -/
lemma stripTrailingRound_cases (h : stripTrailingRound u = some next) :
    (∃ line, trimEnd u = next ++ '\n' :: line ∧ '\n' ∉ line ∧ lineCommentStarts (trim line)) ∨
      ('\n' ∉ trimEnd u ∧ lineCommentStarts (trimEnd u) ∧ next = []) ∨
      beforeTrailingBlock (trimEnd u) = some next := by
  dsimp only [stripTrailingRound] at h
  by_cases hempty : (trimEnd u).isEmpty
  · simp [hempty] at h
  rw [if_neg hempty] at h
  obtain ⟨hmem, hsplit⟩ | ⟨before, line, htext, hline, hsplit⟩ := splitLastLine_cases (trimEnd u)
  · rw [hsplit] at h
    dsimp only at h
    split_ifs at h with hcomment
    · exact .inr (.inl ⟨hmem, hcomment, (some.inj h).symm⟩)
    · exact .inr (.inr h)
  · rw [hsplit] at h
    dsimp only at h
    split_ifs at h with hcomment
    · cases h
      exact .inl ⟨line, htext, hline, hcomment⟩
    · exact .inr (.inr h)

variable {y : List Char}

/-- A line that looks like a comment does so from its code alone, if what follows it starts with
white space or a comment. -/
lemma lineCommentStarts_of_append {x : List Char} (hc : isWhitespace c = false)
    (hx : ∀ d ∈ x.head?, isWhitespace d ∨ d = '-' ∨ d = '/')
    (hdash : c :: y = ['-'] → x.head? ≠ some '-') (h : lineCommentStarts (c :: y ++ x)) :
    lineCommentStarts (c :: y) := by
  simp only [lineCommentStarts, isSqlplusCommentLine, isMysqlHashCommentLine,
    isSqlplusRemarkCommentLine, firstWord, cons_append, trimStart_cons_of_not hc,
    Bool.or_eq_true, head?_cons] at h ⊢
  refine h.imp_left (Or.imp (Or.imp_left fun hdashes => ?_) fun hword => ?_)
  · cases y with
    | nil =>
      cases x with
      | nil => simp at hdashes
      | cons d x =>
        obtain ⟨rfl, rfl⟩ : '-' = c ∧ '-' = d := by simpa using hdashes
        exact absurd rfl (hdash rfl)
    | cons d y => exact hdashes
  · have hfirst : ∀ rest, (c :: rest).takeWhile (!isWhitespace ·)
        = c :: rest.takeWhile (!isWhitespace ·) :=
      fun rest => takeWhile_cons_of_pos (by simp [hc])
    rw [hfirst, Option.any_some] at hword ⊢
    rw [takeWhile_append] at hword
    split_ifs at hword with hall
    · have hy : y.takeWhile (!isWhitespace ·) = y :=
        (List.takeWhile_prefix _).eq_of_length hall
      rw [hy]
      cases x with
      | nil => simpa using hword
      | cons d x =>
        obtain hspace | hstart := hx d rfl
        · simpa [takeWhile_cons_of_neg, hspace] using hword
        · have hd : isWhitespace d = false := by
            obtain rfl | rfl := hstart <;> decide
          rw [takeWhile_cons_of_pos (by simp [hd]), not_isRemark hstart (by simp)] at hword
          exact absurd hword Bool.false_ne_true
    · exact hword

/-! #### Blocks -/

/-- The scan stops at a `/*`. -/
lemma scanBlockStart_eq_some {depth : ℤ} (h : scanBlockStart depth text = some before) :
    ∃ block, text = block ++ '*' :: '/' :: before := by
  fun_induction scanBlockStart depth text with
  | case1 depth b a rest hpair hdepth =>
    cases h
    obtain ⟨rfl, rfl⟩ : a = '/' ∧ b = '*' := by simpa using hpair
    exact ⟨[], rfl⟩
  | case2 depth b a rest hpair hdepth ih | case3 depth b a rest hopen hclose ih =>
    obtain ⟨block, rfl⟩ := ih h
    exact ⟨b :: a :: block, rfl⟩
  | case4 depth b a rest hopen hclose ih =>
    obtain ⟨block, hblock⟩ := ih h
    exact ⟨b :: block, by rw [hblock, cons_append]⟩
  | case5 => simp at h

variable {front : List Char}

/-- The scan for the start of a block does not go past it: `x` is the block without its ends, from
the back. -/
lemma suffix_of_scanBlockStart {x : List Char}
    (hclose : ∀ u v, x ≠ u ++ '/' :: '*' :: v) (hlast : x.getLast? ≠ some '/')
    (h : scanBlockStart 1 (x ++ '*' :: '/' :: front) = some before) : front <:+ before := by
  induction x with
  | nil =>
    rw [nil_append, scanBlockStart] at h
    simp at h
    rw [h]
  | cons c x ih =>
    cases x with
    | nil =>
      have hne : c ≠ '/' := by simpa using hlast
      rw [singleton_append, scanBlockStart, if_neg (by simp), if_neg (by simp [hne])] at h
      exact ih (by simp) (by simp) h
    | cons d x =>
      have hclose' : ∀ u v, d :: x ≠ u ++ '/' :: '*' :: v :=
        fun u v heq => hclose (c :: u) v (congrArg (c :: ·) heq)
      rw [cons_append, cons_append, scanBlockStart] at h
      split_ifs at h with hopen hdepth hpair
      · rw [← some.inj h]
        exact ⟨x ++ ['*', '/'], by simp⟩
      · simp at hdepth
      · obtain ⟨rfl, rfl⟩ : d = '*' ∧ c = '/' := by simpa using hpair
        exact absurd rfl (hclose [] x)
      · exact ih hclose' hlast h

/-- A token behind the code of a statement: a line comment without the end of a block, a block
that does not start with `/*/`, or white space. -/
structure PlainToken (token : OracleToken) : Prop where
  removable : removableToken token
  word : ∃ rest, Word rest token.1 token.2
  slash : ¬ "/*/".toList <+: token.2
  line : "--".toList <+: token.2 → ¬ "*/".toList <:+: token.2

/-- What follows the code starts with white space or a comment. -/
lemma isStart_head_tokenText {T : List OracleToken} (hT : ∀ token ∈ T, PlainToken token) :
    ∀ d ∈ (tokenText T).head?, isWhitespace d ∨ d = '-' ∨ d = '/' := by
  cases T with
  | nil => simp [tokenText]
  | cons token T =>
    obtain ⟨kind, w⟩ := token
    have htoken := hT _ mem_cons_self
    obtain ⟨rest, hword⟩ := htoken.word
    have hremovable := htoken.removable
    dsimp only at hword
    cases hword with
    | space hc => rintro d ⟨⟩; exact .inl hc
    | code hc _ _ => simp [hc] at hremovable
    | quoted _ _ _ => exact absurd hremovable Bool.false_ne_true
    | line _ _ => rintro d ⟨⟩; exact .inr (.inl rfl)
    | block _ => rintro d ⟨⟩; exact .inr (.inr rfl)

/-- A start of a token that ends with `*/`. -/
lemma PlainToken.exists_block (h : PlainToken token)
    (htoken : y ++ v = token.2) (hclose : "*/".toList <:+ front ++ y)
    (hy : y ≠ []) (hv : v.head? ≠ some '*') :
    ∃ body, y = '/' :: '*' :: (body ++ "*/".toList) ∧ body.head? ≠ some '/' ∧
      ∀ u v, body ≠ u ++ ("*/".toList ++ v) := by
  obtain ⟨kind, w⟩ := token
  obtain ⟨rest, hword⟩ := h.word
  dsimp only at htoken hword
  obtain ⟨d, y, rfl⟩ := exists_cons_of_ne_nil hy
  -- the last character is a slash
  have hlast : (d :: y).getLast? = some '/' := by
    obtain ⟨x, hx⟩ := hclose
    have := congrArg getLast? hx
    rw [getLast?_append, getLast?_append] at this
    simpa using this.symm
  -- two characters of the token are the end of a block
  have hend : ∀ e z, d :: y = e :: z → z ≠ [] → "*/".toList <:+ d :: y := by
    intro e z heq hz
    refine suffix_of_suffix_length_le hclose (suffix_append _ _) ?_
    have := length_pos_iff.mpr hz
    rw [heq, length_cons]
    simp
    omega
  cases hword with
  | space hc =>
    obtain ⟨rfl, hnil⟩ := cons.inj htoken
    obtain ⟨rfl, -⟩ := append_eq_nil_iff.mp hnil
    obtain rfl : d = '/' := by simpa using hlast
    exact absurd hc (by decide)
  | code hc _ _ =>
    have := h.removable
    simp [hc] at this
  | quoted _ _ _ => exact absurd h.removable Bool.false_ne_true
  | line _ _ =>
    obtain ⟨rfl, htail⟩ := cons.inj htoken
    have hne : y ≠ [] := by
      rintro rfl
      exact absurd hlast (by decide)
    exact absurd ((hend _ y rfl hne).isInfix.trans ⟨[], v, htoken⟩) (h.line ⟨_, rfl⟩)
  | @block body hbody =>
    obtain ⟨rfl, htail⟩ := cons.inj htoken
    have hslash : ∀ z, body ≠ '/' :: z := by
      rintro z rfl
      exact h.slash ⟨z, rfl⟩
    cases y with
    | nil =>
      have heq : v = '*' :: body := htail
      exact absurd (by rw [heq]; rfl) hv
    | cons e y =>
      obtain ⟨rfl, heq⟩ := cons.inj htail
      have heq : y ++ v = body := heq
      have hlen : 2 ≤ y.length := by
        match y with
        | [] => exact absurd hlast (by decide)
        | [c] =>
          obtain rfl : c = '/' := by simpa using hlast
          exact absurd heq.symm (hslash v)
        | _ :: _ :: _ => simp
      obtain ⟨b, rfl⟩ : "*/".toList <:+ y := suffix_of_suffix_length_le
        (hend _ _ rfl (cons_ne_nil _ _)) (suffix_append ['/', '*'] y) hlen
      obtain rfl : v = [] := eq_nil_of_block hbody (by rw [← heq, append_assoc])
      refine ⟨b, rfl, fun hhead => ?_, ?_⟩
      · obtain ⟨b, rfl⟩ := head?_eq_some_iff.mp hhead
        exact hslash _ (by rw [← heq]; rfl)
      · rintro u v rfl
        have hnil := eq_nil_of_block hbody (u := u) (v := v ++ "*/".toList) (by rw [← heq]; simp)
        simp at hnil

/-- Where a text ends with `*/` behind the code, a block comment ends that started behind it. -/
lemma exists_block_of_end {T : List OracleToken}
    (hT : ∀ token ∈ T, PlainToken token) (htext : y ++ v = tokenText T)
    (hclose : "*/".toList <:+ front ++ y) (hy : y ≠ []) (hv : v.head? ≠ some '*') :
    ∃ pre body, y = pre ++ ('/' :: '*' :: (body ++ "*/".toList)) ∧ body.head? ≠ some '/' ∧
      ∀ u v, body ≠ u ++ ("*/".toList ++ v) := by
  induction T generalizing front y with
  | nil => exact absurd (append_eq_nil_iff.mp htext).1 hy
  | cons token T ih =>
    rw [forall_mem_cons] at hT
    obtain ⟨htoken, hT⟩ := hT
    change y ++ v = token.2 ++ tokenText T at htext
    obtain ⟨z, heq, rfl⟩ | ⟨z, rfl, hrest⟩ := append_eq_append_iff.mp htext
    · -- the text ends inside of the token
      have hz : z.head? ≠ some '*' := by
        cases z with
        | nil => simp
        | cons c z => exact hv
      exact ⟨[], htoken.exists_block heq.symm hclose hy hz⟩
    · by_cases hz : z = []
      · subst hz
        rw [append_nil] at hclose hy ⊢
        exact ⟨[], htoken.exists_block (append_nil _) hclose hy (by simp)⟩
      · rw [← append_assoc] at hclose
        obtain ⟨pre, body, rfl, hbody⟩ := ih hT hrest.symm hclose hz
        exact ⟨token.2 ++ pre, body, (append_assoc _ _ _).symm, hbody⟩

/-- The backward pass does not go past a block that ends a text. -/
lemma isPrefix_of_beforeTrailingBlock (hhead : body.head? ≠ some '/')
    (hbody : ∀ u v, body ≠ u ++ ("*/".toList ++ v))
    (h : beforeTrailingBlock (front ++ ('/' :: '*' :: (body ++ "*/".toList))) = some next) :
    front <+: next := by
  unfold beforeTrailingBlock at h
  split_ifs at h
  obtain ⟨before, hscan, rfl⟩ := map_eq_some_iff.mp h
  have hrev : (front ++ ('/' :: '*' :: (body ++ "*/".toList))).reverse
      = '/' :: '*' :: (body.reverse ++ '*' :: '/' :: front.reverse) := by simp
  rw [hrev, scanBlockStart, if_neg (by simp), if_pos (by simp)] at hscan
  rw [← reverse_suffix, reverse_reverse]
  refine suffix_of_scanBlockStart (fun u v hrev => hbody v.reverse u.reverse ?_) ?_ hscan
  · rw [← reverse_reverse body, hrev]
    simp
  · rwa [getLast?_reverse]

/-- What a round leaves of a text is followed by a line break or by the start of a block. -/
lemma beforeTrailingBlock_eq_some (h : beforeTrailingBlock text = some next) :
    "*/".toList <:+ text ∧ ∃ block, text = next ++ '/' :: '*' :: block := by
  unfold beforeTrailingBlock at h
  split_ifs at h with hclose
  rw [Bool.and_eq_true, isSuffixOf_iff_suffix] at hclose
  obtain ⟨before, hscan, rfl⟩ := map_eq_some_iff.mp h
  obtain ⟨block, hblock⟩ := scanBlockStart_eq_some hscan
  refine ⟨hclose.1, block.reverse, ?_⟩
  rw [← reverse_reverse text, hblock]
  simp

lemma lineCommentStarts_congr {a b : List Char} (h : trimStart a = trimStart b) :
    lineCommentStarts a = lineCommentStarts b := by
  rw [lineCommentStarts, lineCommentStarts, isSqlplusCommentLine, isSqlplusCommentLine,
    isMysqlHashCommentLine, isMysqlHashCommentLine, h]

/-- The last line of the code, with more of the text behind it, does not look like a comment if it
does not look like one itself. -/
lemma lineCommentStarts_of_line {l : List Char} (hl : l ≠ [])
    (hend : ∀ c ∈ l.getLast?, isWhitespace c = false)
    (hy : ∀ d ∈ y.head?, isWhitespace d ∨ d = '-' ∨ d = '/')
    (hdash : l.getLast? = some '-' → y.head? ≠ some '-')
    (h : lineCommentStarts (l ++ y) ∨ lineCommentStarts (trim (l ++ y))) :
    lineCommentStarts l := by
  obtain ⟨ws, hws, hsplit⟩ := exists_whitespace l
  have hne : trimStart l ≠ [] := by
    intro hnil
    rw [hnil, append_nil] at hsplit
    have hspace := hws (l.getLast hl) (by rw [← hsplit]; exact getLast_mem hl)
    simp [hend _ (getLast?_eq_some_getLast hl)] at hspace
  obtain ⟨c, z, htrim, hc⟩ := exists_trimStart_cons hne
  have hlast : l.getLast? = (c :: z).getLast? := by
    rw [hsplit, htrim, getLast?_append_of_ne_nil _ (cons_ne_nil c z)]
  have hpart : ∀ y', y' <+: y → lineCommentStarts (c :: z ++ y') → lineCommentStarts l := by
    rintro y' ⟨x, rfl⟩ hcomment
    have hhead : ∀ d ∈ y'.head?, d ∈ (y' ++ x).head? := by
      intro d hd
      rw [head?_append, mem_def.mp hd]
      rfl
    rw [lineCommentStarts_congr (htrim.trans (trimStart_cons_of_not hc z).symm)]
    refine lineCommentStarts_of_append hc (fun d hd => hy d (hhead d hd)) (fun hz hd => ?_) hcomment
    exact hdash (by rw [hlast, hz]; rfl) (hhead _ hd)
  have hline : trimStart (l ++ y) = c :: z ++ y := by
    conv_lhs => rw [hsplit, htrim, append_assoc, trimStart_whitespace hws, cons_append]
    exact trimStart_cons_of_not hc _
  obtain h | h := h
  · rw [lineCommentStarts_congr (hline.trans (trimStart_cons_of_not hc _).symm)] at h
    exact hpart y prefix_rfl h
  · have htrim' : trim (l ++ y) = trimEnd (c :: z ++ y) := congrArg trimEnd hline
    obtain ⟨y', hy'⟩ := isPrefix_trimEnd (a := c :: z) (hlast ▸ hend) (prefix_append _ y)
    rw [htrim', ← hy'] at h
    have hpre := trimEnd_isPrefix (c :: z ++ y)
    rw [← hy', prefix_append_right_inj] at hpre
    exact hpart y' hpre h

/-- A text that still has the statement, and is not cut behind a slash. -/
def KeepsCore (core text u : List Char) : Prop :=
  core <+: u ∧ ∃ v, u ++ v = text ∧ v.head? ≠ some '*'

section Round

variable {core : List Char} {T : List OracleToken}
  (hlast : lineCommentStarts (lastLine core) = false)
  (hclosed : ∀ c ∈ core.getLast?, isWhitespace c = false) (hblock : ¬ "*/".toList <:+ core)
  (hT : ∀ token ∈ T, PlainToken token)
  (hdash : core.getLast? = some '-' → (tokenText T).head? ≠ some '-')

include hlast hclosed hblock hT hdash

/-- A round of the backward pass leaves the statement in place. -/
lemma KeepsCore.round (hu : KeepsCore core (core ++ tokenText T) u)
    (h : stripTrailingRound u = some next) : KeepsCore core (core ++ tokenText T) next := by
  obtain ⟨hbegins, v, hv, hstar⟩ := hu
  obtain ⟨y, hy⟩ := isPrefix_trimEnd hclosed hbegins
  have hrest : y ++ (trailingWhitespace u ++ v) = tokenText T := by
    rw [← append_right_inj core, ← append_assoc, hy, ← append_assoc,
      trimEnd_append_trailingWhitespace, hv]
  have hstar' : (trailingWhitespace u ++ v).head? ≠ some '*' := by
    cases hspace : trailingWhitespace u with
    | nil => exact hstar
    | cons c ws =>
      have hc := isWhitespace_of_mem_trailingWhitespace c (hspace ▸ mem_cons_self)
      rintro ⟨⟩
      exact absurd hc (by decide)
  have hhead : ∀ d ∈ y.head?, d ∈ (tokenText T).head? := by
    intro d hd
    rw [← hrest, head?_append, mem_def.mp hd]
    rfl
  have hlines : ∀ l, l ≠ [] → l <:+ core →
      lineCommentStarts (l ++ y) ∨ lineCommentStarts (trim (l ++ y)) → lineCommentStarts l := by
    rintro l hl ⟨front, rfl⟩
    rw [getLast?_append_of_ne_nil _ hl] at hclosed hdash
    refine lineCommentStarts_of_line hl hclosed (fun d hd => ?_) fun hend hd => ?_
    · exact isStart_head_tokenText hT d (hhead d hd)
    · exact hdash hend (hhead _ hd)
  obtain ⟨line, hline, hmem, hcomment⟩ | ⟨hmem, hcomment, rfl⟩ | hfound :=
    stripTrailingRound_cases h
  · rw [← hy] at hline
    obtain ⟨z, rfl, rfl⟩ | ⟨z, hz, hy'⟩ := append_eq_append_iff.mp hline
    · refine ⟨prefix_append _ _, '\n' :: line ++ (trailingWhitespace u ++ v), ?_, by simp⟩
      rw [← hrest]
      simp
    · cases z with
      | nil =>
        rw [append_nil] at hz
        rw [nil_append] at hy'
        refine ⟨hz ▸ prefix_rfl, y ++ (trailingWhitespace u ++ v), by rw [hrest, hz], ?_⟩
        rw [← hy']
        simp
      | cons d l =>
        -- the line that is cut off is the last line of the statement
        obtain ⟨rfl, rfl⟩ := cons.inj hy'
        have hl : l ≠ [] := by
          rintro rfl
          exact absurd (hclosed '\n' (by rw [hz]; simp)) (by decide)
        have hstarts := hlines l hl ⟨next ++ ['\n'], by rw [hz]; simp⟩ (.inr hcomment)
        rw [hz, lastLine_append (fun hl => hmem (mem_append_left y hl)), hstarts] at hlast
        exact absurd hlast (by simp)
  · by_cases hcore : core = []
    · refine ⟨hcore ▸ prefix_rfl, tokenText T, by rw [hcore], fun hhead => ?_⟩
      exact absurd (isStart_head_tokenText hT '*' hhead) (by decide)
    rw [← hy] at hmem hcomment
    have hstarts := hlines core hcore suffix_rfl (.inl hcomment)
    rw [lastLine_of_notMem (fun hin => hmem (mem_append_left y hin)), hstarts] at hlast
    exact absurd hlast (by simp)
  · obtain ⟨hclose, block, hnext⟩ := beforeTrailingBlock_eq_some hfound
    rw [← hy] at hclose hfound hnext
    have hyne : y ≠ [] := by
      rintro rfl
      exact hblock (by rwa [append_nil] at hclose)
    obtain ⟨pre, body, rfl, hslash, hbody⟩ := exists_block_of_end hT hrest hclose hyne hstar'
    rw [← append_assoc] at hfound
    refine ⟨(prefix_append _ _).trans (isPrefix_of_beforeTrailingBlock hslash hbody hfound), ?_⟩
    refine ⟨'/' :: '*' :: block ++ (trailingWhitespace u ++ v), ?_, by simp⟩
    rw [← hrest, ← append_assoc next, ← append_assoc core, ← hnext]

end Round

/-! ### Both passes -/

section

variable [UnicodeClasses] (s : List Char)

/-- A character that may be removed from around a statement: one of a comment, or white space
in code. -/
def removable (mark : Char × TextKind) : Bool :=
  match mark.2 with
  | .comment => true
  | .code => isWhitespace mark.1
  | .quoted => false

omit [UnicodeClasses] in
/-- The characters of tokens, each with the kind of its token. -/
lemma map_fst_marks (tokens : List OracleToken) :
    (tokens.flatMap fun token => token.2.map (·, token.1)).map Prod.fst = tokenText tokens := by
  simp [tokenText, flatMap_def, map_flatten, Function.comp_def]

end

end SpaceQuery.Script
