import SpaceQuery.Session.AssignmentPieces

/-!
What `mysql_autocommit_assignment_values` gives for a statement.
-/

namespace SpaceQuery.SetAssignments

open List RustText SqlText Script Classify Utf8 Lexing

open Option hiding all all_eq_true

/-- A text of white space. -/
def Blank (ws : List Char) : Prop := ∀ c ∈ ws, isWhitespace c = true

/-! ### Parentheses around a value -/

variable {c : Char} {current : List Char}

/-- A text between two characters. -/
lemma exists_between {d : Char} (hhead : current.head? = some c)
    (hlast : current.getLast? = some d) (hne : current ≠ [c]) :
    ∃ inner, current = c :: (inner ++ [d]) := by
  cases current with
  | nil => simp at hhead
  | cons x rest =>
    cases hhead
    rcases eq_nil_or_concat rest with rfl | ⟨inner, y, rfl⟩
    · exact absurd rfl hne
    · rw [concat_eq_append, ← cons_append, getLast?_concat, some.injEq] at hlast
      exact ⟨inner, by rw [hlast, concat_eq_append]⟩

/-- The slice between two ASCII characters. -/
lemma getBytes_between {d : Char} (hc : c.toNat < 128) (hd : d.toNat < 128) (inner : List Char) :
    getBytes (c :: (inner ++ [d])) 1 (byteLen (c :: (inner ++ [d])) - 1) = some inner := by
  have hone : ∀ {x : Char}, x.toNat < 128 → byteLen [x] = 1 := by
    intro x hx
    rw [byteLen_cons, ← String.length_utf8EncodeChar, Utf8.utf8EncodeChar_ascii hx]
    rfl
  have hlen : byteLen (c :: (inner ++ [d])) - 1 = byteLen [c] + byteLen inner := by
    rw [← singleton_append, byteLen_append, byteLen_append, hone hd]
    omega
  rw [hlen, ← getBytes_append [c] inner [d], hone hc]
  rfl

/-- A round strips two parentheses. -/
lemma exists_of_stripWrappingRound {pieces : List Char → Pieces}
    {finish : List Char → List Char} {stripped : Option (List Char)}
    (h : stripWrappingRound pieces finish current = some stripped) :
    ∃ inner, current = '(' :: (inner ++ [')']) ∧ stripped = some (finish inner) ∧
      wrapsEntireValue 0 (pieces current) := by
  unfold stripWrappingRound at h
  split_ifs at h with hends hwraps
  simp only [Bool.or_eq_true, decide_eq_true_eq, not_or, not_lt, ne_eq, not_not] at hends
  obtain ⟨⟨-, hhead⟩, hlast⟩ := hends
  obtain ⟨inner, rfl⟩ := exists_between hhead hlast (by rintro rfl; exact absurd hlast (by decide))
  refine ⟨inner, rfl, ?_, by simpa using hwraps⟩
  rw [← some.inj h, getBytes_between (by decide) (by decide)]
  rfl

/-- Stripping parentheses cuts between characters. -/
lemma exists_stripWrappingLoop (pieces : List Char → Pieces)
    (finish : List Char → List Char) (fuel : ℕ) (current : List Char) :
    ∃ result, stripWrappingLoop pieces finish fuel current = some result := by
  induction fuel generalizing current with
  | zero => exact ⟨current, rfl⟩
  | succ fuel ih =>
    rw [stripWrappingLoop]
    cases hround : stripWrappingRound pieces finish current with
    | none => exact ⟨current, rfl⟩
    | some stripped =>
      obtain ⟨inner, -, rfl, -⟩ := exists_of_stripWrappingRound hround
      exact ih (finish inner)

/-! ### A quote in parentheses -/

/-- White space is passed. -/
lemma wrapsEntireValue_blank {ws : List Char} (hws : Blank ws) (depth : ℕ) (more : Pieces) :
    wrapsEntireValue depth ((ws.map fun c => (.code, [c])) ++ more)
      = wrapsEntireValue depth more := by
  induction ws with
  | nil => rfl
  | cons c ws ih =>
    have hc := hws c mem_cons_self
    have hopen : c ≠ '(' := by rintro rfl; exact absurd hc (by decide)
    have hclose : c ≠ ')' := by rintro rfl; exact absurd hc (by decide)
    have hdepth : depthAfter depth (.code, [c]) = depth := by simp [depthAfter, hopen, hclose]
    rw [map_cons, cons_append, wrapsEntireValue, hdepth, if_neg (by simp [hclose]),
      ih fun d hd => hws d (mem_cons_of_mem c hd)]

variable {text : List Char}

lemma quotedLength_of_notMem {quote : Char} (hquote : quote ∉ text)
    (hslash : '\\' ∉ text) : quotedLength true quote text = text.length := by
  induction text with
  | nil => rfl
  | cons c text ih =>
    rw [mem_cons, not_or] at hquote hslash
    cases text with
    | nil => rfl
    | cons d text =>
      rw [quotedLength, if_neg (by simpa using Ne.symm hslash.1), if_neg (Ne.symm hquote.1),
        ih hquote.2 hslash.2, length_cons, length_cons, length_cons, add_comm]

lemma pieces_blank {ws : List Char} (hws : Blank ws) (rest : List Char) :
    pieces (ws ++ rest) = (ws.map fun c => (.code, [c])) ++ pieces rest := by
  induction ws with
  | nil => rfl
  | cons c ws ih =>
    have hc : isMysqlQuote c = false := by
      have hspace := hws c mem_cons_self
      rw [Bool.eq_false_iff]
      intro hquote
      rcases isMysqlQuote_iff.mp hquote with rfl | rfl | rfl <;> exact absurd hspace (by decide)
    rw [cons_append, pieces_code hc, ih fun d hd => hws d (mem_cons_of_mem c hd)]
    rfl

variable {q : Char}

/-- A quote that is not closed takes the closing parenthesis with it. -/
lemma wrapsEntireValue_quote (hq : isMysqlQuote q) {before after : List Char}
    (hbefore : Blank before) (hafter : Blank after) :
    wrapsEntireValue 0 (pieces ('(' :: (before ++ q :: (after ++ [')'])))) = false := by
  have hrest : ∀ c ∈ after ++ [')'], c ≠ q ∧ c ≠ '\\' := by
    intro c hc
    rw [mem_append, mem_singleton] at hc
    rcases hc with hc | rfl
    · have hspace := hafter c hc
      constructor
      · rintro rfl
        rcases isMysqlQuote_iff.mp hq with rfl | rfl | rfl <;> exact absurd hspace (by decide)
      · rintro rfl
        exact absurd hspace (by decide)
    · constructor
      · rintro rfl
        exact absurd hq (by decide)
      · decide
  have hlen : quotedLength true q (after ++ [')']) = (after ++ [')']).length :=
    quotedLength_of_notMem (fun h => (hrest q h).1 rfl) (fun h => (hrest _ h).2 rfl)
  rw [pieces_code (by decide), pieces_blank hbefore, pieces_quote hq, hlen, drop_length,
    wrapsEntireValue, wrapsEntireValue_blank hbefore]
  rfl

/-- The characters around the trimmed text. -/
lemma exists_of_trim_singleton (h : trim text = [q]) :
    ∃ before after, text = before ++ q :: after ∧ Blank before ∧ Blank after := by
  obtain ⟨before, hbefore, htext⟩ := exists_whitespace text
  have hne := trimStart_ne_nil (s := text) (by simp [h])
  have hsplit := trim_append_trailingWhitespace hne
  rw [h, singleton_append] at hsplit
  exact ⟨before, trailingWhitespace text, by rw [hsplit]; exact htext, hbefore,
    isWhitespace_of_mem_trailingWhitespace⟩

/-- A quote is stripped of no parentheses. -/
lemma eq_of_stripWrappingLoop_quote (hq : isMysqlQuote q) {fuel : ℕ}
    (h : stripWrappingLoop (pieces) trim fuel current = some [q]) : current = [q] := by
  induction fuel generalizing current with
  | zero => exact some.inj h
  | succ fuel ih =>
    rw [stripWrappingLoop] at h
    cases hround : stripWrappingRound (pieces) trim current with
    | none =>
      rw [hround] at h
      exact some.inj h
    | some stripped =>
      rw [hround] at h
      obtain ⟨inner, rfl, rfl, hwraps⟩ := exists_of_stripWrappingRound hround
      obtain ⟨before, after, rfl, hbefore, hafter⟩ := exists_of_trim_singleton (ih h)
      rw [append_assoc, cons_append, wrapsEntireValue_quote hq hbefore hafter] at hwraps
      exact absurd hwraps Bool.false_ne_true

/-- The stripped text is trimmed. -/
lemma trim_stripWrappingLoop {pieces : List Char → Pieces} {fuel : ℕ}
    {result : List Char} (hcur : trim current = current)
    (h : stripWrappingLoop pieces trim fuel current = some result) : trim result = result := by
  induction fuel generalizing current with
  | zero =>
    cases h
    exact hcur
  | succ fuel ih =>
    rw [stripWrappingLoop] at h
    cases hround : stripWrappingRound pieces trim current with
    | none =>
      rw [hround] at h
      cases h
      exact hcur
    | some stripped =>
      rw [hround] at h
      obtain ⟨inner, -, rfl, -⟩ := exists_of_stripWrappingRound hround
      exact ih (trim_trim inner) h

/-! ### Values that are a quote character -/

/-- A single quote character that is taken for a literal. -/
def IsLiteralQuote (q : Char) : Prop := q = '\'' ∨ q = '"'

variable {value : List Char}

/-- **The literal that is cut out of range** is the one that is a quote character alone. -/
lemma mysqlUnquoteSimpleStringLiteral_eq_none_iff :
    mysqlUnquoteSimpleStringLiteral value = none ↔ ∃ q, IsLiteralQuote q ∧ value = [q] := by
  unfold mysqlUnquoteSimpleStringLiteral
  constructor
  · intro h
    cases hhead : value.head? with
    | none => simp [hhead] at h
    | some quote =>
      simp only [hhead] at h
      split_ifs at h with hquote hlast
      have hliteral : IsLiteralQuote quote := by
        by_contra hnot
        exact hquote (by simpa [IsLiteralQuote, not_or] using hnot)
      have hascii : quote.toNat < 128 := by rcases hliteral with rfl | rfl <;> decide
      refine ⟨quote, hliteral, ?_⟩
      by_contra hne
      obtain ⟨inner, rfl⟩ := exists_between hhead (not_not.mp hlast) hne
      rw [getBytes_between hascii hascii] at h
      simp at h
  · rintro ⟨q, rfl | rfl, rfl⟩ <;> decide

/-- The value is a quote character and nothing but semicolons and white space. -/
def isLoneQuote (value : List Char) : Bool :=
  match trimStart value with
  | [] => false
  | q :: rest => (q = '\'' || q = '"') && rest.all fun c => isWhitespace c || c = ';'

/-- What the loop over semicolons removes. -/
def IsTail (tail : List Char) : Prop := ∀ c ∈ tail, isWhitespace c = true ∨ c = ';'

lemma exists_tail_of_stripSemicolon {next : List Char} (h : stripSemicolon text = some next) :
    ∃ tail, text = next ++ tail ∧ IsTail tail ∧ trimEnd next = next := by
  unfold stripSemicolon at h
  split_ifs at h with hlast
  cases h
  have hne : text ≠ [] := by
    rintro rfl
    simp at hlast
  have hsplit : text = text.dropLast ++ [';'] := by
    rw [getLast?_eq_some_getLast hne, some.injEq] at hlast
    rw [← hlast, dropLast_concat_getLast]
  refine ⟨trailingWhitespace text.dropLast ++ [';'], ?_, ?_, ?_⟩
  · rw [← append_assoc, trimEnd_append_trailingWhitespace]
    exact hsplit
  · intro c hc
    rw [mem_append, mem_singleton] at hc
    rcases hc with hc | hc
    · exact .inl (isWhitespace_of_mem_trailingWhitespace c hc)
    · exact .inr hc
  · simp [trimEnd, dropWhile_idempotent]

open Loops

/-- The text in front of the semicolons. -/
lemma iterate_stripSemicolon_spec (fuel : ℕ) (htext : trimEnd text = text)
    (hfuel : text.length ≤ fuel) :
    (∃ tail, text = iterate stripSemicolon fuel text ++ tail ∧ IsTail tail) ∧
      trimEnd (iterate stripSemicolon fuel text) = iterate stripSemicolon fuel text ∧
      (iterate stripSemicolon fuel text).getLast? ≠ some ';' := by
  have hinv : (∃ tail, text = iterate stripSemicolon fuel text ++ tail ∧ IsTail tail) ∧
      trimEnd (iterate stripSemicolon fuel text) = iterate stripSemicolon fuel text := by
    refine iterate_invariant
      (I := fun s => (∃ tail, text = s ++ tail ∧ IsTail tail) ∧ trimEnd s = s)
      (fun s next hs hnext => ?_) fuel ⟨⟨[], by simp, by simp [IsTail]⟩, htext⟩
    obtain ⟨⟨tail, hsplit, htail⟩, -⟩ := hs
    obtain ⟨tail', rfl, htail', htrim⟩ := exists_tail_of_stripSemicolon hnext
    refine ⟨⟨tail' ++ tail, by rw [hsplit, append_assoc], fun c hc => ?_⟩, htrim⟩
    exact (mem_append.mp hc).elim (htail' c) (htail c)
  have hdone : stripSemicolon (iterate stripSemicolon fuel text) = none := by
    refine @Loops.step_iterate _ stripSemicolon length (fun s next hnext => ?_) _ _ hfuel
    unfold stripSemicolon at hnext
    split_ifs at hnext with hlast
    cases hnext
    have hlt : s.dropLast.length < s.length := by
      cases s with
      | nil => simp at hlast
      | cons c s => simp
    have hle : (trimEnd s.dropLast).length ≤ s.dropLast.length := by
      conv_rhs => rw [← trimEnd_append_trailingWhitespace s.dropLast, length_append]
      omega
    omega
  refine ⟨hinv.1, hinv.2, fun hlast => ?_⟩
  rw [stripSemicolon, if_pos hlast] at hdone
  exact absurd hdone (by simp)

/-- A trimmed text ends with no white space. -/
lemma not_isWhitespace_of_trimEnd (h : trimEnd text = text)
    (hc : text.getLast? = some c) : isWhitespace c = false := by
  have hsplit := trimEnd_append_trailingWhitespace text
  rw [h] at hsplit
  by_contra hspace
  rw [Bool.not_eq_false] at hspace
  obtain ⟨front, rfl⟩ := getLast?_eq_some_iff.mp hc
  rw [trailingWhitespace, reverse_concat, takeWhile_cons_of_pos hspace] at hsplit
  simp at hsplit

/-- The value that is left in front of its semicolons. -/
def withoutSemicolons (value : List Char) : List Char :=
  iterate stripSemicolon value.length (trim value)

lemma trim_length_le (value : List Char) : (trim value).length ≤ value.length := by
  have hstart : (trimStart value).length ≤ value.length := (dropWhile_suffix _).length_le
  have hend : (trimEnd (trimStart value)).length ≤ (trimStart value).length := by
    conv_rhs => rw [← trimEnd_append_trailingWhitespace (trimStart value), length_append]
    omega
  exact hend.trans hstart

lemma withoutSemicolons_spec (value : List Char) :
    (∃ tail, trim value = withoutSemicolons value ++ tail ∧ IsTail tail) ∧
      trimEnd (withoutSemicolons value) = withoutSemicolons value ∧
      (withoutSemicolons value).getLast? ≠ some ';' :=
  iterate_stripSemicolon_spec _ (by simp [trim, trimEnd, dropWhile_idempotent])
    (trim_length_le value)

/-- It is trimmed. -/
lemma trim_withoutSemicolons (value : List Char) :
    trim (withoutSemicolons value) = withoutSemicolons value := by
  obtain ⟨⟨tail, hsplit, -⟩, hend, -⟩ := withoutSemicolons_spec value
  cases hx : withoutSemicolons value with
  | nil => rfl
  | cons c rest =>
    have hne := trimStart_ne_nil (s := value) (by simp [hsplit, hx])
    obtain ⟨d, more, hmore, hd⟩ := exists_trimStart_cons hne
    have hfirst := trim_append_trailingWhitespace hne
    rw [hsplit, hx, hmore] at hfirst
    rw [hx] at hend
    rw [trim, dropWhile_cons_of_neg (by rw [(cons.inj hfirst).1]; simp [hd]), hend]

/-- The values that end up as a quote character alone. -/
lemma withoutSemicolons_eq_quote_iff :
    (∃ q, IsLiteralQuote q ∧ withoutSemicolons value = [q]) ↔ isLoneQuote value := by
  obtain ⟨⟨tail, hsplit, htail⟩, hend, hlast⟩ := withoutSemicolons_spec value
  constructor
  · rintro ⟨q, hq, hx⟩
    have hne := trimStart_ne_nil (s := value) (by simp [hsplit, hx])
    have hstart := trim_append_trailingWhitespace hne
    rw [hsplit, hx, append_assoc, singleton_append] at hstart
    rw [isLoneQuote, ← hstart]
    simp only [Bool.and_eq_true, Bool.or_eq_true, decide_eq_true_eq, all_eq_true]
    refine ⟨hq, fun c hc => ?_⟩
    rcases mem_append.mp hc with hc | hc
    · exact htail c hc
    · exact .inl (isWhitespace_of_mem_trailingWhitespace c hc)
  · intro h
    unfold isLoneQuote at h
    cases hstart : trimStart value with
    | nil => simp [hstart] at h
    | cons q rest =>
      rw [hstart] at h
      simp only [Bool.and_eq_true, Bool.or_eq_true, decide_eq_true_eq, all_eq_true] at h
      obtain ⟨hq, hrest⟩ := h
      refine ⟨q, hq, ?_⟩
      have hall := trim_append_trailingWhitespace (s := value) (by simp [hstart])
      rw [hsplit, hstart] at hall
      cases hx : withoutSemicolons value with
      | nil =>
        -- nothing is left: the quote would have been stripped
        have hne : trim value ≠ [] := trim_ne_nil (by simp [hstart])
        rw [hx] at hsplit hall
        obtain ⟨c, tail, rfl⟩ := exists_cons_of_ne_nil (hsplit ▸ hne)
        obtain rfl := (cons.inj hall).1
        rcases htail c mem_cons_self with hspace | hsemi
        · rcases hq with rfl | rfl <;> exact absurd hspace (by decide)
        · rcases hq with rfl | rfl <;> exact absurd hsemi (by decide)
      | cons c more =>
        rw [hx] at hall
        obtain ⟨rfl, hmore⟩ := cons.inj hall
        rcases eq_nil_or_concat more with rfl | ⟨front, d, rfl⟩
        · rfl
        · -- the last character is white space or a semicolon
          rw [hx, concat_eq_append, ← cons_append] at hend hlast
          rw [getLast?_concat, ne_eq, some.injEq] at hlast
          have hspace := not_isWhitespace_of_trimEnd hend getLast?_concat
          have hd := hrest d (by rw [← hmore]; simp)
          simp [hspace, hlast] at hd

/-- **The values that panic** are a quote character with nothing but semicolons and white space
around it. -/
lemma mysqlNormalizedSetAssignmentValue_eq_none_iff :
    mysqlNormalizedSetAssignmentValue value = none ↔ isLoneQuote value := by
  rw [← withoutSemicolons_eq_quote_iff]
  change ((mysqlStripWrappingParenthesesFromValue (withoutSemicolons value)).bind _) = none ↔ _
  have hquote : ∀ {q}, IsLiteralQuote q → isMysqlQuote q := by
    rintro q (rfl | rfl) <;> rfl
  unfold mysqlStripWrappingParenthesesFromValue
  rw [trim_withoutSemicolons]
  obtain ⟨stripped, hstripped⟩ := exists_stripWrappingLoop (pieces) trim
    (withoutSemicolons value).length (withoutSemicolons value)
  have htrim := trim_stripWrappingLoop (trim_withoutSemicolons value) hstripped
  rw [hstripped, bind_some, htrim]
  constructor
  · intro h
    cases hunquoted : mysqlUnquoteSimpleStringLiteral stripped with
    | none =>
      obtain ⟨q, hq, rfl⟩ := mysqlUnquoteSimpleStringLiteral_eq_none_iff.mp hunquoted
      exact ⟨q, hq, eq_of_stripWrappingLoop_quote (hquote hq) hstripped⟩
    | some unquoted =>
      rw [hunquoted] at h
      cases unquoted with
      | some text => simp at h
      | none =>
        obtain ⟨result, hres⟩ := exists_stripWrappingLoop (·.map fun c => (.code, [c])) id
          ((stripped.map Char.toUpper).filter (!isWhitespace ·)).length
          ((stripped.map Char.toUpper).filter (!isWhitespace ·))
        rw [mysqlStripWrappingParenthesesFromCompactValue, hres] at h
        simp at h
  · rintro ⟨q, hq, hx⟩
    have hone : stripped = [q] := by
      rw [hx] at hstripped
      rcases hq with rfl | rfl
      · exact (some.inj hstripped).symm
      · exact (some.inj hstripped).symm
    rw [mysqlUnquoteSimpleStringLiteral_eq_none_iff.mpr ⟨q, hq, hone⟩]
    rfl

/-! ### The values of the session's variable -/

def autocommit : List Char := "AUTOCOMMIT".toList

def backquotedAutocommit : List Char := '\x60' :: autocommit ++ ['\x60']

/-- The normalized texts of the targets that name a variable of the session: its name, alone or
behind `SESSION` or `LOCAL`, or behind `@@` with or without such a scope. -/
def sessionForms (name : List Char) : List (List Char) :=
  [name, "SESSION ".toList ++ name, "LOCAL ".toList ++ name, "@@".toList ++ name,
    "@@SESSION.".toList ++ name, "@@LOCAL.".toList ++ name]

/-- A text is found behind a start of the target, or in another way. -/
lemma eq_append_of_getD_or {front target name : List Char} {x : Option (List Char)}
    (h : ((stripPrefix front target).or x).getD target = name) :
    target = front ++ name ∨ x.getD target = name := by
  cases hstrip : stripPrefix front target with
  | none =>
    rw [hstrip] at h
    exact .inr h
  | some rest =>
    rw [hstrip] at h
    rw [← h]
    exact .inl (stripPrefix_eq_some hstrip)

/-- The texts that are scoped to the session with a name. -/
lemma mysqlSessionScopedTarget_eq_iff {target : List Char} :
    mysqlSessionScopedTarget target = some autocommit ↔ target ∈ sessionForms autocommit := by
  constructor
  · intro h
    unfold mysqlSessionScopedTarget at h
    split_ifs at h
    simp only [Option.some.injEq, Option.or_assoc] at h
    simp only [sessionForms, mem_cons, not_mem_nil, or_false]
    rcases eq_append_of_getD_or h with hform | h
    · exact .inr (.inl hform)
    rcases eq_append_of_getD_or h with hform | h
    · exact .inr (.inr (.inl hform))
    rcases eq_append_of_getD_or h with hform | h
    · exact .inr (.inr (.inr (.inr (.inl hform))))
    rcases eq_append_of_getD_or h with hform | h
    · exact .inr (.inr (.inr (.inr (.inr hform))))
    rw [← Option.or_none (o := stripPrefix "@@".toList target)] at h
    rcases eq_append_of_getD_or h with hform | h
    · exact .inr (.inr (.inr (.inl hform)))
    · exact .inl h
  · intro h
    simp only [sessionForms, mem_cons, not_mem_nil, or_false] at h
    rcases h with rfl | rfl | rfl | rfl | rfl | rfl <;> decide

section

variable [UnicodeUppercase]

/-- A target that names a variable of the session, in whatever case and with whatever white
space. -/
def SessionTarget (name target : List Char) : Prop :=
  mysqlNormalizedSetAssignmentTarget target ∈ sessionForms name

instance (name target : List Char) : Decidable (SessionTarget name target) :=
  inferInstanceAs (Decidable (_ ∈ _))

/-- The value that an assignment gives to `AUTOCOMMIT` of the session, as it is written; the name
may be in backticks. -/
def sessionAutocommitValue (assignment : List Char) : Option (List Char) :=
  (splitAssignment 0 (pieces assignment)).bind fun (target, value) =>
    if SessionTarget autocommit target ∨ SessionTarget backquotedAutocommit target then some value
    else none

variable (sql : List Char)

/-- The assignments of a `SET` statement. -/
def setAssignments : List (List Char) :=
  match mysqlSetAssignmentsBody (mysqlStatementWithoutComments sql) with
  | none => []
  | some body => topLevelParts 0 (pieces body)

def sessionAutocommitValues : List (List Char) :=
  (setAssignments sql).filterMap sessionAutocommitValue

/-- The function returns, and with the normalized values. -/
def ReturnsValues : Prop :=
  ∃ values, mysqlAutocommitAssignmentValues sql = some values ∧
    values.map some = (sessionAutocommitValues sql).map mysqlNormalizedSetAssignmentValue

/-- An assignment to `AUTOCOMMIT` of the session has a value that is more than a quote, and no
backticks around the name. -/
def Plain (assignment : List Char) : Prop :=
  ∀ target value, splitAssignment 0 (pieces assignment) = some (target, value) →
    (SessionTarget autocommit target → isLoneQuote value = false) ∧
      ¬ SessionTarget backquotedAutocommit target

/-! ### One assignment -/

variable {target : List Char}

lemma scoped_iff_sessionTarget :
    mysqlSessionScopedTarget (mysqlNormalizedSetAssignmentTarget target) = some autocommit ↔
      SessionTarget autocommit target :=
  mysqlSessionScopedTarget_eq_iff

/-- A name is in backticks or it is not. -/
lemma not_backquoted_of_sessionTarget (h : SessionTarget autocommit target) :
    ¬ SessionTarget backquotedAutocommit target := by
  intro hquoted
  have hdisjoint : ∀ form ∈ sessionForms autocommit,
      form ∉ sessionForms backquotedAutocommit := by decide
  exact hdisjoint _ h hquoted

variable {assignment : List Char}

lemma autocommitValue_of_none (h : splitAssignment 0 (pieces assignment) = none) :
    autocommitValue assignment = some none := by
  rw [autocommitValue, mysqlSessionScopedAssignmentParts, mysqlSetAssignmentTargetAndValue_eq, h]
  rfl

section

variable (h : splitAssignment 0 (pieces assignment) = some (target, value))

include h

/-- The parts of an assignment with an operator. -/
lemma mysqlSessionScopedAssignmentParts_eq : mysqlSessionScopedAssignmentParts assignment
      = some ((mysqlSessionScopedTarget (mysqlNormalizedSetAssignmentTarget target)).map
        (·, value)) := by
  rw [mysqlSessionScopedAssignmentParts, mysqlSetAssignmentTargetAndValue_eq, h]
  rfl

lemma autocommitValue_of_target (htarget : SessionTarget autocommit target) :
    autocommitValue assignment = (mysqlNormalizedSetAssignmentValue value).map some := by
  rw [autocommitValue, mysqlSessionScopedAssignmentParts_eq h, scoped_iff_sessionTarget.mpr htarget,
    bind_some]
  exact if_pos rfl

lemma autocommitValue_of_not_target
    (htarget : ¬ SessionTarget autocommit target) : autocommitValue assignment = some none := by
  rw [autocommitValue, mysqlSessionScopedAssignmentParts_eq h]
  cases hscoped : mysqlSessionScopedTarget (mysqlNormalizedSetAssignmentTarget target) with
  | none => rfl
  | some name =>
    refine if_neg fun hname => htarget (scoped_iff_sessionTarget.mp ?_)
    rw [hscoped]
    exact congrArg some hname

end

/-- A plain assignment gives its value. -/
lemma Plain.autocommitValue (h : Plain assignment) :
    ∃ result, autocommitValue assignment = some result ∧ result.map some
        = (sessionAutocommitValue assignment).map mysqlNormalizedSetAssignmentValue := by
  unfold sessionAutocommitValue
  cases hsplit : splitAssignment 0 (pieces assignment) with
  | none => exact ⟨none, autocommitValue_of_none hsplit, rfl⟩
  | some parts =>
    obtain ⟨target, value⟩ := parts
    obtain ⟨hlone, hquoted⟩ := h target value hsplit
    rw [bind_some]
    dsimp only
    by_cases htarget : SessionTarget autocommit target
    · cases hval : mysqlNormalizedSetAssignmentValue value with
      | none =>
        rw [mysqlNormalizedSetAssignmentValue_eq_none_iff, hlone htarget] at hval
        exact absurd hval Bool.false_ne_true
      | some normalized =>
        refine ⟨some normalized, ?_, ?_⟩
        · rw [autocommitValue_of_target hsplit htarget, hval]
          rfl
        · rw [if_pos (.inl htarget), map_some, map_some, hval]
    · refine ⟨none, autocommitValue_of_not_target hsplit htarget, ?_⟩
      rw [if_neg (not_or.mpr ⟨htarget, hquoted⟩)]
      rfl

/-- No assignment gives more than its value, and one that gives as much is plain. -/
lemma plain_of_autocommitValue {result : Option (List Char)}
    (h : autocommitValue assignment = some result) :
    result.toList.length ≤ (sessionAutocommitValue assignment).toList.length ∧
      (result.toList.length = (sessionAutocommitValue assignment).toList.length →
        Plain assignment) := by
  unfold sessionAutocommitValue Plain
  cases hsplit : splitAssignment 0 (pieces assignment) with
  | none =>
    obtain rfl : none = result := by
      rwa [autocommitValue_of_none hsplit, some.injEq] at h
    simp
  | some parts =>
    obtain ⟨target, value⟩ := parts
    simp only [some.injEq, Prod.mk.injEq, bind_some, and_imp]
    by_cases htarget : SessionTarget autocommit target
    · rw [autocommitValue_of_target hsplit htarget, map_eq_some_iff] at h
      obtain ⟨normalized, hval, rfl⟩ := h
      refine ⟨by simp [htarget], ?_⟩
      rintro - target' value' rfl rfl
      refine ⟨fun _ => ?_, not_backquoted_of_sessionTarget htarget⟩
      rw [Bool.eq_false_iff, ne_eq, ← mysqlNormalizedSetAssignmentValue_eq_none_iff, hval]
      exact some_ne_none normalized
    · obtain rfl : none = result := by
        rwa [autocommitValue_of_not_target hsplit htarget, some.injEq] at h
      by_cases hquoted : SessionTarget backquotedAutocommit target
      · simp [hquoted]
      · refine ⟨by simp, ?_⟩
        rintro - target' value' rfl rfl
        exact ⟨fun hplain => absurd hplain htarget, hquoted⟩

/-! ### All assignments -/

lemma exists_mapM_of_plain {assignments : List (List Char)} (h : ∀ a ∈ assignments, Plain a) :
    ∃ results, assignments.mapM autocommitValue = some results ∧ (results.filterMap id).map some
        = (assignments.filterMap sessionAutocommitValue).map mysqlNormalizedSetAssignmentValue := by
  induction assignments with
  | nil => exact ⟨[], rfl, rfl⟩
  | cons a assignments ih =>
    rw [forall_mem_cons] at h
    obtain ⟨result, hres, hval⟩ := h.1.autocommitValue
    obtain ⟨results, hresults, hvals⟩ := ih h.2
    refine ⟨result :: results, by simp [hres, hresults], ?_⟩
    cases hsession : sessionAutocommitValue a with
    | none =>
      obtain rfl : result = none := by simpa [hsession] using hval
      rw [filterMap_cons_none rfl, filterMap_cons_none hsession, hvals]
    | some value =>
      cases result with
      | none => simp [hsession] at hval
      | some normalized =>
        rw [hsession, map_some, map_some, some.injEq] at hval
        rw [filterMap_cons_some (f := id) rfl, filterMap_cons_some hsession, map_cons,
          map_cons, hvals, hval]

lemma plain_of_mapM {assignments : List (List Char)} {results : List (Option (List Char))}
    (h : assignments.mapM autocommitValue = some results) :
    (results.filterMap id).length ≤ (assignments.filterMap sessionAutocommitValue).length ∧
      ((results.filterMap id).length = (assignments.filterMap sessionAutocommitValue).length →
        ∀ a ∈ assignments, Plain a) := by
  induction assignments generalizing results with
  | nil =>
    obtain rfl : results = [] := by simpa using h.symm
    simp
  | cons a assignments ih =>
    obtain ⟨result, hres, results, hresults, rfl⟩ : ∃ result,
        autocommitValue a = some result ∧ ∃ rest, assignments.mapM autocommitValue = some rest ∧
          result :: rest = results := by
      simpa [bind_eq_some_iff] using h
    obtain ⟨hle, hplain⟩ := plain_of_autocommitValue hres
    obtain ⟨hrest, hrests⟩ := ih hresults
    have hcons : ∀ {α β : Type} (f : α → Option β) (x : α) (l : List α),
        ((x :: l).filterMap f).length = (f x).toList.length + (l.filterMap f).length := by
      intro α β f x l
      cases hx : f x with
      | none => simp [hx]
      | some y =>
        simp [hx]
        omega
    rw [hcons, hcons]
    refine ⟨add_le_add hle hrest, fun heq => ?_⟩
    change result.toList.length + _ = _ at heq
    exact forall_mem_cons.mpr ⟨hplain (by omega), hrests (by omega)⟩

/-- **The values that a `SET` statement assigns**: the function returns the normalized values of
the assignments to `AUTOCOMMIT` of the session, in order, exactly when no such value is a quote
character alone and no such name is in backticks. -/
theorem autocommitAssignmentValues_iff (sql : List Char) :
    ReturnsValues sql ↔ ∀ assignment ∈ setAssignments sql, Plain assignment := by
  unfold ReturnsValues sessionAutocommitValues setAssignments mysqlAutocommitAssignmentValues
  cases mysqlSetAssignmentsBody (mysqlStatementWithoutComments sql) with
  | none => simp
  | some body =>
    dsimp only
    rw [mysqlSplitUnquotedAssignments_eq]
    constructor
    · rintro ⟨values, hvalues, hnormalized⟩
      obtain ⟨results, hresults, rfl⟩ := map_eq_some_iff.mp hvalues
      refine (plain_of_mapM hresults).2 ?_
      have := congrArg length hnormalized
      rwa [length_map, length_map] at this
    · intro h
      obtain ⟨results, hresults, hvalues⟩ := exists_mapM_of_plain h
      exact ⟨results.filterMap id, by rw [hresults]; rfl, hvalues⟩

end

/-! ### Capitals of ASCII -/

/-- Capitals of ASCII alone. -/
@[reducible] def asciiUppercases : UnicodeUppercase where
  toUppercase c := [c.toUpper]
  toUppercase_ascii _ _ := rfl

example : @mysqlAutocommitAssignmentValues asciiUppercases
    "SET x = 1, @@session . autocommit = ('off') ;".toList = some ["OFF".toList] := by
  decide +kernel

/-- **A quote character alone panics.** -/
theorem lone_quote_panics :
    @mysqlAutocommitAssignmentValues asciiUppercases "SET autocommit = '".toList = none ∧
      ¬ @ReturnsValues asciiUppercases "SET autocommit = '".toList := by
  have hpanic : @mysqlAutocommitAssignmentValues asciiUppercases "SET autocommit = '".toList
      = none := by decide +kernel
  refine ⟨hpanic, ?_⟩
  rintro ⟨values, hvalues, -⟩
  rw [hpanic] at hvalues
  exact absurd hvalues (by simp)

end SpaceQuery.SetAssignments
