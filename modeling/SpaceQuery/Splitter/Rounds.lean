import SpaceQuery.Lib.Removal
import SpaceQuery.Splitter.Engine

/-!
What the loop over the characters of a line does with the text and with the statements. A round
appends what it has read to the open statement, or it has read the semicolon at which it ends the
statement.
-/

namespace SpaceQuery.Splitter

open List RustText SqlText

open Bool hiding true_or

/-- Plain code, or the source of a foreign module, which a bare slash ends. -/
def LexMode.allowsSplit (mode : LexMode) : Bool := mode matches .idle | .foreignModuleSource

namespace SplitState

variable {s : SplitState} (h : s.lexMode.allowsSplit)

include h

lemma allowsSplit_trackForeignSourceBody (token : String) :
    (s.trackForeignSourceBody token).lexMode.allowsSplit := by
  unfold trackForeignSourceBody
  split_ifs
  · exact h
  · rfl
  · exact h

/-- A token at most starts the source of a foreign module. -/
lemma allowsSplit_flushToken : s.flushToken.lexMode.allowsSplit := by
  rw [flushToken]
  by_cases htok : s.token.isEmpty
  · rwa [if_pos htok]
  · rw [if_neg htok]
    exact allowsSplit_trackForeignSourceBody (s := s.withStatement (s.handleToken _)) h _

end SplitState

namespace SqlParserEngine

variable (e : SqlParserEngine)

/-- The text in the engine, up to white space: the statements and what is open behind them. -/
def text : List Char := stripWhitespace (e.statements.flatten ++ e.current)

/-- Every split so far was in code. -/
def SplitsInCode : Prop := ∀ mode ∈ e.splitModes, mode.allowsSplit

/-- The text is kept, and so are the statements that were ended. -/
structure Keeps (e' : SqlParserEngine) : Prop where
  text_eq : e'.text = e.text
  grows : e.statements <+: e'.statements

lemma Keeps.refl : e.Keeps e := ⟨rfl, prefix_rfl⟩

variable {e} in
lemma Keeps.trans {e' e'' : SqlParserEngine} (h : e.Keeps e') (h' : e'.Keeps e'') : e.Keeps e'' :=
  ⟨h'.text_eq.trans h.text_eq, h.grows.trans h'.grows⟩

lemma keeps_finishCurrentStatement : e.Keeps e.finishCurrentStatement := by
  have hstatements : e.finishCurrentStatement.statements
    = if (trim e.current).isEmpty then e.statements else e.statements ++ [trim e.current] := rfl
  have htrim := stripWhitespace_trim e.current
  refine ⟨?_, ?_⟩
  · rw [text, text, show e.finishCurrentStatement.current = [] from rfl, hstatements]
    split_ifs with h
    · rw [List.isEmpty_iff] at h
      simp [← htrim, h]
    · simp
  · rw [hstatements]
    split_ifs
    · exact prefix_rfl
    · exact prefix_append _ _

lemma keeps_withState (state : SplitState) : e.Keeps (e.withState state) := ⟨rfl, prefix_rfl⟩

lemma keeps_splitCurrentStatement : e.Keeps e.splitCurrentStatement :=
  have hrecord : e.Keeps e.recordSplit := ⟨rfl, prefix_rfl⟩
  hrecord.trans (keeps_finishCurrentStatement _)

@[simp] lemma splitsInCode_splitCurrentStatement :
    e.splitCurrentStatement.SplitsInCode ↔ e.SplitsInCode ∧ e.state.lexMode.allowsSplit := by
  change (∀ mode ∈ e.splitModes ++ [e.state.lexMode], _) ↔ _
  simp [SplitsInCode, or_imp, forall_and]

/-! ### Operations that read nothing -/

/-- Text and statements are kept, and a statement is ended in code only. -/
structure Settles (e' : SqlParserEngine) : Prop extends e.Keeps e' where
  inCode : e'.SplitsInCode ↔ e.SplitsInCode
  allows : e.state.lexMode.allowsSplit → e'.state.lexMode.allowsSplit

lemma Settles.refl : e.Settles e := ⟨.refl e, Iff.rfl, id⟩

variable {e} in
lemma Settles.trans {e' e'' : SqlParserEngine} (h : e.Settles e') (h' : e'.Settles e'') :
    e.Settles e'' :=
  ⟨h.toKeeps.trans h'.toKeeps, h'.inCode.trans h.inCode, h'.allows ∘ h.allows⟩

lemma settles_modifyStatement (f : StatementState → StatementState) :
    e.Settles (e.modifyStatement f) := ⟨⟨rfl, prefix_rfl⟩, Iff.rfl, id⟩

lemma settles_flushToken : e.Settles e.flushToken :=
  ⟨⟨rfl, prefix_rfl⟩, Iff.rfl, SplitState.allowsSplit_flushToken⟩

lemma settles_flushBeforeSymbol (c : Char) : e.Settles (e.flushBeforeSymbol c) := by
  dsimp only [flushBeforeSymbol]
  split_ifs
  · exact e.settles_modifyStatement _
  · exact e.settles_flushToken

section

variable {e} (h : e.state.lexMode.allowsSplit)

include h

lemma settles_splitCurrentStatement : e.Settles e.splitCurrentStatement :=
  ⟨e.keeps_splitCurrentStatement, by simp [h], id⟩

lemma settles_splitCurrentAndResetExternalBoundary :
    e.Settles e.splitCurrentAndResetExternalBoundary :=
  (settles_splitCurrentStatement h).trans (settles_modifyStatement _ _)

lemma settles_splitBeforeComment : e.Settles e.splitBeforeComment := by
  dsimp only [splitBeforeComment]
  split_ifs
  · exact settles_splitCurrentStatement h
  · exact .refl e

lemma settles_splitBeforeExternalHead (candidate : String) :
    e.Settles (e.splitBeforeExternalHead candidate) := by
  dsimp only [splitBeforeExternalHead]
  split_ifs
  · exact settles_splitCurrentAndResetExternalBoundary h
  · exact e.settles_modifyStatement _
  · exact .refl e

lemma settles_recoverWithClause (candidate : String) :
    e.Settles (e.recoverWithClause candidate) := by
  have hpending : e.Settles (if e.state.pendingEnd = .end then
      e.modifyStatement (·.resolvePendingEndOnSeparator) else e) := by
    split_ifs
    · exact e.settles_modifyStatement _
    · exact .refl e
  dsimp only [recoverWithClause]
  generalize (if e.state.pendingEnd = .end then _ else e : SqlParserEngine) = resolved at *
  have hsplit := hpending.trans (settles_splitCurrentStatement (hpending.allows h))
  split_ifs <;> first | exact hsplit | exact hpending | exact .refl e

lemma settles_handleIdentifierStartCandidate [UnicodeClasses] (text : List Char) :
    e.Settles (e.handleIdentifierStartCandidate text) := by
  dsimp only [handleIdentifierStartCandidate]
  split_ifs
  · have hhead := settles_splitBeforeExternalHead h
      (asciiUppercase (text.takeWhile isIdentifierChar))
    exact hhead.trans (settles_recoverWithClause (hhead.allows h) _)
  · exact .refl e

end

/-! ### A round of the loop -/

/-- A round has read characters of the text and kept them, or was a split at a semicolon,
which is the one character that it has read: the open statement ends there. -/
structure Step.Reads (round : Step) (e : SqlParserEngine) (text : List Char) : Prop where
  progress : 0 < round.consumed
  kept : round.engine.text
    = e.text ++ stripWhitespace (if round.boundary then [] else text.take round.consumed)
  grows : e.statements <+: round.engine.statements
  inCode : round.engine.SplitsInCode ↔ e.SplitsInCode
  semicolon : round.boundary → round.consumed = 1 ∧ text.head? = some ';'
  ended : round.boundary → round.engine.current = []

variable {e} {e' engine : SqlParserEngine} {c : Char} {rest : List Char} {text : List Char}

/-- A round that appends what it has read, behind operations that read nothing. -/
lemma Step.Reads.of_settles {consumed : ℕ} (progress : 0 < consumed)
    (hs : e.Settles e') (hcurrent : engine.current = e'.current ++ text.take consumed)
    (hstatements : engine.statements = e'.statements) (hmodes : engine.splitModes = e'.splitModes) :
    Step.Reads { engine, consumed } e text where
  progress := progress
  kept := by
    rw [← hs.text_eq, SqlParserEngine.text, SqlParserEngine.text, hstatements, hcurrent]
    simp
  grows := hstatements ▸ hs.grows
  inCode := by
    rw [← hs.inCode, SplitsInCode, SplitsInCode, hmodes]
  semicolon := by simp
  ended := by simp

/-- A round that appends one character. -/
lemma Step.Reads.one (hs : e.Settles e') (hcurrent : engine.current = e'.current ++ [c])
    (hstatements : engine.statements = e'.statements) (hmodes : engine.splitModes = e'.splitModes) :
    Step.Reads { engine, consumed := 1 } e (c :: rest) :=
  .of_settles one_pos hs hcurrent hstatements hmodes

/-- A round that only appends its character. -/
lemma Step.Reads.plain (hcurrent : engine.current = e.current ++ [c])
    (hstatements : engine.statements = e.statements) (hmodes : engine.splitModes = e.splitModes) :
    Step.Reads { engine, consumed := 1 } e (c :: rest) :=
  .one (.refl e) hcurrent hstatements hmodes

/-- A round that appends two characters. -/
lemma Step.Reads.two {next : Char} (hnext : rest.head? = some next) (hs : e.Settles e')
    (hcurrent : engine.current = e'.current ++ [c, next])
    (hstatements : engine.statements = e'.statements) (hmodes : engine.splitModes = e'.splitModes) :
    Step.Reads { engine, consumed := 2 } e (c :: rest) := by
  obtain ⟨rest, rfl⟩ := head?_eq_some_iff.mp hnext
  exact .of_settles two_pos hs hcurrent hstatements hmodes

/-- A round that splits at a semicolon. -/
lemma Step.Reads.split (hs : e.Settles e') (hcurrent : e'.current = []) :
    Step.Reads { engine := e', consumed := 1, boundary := true } e (';' :: rest) where
  progress := one_pos
  kept := by simpa using hs.text_eq
  grows := hs.grows
  inCode := hs.inCode
  semicolon _ := ⟨rfl, rfl⟩
  ended _ := hcurrent

lemma Step.Reads.ite {p : Prop} [Decidable p] {a b : Step}
    (ha : p → a.Reads e text) (hb : ¬ p → b.Reads e text) : (if p then a else b).Reads e text := by
  split_ifs with h
  · exact ha h
  · exact hb h

/-- The text up to a later position. -/
lemma Step.Reads.take {round : Step} (h : round.Reads e text) {k : ℕ}
    (hk : round.consumed ≤ k) : round.Reads e (text.take k) where
  progress := h.progress
  kept := by rw [h.kept, take_take, Nat.min_eq_left hk]
  grows := h.grows
  inCode := h.inCode
  semicolon hb := by
    refine ⟨(h.semicolon hb).1, ?_⟩
    rw [head?_take, if_neg (by have := h.progress; omega)]
    exact (h.semicolon hb).2
  ended := h.ended

/-- A round and the loop behind it. -/
lemma Step.Reads.text_loop {round : Step} {i : ℕ} {after : List Char} {boundaries : List ℕ}
    (hround : round.Reads e text) (hafter : after = round.engine.text ++ stripWhitespace
      (removeAt boundaries (i + round.consumed) (text.drop round.consumed)))
    (hle : ∀ p ∈ boundaries, i + round.consumed ≤ p) :
    after = e.text ++ stripWhitespace
      (removeAt (if round.boundary then i :: boundaries else boundaries) i text) := by
  rw [hafter, hround.kept, append_assoc, ← stripWhitespace_append]
  congr 2
  cases hb : round.boundary with
  | false =>
    have hkeep : removeAt boundaries i (text.take round.consumed) = text.take round.consumed := by
      refine removeAt_of_le fun p hp => ?_
      have := hle p hp
      rw [length_take]
      omega
    simp only [false_eq_true, if_false]
    rw [removeAt_take_drop boundaries round.consumed i, hkeep]
  | true =>
    obtain ⟨hone, hhead⟩ := hround.semicolon hb
    obtain ⟨rest, rfl⟩ := head?_eq_some_iff.mp hhead
    simp only [if_true, nil_append, hone, removeAt, mem_cons, true_or, drop_succ_cons, drop_zero]
    exact (removeAt_cons_of_lt (Nat.lt_succ_self i) rest).symm

lemma eq_semicolon_of_fromChar {next : Option Char}
    (h : SymbolRole.fromChar c next = .semicolon) : c = ';' := by
  by_contra hc
  simp only [SymbolRole.fromChar, if_neg hc] at h
  split_ifs at h

/-- A round over a symbol is the only one that can be a split at a semicolon. -/
lemma stepSymbol_reads (h : e.state.lexMode.allowsSplit) (next : Option Char) :
    (e.stepSymbol c next).Reads e (c :: rest) := by
  have hflush := (e.settles_flushBeforeSymbol c).trans
    (settles_modifyStatement _ (trackSymbol c next))
  dsimp only [stepSymbol]
  split_ifs with hc
  · obtain rfl := eq_semicolon_of_fromChar hc
    have hs := hflush.trans (settles_modifyStatement _ fun s =>
      { s with skipNextEndLabelToken := false }.prepareSemicolon)
    generalize SqlParserEngine.modifyStatement _ _ = prepared at hs ⊢
    cases prepared.state.semicolonAction with
    | appendToCurrent => exact .one hs rfl rfl rfl
    | splitTopLevel => exact .split (hs.trans (settles_splitCurrentStatement (hs.allows h))) rfl
    | splitForcedRoutine =>
      exact .split (hs.trans (settles_splitCurrentAndResetExternalBoundary (hs.allows h))) rfl
    | closeRoutineBlock => exact .one hs rfl rfl rfl
  · exact .one hflush rfl rfl rfl

/-- A round inside quotes keeps what it has read. -/
lemma stepQuoted_reads (quote : Char) (escapes : Bool)
    (inside : Char → StatementState → StatementState) (atEnd : StatementState → StatementState) :
    (e.stepQuoted quote c rest.head? escapes inside atEnd).Reads e (c :: rest) := by
  unfold stepQuoted
  split
  next escaped h =>
    have hnext : rest.head? = some escaped := by
      split_ifs at h
      exact h
    exact .two hnext (.refl e) rfl rfl rfl
  next =>
    split_ifs with hc hnext
    · exact .two hnext (.refl e) rfl rfl rfl
    · exact .one (.refl e) rfl rfl rfl
    · exact .one (.refl e) rfl rfl rfl

lemma detectQQuoteStart_pos {prefixLen : ℕ} {endChar : Char}
    (h : detectQQuoteStart text = some (prefixLen, endChar)) : 0 < prefixLen := by
  simp only [detectQQuoteStart, Option.bind_eq_some_iff] at h
  obtain ⟨n, hn, delimiter, -, h⟩ := h
  split_ifs at hn h <;> grind

lemma dollarQuoteTag_pos (name : List Char) : 0 < (dollarQuoteTag name).length := by
  simp [dollarQuoteTag]

section

variable [UnicodeClasses]

/-- A round in plain code. -/
lemma stepIdle_reads (hcode : e.state.lexMode.allowsSplit) (before : Option Char) :
    (e.stepIdle before c (c :: rest)).Reads e (c :: rest) := by
  have hnext : (c :: rest)[1]? = rest.head? := by simp [head?_eq_getElem?]
  have hcomment := e.settles_flushToken.trans
    (settles_splitBeforeComment (e.settles_flushToken.allows hcode))
  have hident := settles_handleIdentifierStartCandidate hcode (c :: rest)
  dsimp only [stepIdle]
  rw [hnext]
  refine .ite (fun h => ?_) fun _ => .ite (fun h => ?_) fun _ => .ite (fun h => ?_) fun _ => ?_
  · simp only [and_eq_true, decide_eq_true_eq] at h
    obtain ⟨⟨rfl, hd⟩, -⟩ := h
    exact .two hd hcomment rfl rfl rfl
  · simp only [and_eq_true, decide_eq_true_eq] at h
    obtain ⟨rfl, -⟩ := h
    exact .plain rfl rfl rfl
  · simp only [and_eq_true, decide_eq_true_eq] at h
    obtain ⟨rfl, hs⟩ := h
    exact .two hs hcomment rfl rfl rfl
  · split
    next prefixLen endChar h =>
      have hq : detectQQuoteStart (c :: rest) = some (prefixLen, endChar) := by
        split_ifs at h
        exact h
      exact .of_settles (detectQQuoteStart_pos hq) (.refl e) rfl rfl rfl
    next =>
      refine .ite (fun h => .of_settles (pos_of_ne_zero h) (.refl e) rfl rfl rfl) fun _ => ?_
      split
      next name _ => exact .of_settles (dollarQuoteTag_pos name) (.refl e) rfl rfl rfl
      next =>
        refine .ite (fun h => ?_) fun _ => ?_
        · simp only [and_eq_true, decide_eq_true_eq] at h
          exact .two h.1.1.2 (.refl e) rfl rfl rfl
        · refine .ite (fun _ => .plain rfl rfl rfl) fun _ => .ite (fun _ => .plain rfl rfl rfl)
            fun _ => .ite (fun _ => .plain rfl rfl rfl) fun _ => .ite (fun _ => .plain rfl rfl rfl)
            fun _ => .ite (fun _ => .one hident rfl rfl rfl) fun _ => stepSymbol_reads hcode _

/-- A round of the loop. -/
lemma step_reads (e : SqlParserEngine) (before : Option Char) :
    (e.step before c (c :: rest)).Reads e (c :: rest) := by
  have hnext : (c :: rest)[1]? = rest.head? := by simp [head?_eq_getElem?]
  dsimp only [step]
  rw [hnext]
  cases hmode : e.state.lexMode with
  | idle => exact stepIdle_reads (by rw [hmode]; rfl) before
  | lineComment =>
    dsimp only
    split_ifs <;> exact .plain rfl rfl rfl
  | blockComment =>
    refine .ite (fun h => ?_) fun _ => .plain rfl rfl rfl
    simp only [and_eq_true, decide_eq_true_eq] at h
    exact .two h.2 (.refl e) rfl rfl rfl
  | qQuote endChar depth =>
    dsimp only
    split
    next prefixLen nested h =>
      have hq : detectQQuoteStart (c :: rest) = some (prefixLen, nested) := by
        split_ifs at h
        exact (Option.filter_eq_some_iff.mp h).1
      exact .of_settles (detectQQuoteStart_pos hq) (.refl e) rfl rfl rfl
    next =>
      refine .ite (fun h => ?_) fun _ => .plain rfl rfl rfl
      simp only [and_eq_true, decide_eq_true_eq] at h
      exact .two h.2 (.refl e) rfl rfl rfl
  | foreignModuleSource =>
    refine .ite (fun _ => ?_) fun _ => .plain rfl rfl rfl
    have h : Step.Reads _ (e.withState e.state.closeForeignModuleSource) (c :: rest) :=
      stepIdle_reads rfl before
    exact ⟨h.progress, h.kept, h.grows, h.inCode, h.semicolon, h.ended⟩
  | foreignInlineSource braceDepth => exact .plain rfl rfl rfl
  | dollarQuote name =>
    exact .ite (fun _ => .of_settles (dollarQuoteTag_pos name) (.refl e) rfl rfl rfl) fun _ =>
      .plain rfl rfl rfl
  | singleQuote | doubleQuote | backtickQuote | bracketQuote => exact stepQuoted_reads _ _ _ _

/-! ### The loop -/

/-- What the loop does from a position on: it keeps the text, but for the semicolons that it
reports. At each of them the statements that are done by then hold the text in front of it. -/
structure Scans (e : SqlParserEngine) (chars : List Char) (i : ℕ)
    (result : SqlParserEngine × List ℕ) : Prop where
  kept : result.1.text = e.text ++ stripWhitespace (removeAt result.2 i (chars.drop i))
  grows : e.statements <+: result.1.statements
  inCode : result.1.SplitsInCode ↔ e.SplitsInCode
  semicolon : ∀ p ∈ result.2, i ≤ p ∧ chars[p]? = some ';'
  ended : ∀ p ∈ result.2, ∃ done, done <+: result.1.statements ∧ stripWhitespace done.flatten
    = e.text ++ stripWhitespace (removeAt result.2 i ((chars.drop i).take (p - i)))

omit [UnicodeClasses] in
/-- A round in front of the rest of the loop. -/
lemma Step.Reads.scans {round : Step} {chars : List Char} {i : ℕ}
    {result : SqlParserEngine × List ℕ} (hround : round.Reads e (chars.drop i))
    (h : Scans round.engine chars (i + round.consumed) result) :
    Scans e chars i (result.1, if round.boundary then i :: result.2 else result.2) := by
  have hle := fun p hp => (h.semicolon p hp).1
  have hmem : ∀ p ∈ (if round.boundary then i :: result.2 else result.2),
      round.boundary ∧ p = i ∨ p ∈ result.2 := by
    intro p hp
    split_ifs at hp with hb
    · exact (mem_cons.mp hp).imp_left fun hp => ⟨hb, hp⟩
    · exact .inr hp
  refine ⟨?_, hround.grows.trans h.grows, h.inCode.trans hround.inCode, fun p hp => ?_,
    fun p hp => ?_⟩
  · refine hround.text_loop ?_ hle
    rw [h.kept, drop_drop]
  · obtain ⟨hb, rfl⟩ | hp := hmem p hp
    · have hhead := (hround.semicolon hb).2
      rw [head?_drop] at hhead
      exact ⟨le_rfl, hhead⟩
    · exact ⟨(Nat.le_add_right _ _).trans (hle p hp), (h.semicolon p hp).2⟩
  · obtain ⟨hb, rfl⟩ | hp := hmem p hp
    · -- the statement that the round has ended
      refine ⟨round.engine.statements, h.grows, ?_⟩
      have hkept := hround.kept
      rw [SqlParserEngine.text, hround.ended hb, append_nil, hb, if_pos rfl] at hkept
      rw [hkept, Nat.sub_self, take_zero]
      rfl
    · obtain ⟨done, hdone, htext⟩ := h.ended p hp
      have hp := hle p hp
      refine ⟨done, hdone, (hround.take (show round.consumed ≤ p - i by omega)).text_loop ?_ hle⟩
      rw [htext, drop_take, drop_drop,
        show p - i - round.consumed = p - (i + round.consumed) by omega]

lemma scans_processCharsFrom (e : SqlParserEngine) (chars : List Char) (fuel i : ℕ)
    (hfuel : chars.length ≤ i + fuel) : Scans e chars i (processCharsFrom chars fuel i e) := by
  induction fuel generalizing i e with
  | zero =>
    have hdrop : chars.drop i = [] := drop_eq_nil_of_le hfuel
    exact ⟨by simp [processCharsFrom, hdrop], prefix_rfl, Iff.rfl, by simp [processCharsFrom],
      by simp [processCharsFrom]⟩
  | succ fuel ih =>
    rw [processCharsFrom]
    split
    next h => exact ⟨by simp [h], prefix_rfl, Iff.rfl, by simp, by simp⟩
    next c rest h =>
      have hround : Step.Reads (e.step (if i = 0 then none else chars[i - 1]?) c (c :: rest)) e
          (chars.drop i) := by
        rw [h]
        exact e.step_reads _
      have hpos := hround.progress
      exact hround.scans (ih _ _ (by omega))

lemma scans_processChars (e : SqlParserEngine) (chars : List Char) :
    Scans e chars 0 (e.processChars chars) :=
  e.scans_processCharsFrom chars chars.length 0 (by simp)

end

end SqlParserEngine

end SpaceQuery.Splitter
