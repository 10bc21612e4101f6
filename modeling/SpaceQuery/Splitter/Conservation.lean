import SpaceQuery.Splitter.Rounds

/-!
The splitter loses no text but slash lines and the semicolons that end statements.
-/

namespace SpaceQuery.Splitter

open List RustText SqlText

/-- The line is classified as a slash that is a terminator. -/
def isSlashTerminatorLine (line : List Char) : Bool :=
  match classifyLineLeadingMarker line with
  | .slash kind => kind.consumesAsTerminator
  | _ => false

/-- The line is taken from the text. -/
def LineBoundaryAction.consumes (action : LineBoundaryAction) : Bool :=
  action matches .splitAndConsumeLine | .consumeLine

/-- A slash is a terminator here: outside of words and parentheses and of a `WITH` clause whose
main query is due, behind the body of a routine, in a `CREATE` of PL/SQL, or in code with no
statement open. -/
def SplitState.takesSlash (s : SplitState) (currentIsEmpty : Bool) : Bool :=
  s.token.isEmpty && s.parenDepth = 0
    && !(s.inWithPlsqlDeclaration && s.withClauseWaitingMainQuery && s.blockDepth = 0)
    && ((s.blockDepth = 1 && (s.pendingImplicitExternalTopLevelSplit || s.shouldSplitOnSemicolon))
      || (s.blockDepth = 0 && (s.inCreatePlsql || (currentIsEmpty && s.isIdle))))

lemma SplitState.lineBoundaryActionForLine_consumes (s : SplitState) (line : List Char)
    (currentIsEmpty : Bool) :
    (s.lineBoundaryActionForLine line currentIsEmpty).consumes
      ↔ isSlashTerminatorLine line ∧ s.takesSlash currentIsEmpty := by
  have hline : (s.lineBoundaryActionForLine line currentIsEmpty).consumes
      = (s.lineBoundaryAction (classifyLineLeadingMarker line) currentIsEmpty).consumes := by
    unfold lineBoundaryActionForLine
    generalize s.lineBoundaryAction (classifyLineLeadingMarker line) currentIsEmpty = action
    cases action <;> grind [LineBoundaryAction.consumes]
  rw [hline]
  unfold lineBoundaryAction takesSlash isSlashTerminatorLine LineBoundaryAction.consumes
  cases classifyLineLeadingMarker line <;> grind

namespace SqlParserEngine

/-- What is left of a line: nothing of a line that was consumed, and all but the semicolons at
which it was split of another. -/
def LineReport.kept (report : LineReport) (line : List Char) : List Char :=
  if report.consumed then [] else removeAt report.boundaries 0 line

/-- What is left of the lines of a script. -/
def keptText (lines : List (List Char)) (reports : List LineReport) : List Char :=
  (zipWith (fun line report => report.kept line) lines reports).flatten

/-- The engine takes a slash at the start of the line for a terminator. -/
def takesSlash (e : SqlParserEngine) (line : List Char) : Bool :=
  (e.state.closeForeignModuleSourceOnTerminatorLine line).takesSlash e.currentIsEmpty

/-- The report of a line is right: the line is consumed if it is a slash that the engine takes
for a terminator, and it is split at semicolons. At each of them a statement has ended: the
statements up to it hold the text `before` the line and the line up to there. -/
structure Reported (e : SqlParserEngine) (before line : List Char) (report : LineReport)
    (statements : List (List Char)) : Prop where
  consumed_iff : report.consumed ↔ isSlashTerminatorLine line ∧ e.takesSlash line
  semicolon : ∀ p ∈ report.boundaries, (line)[p]? = some ';'
  ended : ∀ p ∈ report.boundaries, ∃ done, done <+: statements ∧ stripWhitespace done.flatten
    = stripWhitespace (before ++ removeAt report.boundaries 0 (line.take p))

open LineReport (kept)

lemma Reported.mono {e : SqlParserEngine} {before line : List Char} {report : LineReport}
    {statements more : List (List Char)} (h : e.Reported before line report statements)
    (hmore : statements <+: more) : e.Reported before line report more where
  consumed_iff := h.consumed_iff
  semicolon := h.semicolon
  ended p hp := by
    obtain ⟨done, hdone, htext⟩ := h.ended p hp
    exact ⟨done, hdone.trans hmore, htext⟩

variable (e : SqlParserEngine)

lemma keeps_applyLineBoundaryAction (action : LineBoundaryAction) :
    e.Keeps (e.applyLineBoundaryAction action).1 := by
  cases action with
  | none | consumeLine => exact .refl e
  | splitBeforeLine | splitAndConsumeLine => exact e.keeps_splitCurrentStatement

lemma applyLineBoundaryAction_snd (action : LineBoundaryAction) :
    (e.applyLineBoundaryAction action).2 = action.consumes := by
  cases action <;> rfl

lemma keeps_finalize : e.Keeps e.finalize :=
  have hresolve := e.settles_flushToken.trans
    (settles_modifyStatement _ (·.resolvePendingEndOnTerminator))
  hresolve.toKeeps.trans (keeps_finishCurrentStatement _)

/-- The line break behind a line is no semicolon. -/
lemma lt_length_of_semicolon {line : List Char} {p : ℕ}
    (h : (line ++ ['\n'])[p]? = some ';') : p < line.length := by
  by_contra hle
  rw [getElem?_append_right (not_lt.mp hle)] at h
  cases hk : p - line.length <;> simp [hk] at h

lemma stripWhitespace_kept (line : List Char) (boundaries : List ℕ) :
    stripWhitespace (removeAt boundaries 0 (line ++ ['\n']))
      = stripWhitespace (kept { boundaries } line) := by
  have hnewline : ∀ start, stripWhitespace (removeAt boundaries start ['\n']) = [] := by
    intro start
    rw [removeAt]
    split_ifs <;> rfl
  rw [removeAt_append, stripWhitespace_append, hnewline, append_nil]
  rfl

section

variable [UnicodeClasses]

/-- What the characters of a line do, behind its boundary. -/
lemma processLineChars_spec (line : List Char) (mayEndWithLine : Bool) :
    ∃ boundaries scanned, e.processLineChars line mayEndWithLine = (scanned, { boundaries })
      ∧ scanned.text = e.text ++ stripWhitespace (kept { boundaries } line)
      ∧ e.statements <+: scanned.statements
      ∧ ∀ p ∈ boundaries, (line)[p]? = some ';' ∧ ∃ done, done <+: scanned.statements ∧
        stripWhitespace done.flatten
          = e.text ++ stripWhitespace (removeAt boundaries 0 (line.take p)) := by
  have h := e.scans_processChars (line ++ ['\n'])
  have hkeeps : Keeps (e.processChars (line ++ ['\n'])).1
      (e.processLineChars line mayEndWithLine).1 := by
    have hmodify := settles_modifyStatement (e.processChars (line ++ ['\n'])).1
      ({ · with skipNextEndLabelToken := false })
    dsimp only [processLineChars]
    split_ifs
    · exact hmodify.toKeeps.trans (keeps_splitCurrentStatement _)
    · exact hmodify.toKeeps
  refine ⟨(e.processChars (line ++ ['\n'])).2, _, ?_, ?_, h.grows.trans hkeeps.grows,
    fun p hp => ?_⟩
  · dsimp only [processLineChars]
    split_ifs <;> rfl
  · rw [hkeeps.text_eq, h.kept, drop_zero, stripWhitespace_kept]
  · have hsemi := (h.semicolon p hp).2
    have hlt := lt_length_of_semicolon hsemi
    obtain ⟨done, hdone, htext⟩ := h.ended p hp
    rw [getElem?_append_left hlt] at hsemi
    refine ⟨hsemi, done, hdone.trans hkeeps.grows, ?_⟩
    rwa [drop_zero, Nat.sub_zero, take_append_of_le_length hlt.le] at htext

/-- A line behind its boundary: it is consumed, split off whole, or read. -/
lemma processLine_cases (line : List Char) :
    ∃ bounded : SqlParserEngine × Bool, ∃ endsWithLine mayEndWithLine : Bool, e.Keeps bounded.1
      ∧ (bounded.2 ↔ isSlashTerminatorLine line ∧ e.takesSlash line)
      ∧ e.processLine line = if bounded.2 then (bounded.1, { consumed := true })
        else if endsWithLine then
          (((bounded.1.appendCurrentStr line).appendCurrentChar '\n').splitCurrentStatement, {})
        else bounded.1.processLineChars line mayEndWithLine := by
  let closed := e.state.closeForeignModuleSourceOnTerminatorLine line
  let action := closed.lineBoundaryActionForLine line e.currentIsEmpty
  have hkeeps := (e.keeps_withState closed).trans (keeps_applyLineBoundaryAction _ action)
  refine ⟨_, _, _, hkeeps, ?_, rfl⟩
  rw [applyLineBoundaryAction_snd]
  exact closed.lineBoundaryActionForLine_consumes line e.currentIsEmpty

/-- A line is kept, but for what its report says, and the report is right. -/
theorem processLine_spec {before : List Char} (hbefore : e.text = stripWhitespace before)
    (line : List Char) :
    (e.processLine line).1.text = e.text ++ stripWhitespace ((e.processLine line).2.kept line)
      ∧ e.statements <+: (e.processLine line).1.statements
      ∧ e.Reported before line (e.processLine line).2 (e.processLine line).1.statements := by
  obtain ⟨bounded, endsWithLine, mayEndWithLine, hkeeps, hconsumes, heq⟩ := e.processLine_cases line
  rw [heq]
  split_ifs with hconsumed
  · refine ⟨by simp [kept, hkeeps.text_eq], hkeeps.grows, ?_, by simp, by simp⟩
    exact iff_of_true rfl (hconsumes.mp hconsumed)
  · have hnone : kept {} line = line := removeAt_of_le (by simp)
    have hnewline : stripWhitespace ['\n'] = [] := rfl
    have hsplit := keeps_splitCurrentStatement
      ((bounded.1.appendCurrentStr line).appendCurrentChar '\n')
    refine ⟨?_, hkeeps.grows.trans hsplit.grows, ?_, by simp, by simp⟩
    · rw [hsplit.text_eq, ← hkeeps.text_eq, hnone]
      simp [text, appendCurrentStr, appendCurrentChar, hnewline]
    · exact iff_of_false (by simp) (hconsumed ∘ hconsumes.mpr)
  · obtain ⟨boundaries, scanned, hread, htext, hgrows, hends⟩ :=
      bounded.1.processLineChars_spec line mayEndWithLine
    rw [hkeeps.text_eq] at htext hends
    simp only [hbefore, ← stripWhitespace_append] at hends
    rw [hread]
    exact ⟨htext, hkeeps.grows.trans hgrows, iff_of_false (by simp) (hconsumed ∘ hconsumes.mpr),
      fun p hp => (hends p hp).1, fun p hp => (hends p hp).2⟩

/-! ### Scripts -/

lemma processLines_append (before after : List (List Char)) : e.processLines (before ++ after)
      = (((e.processLines before).1.processLines after).1,
        (e.processLines before).2 ++ ((e.processLines before).1.processLines after).2) := by
  induction before generalizing e with
  | nil => rfl
  | cons line before ih => simp only [cons_append, processLines, ih]

lemma length_processLines (lines : List (List Char)) :
    (e.processLines lines).2.length = lines.length := by
  induction lines generalizing e with
  | nil => rfl
  | cons line lines ih => simp [processLines, ih]

lemma processLines_spec (lines : List (List Char)) : (e.processLines lines).1.text
        = e.text ++ stripWhitespace (keptText lines (e.processLines lines).2)
      ∧ e.statements <+: (e.processLines lines).1.statements := by
  induction lines generalizing e with
  | nil => exact ⟨by simp [processLines, keptText], prefix_rfl⟩
  | cons line lines ih =>
    obtain ⟨hline, hgrows, -⟩ := e.processLine_spec rfl line
    obtain ⟨hlines, hmore⟩ := ih (e.processLine line).1
    refine ⟨?_, hgrows.trans hmore⟩
    rw [processLines, hlines, hline]
    simp [keptText]

/-- **No text is lost.** Up to white space, the statements of a script are its lines without
the lines that were consumed as terminators and the semicolons at which a statement was
split. Every line is consumed exactly when it is a slash that the engine takes there, and every
semicolon that is left out ended a statement, with all the text in front of it. -/
theorem finalize_processLines_statements (mysqlMode : Bool) (lines : List (List Char)) :
    stripWhitespace ((new mysqlMode).processLines lines).1.finalize.statements.flatten
        = stripWhitespace (keptText lines ((new mysqlMode).processLines lines).2)
      ∧ ∀ before line after, lines = before ++ line :: after →
        ∃ report, ((new mysqlMode).processLines lines).2[before.length]? = some report ∧
          ((new mysqlMode).processLines before).1.Reported
            (keptText before ((new mysqlMode).processLines before).2) line report
            ((new mysqlMode).processLines lines).1.finalize.statements := by
  have hkeeps := keeps_finalize ((new mysqlMode).processLines lines).1
  refine ⟨?_, ?_⟩
  · have hcurrent : ((new mysqlMode).processLines lines).1.finalize.current = [] := rfl
    calc stripWhitespace ((new mysqlMode).processLines lines).1.finalize.statements.flatten
        = ((new mysqlMode).processLines lines).1.finalize.text := by rw [text, hcurrent, append_nil]
      _ = ((new mysqlMode).processLines lines).1.text := hkeeps.text_eq
      _ = _ := ((new mysqlMode).processLines_spec lines).1
  · rintro before line after rfl
    obtain ⟨-, -, hreported⟩ := processLine_spec _ ((new mysqlMode).processLines_spec before).1 line
    refine ⟨_, ?_, hreported.mono (.trans ?_ hkeeps.grows)⟩
    · rw [processLines_append, getElem?_append_right (length_processLines ..).le,
        length_processLines, Nat.sub_self, processLines]
      rfl
    · rw [processLines_append, processLines]
      exact (processLines_spec ..).2

end

end SqlParserEngine

end SpaceQuery.Splitter
