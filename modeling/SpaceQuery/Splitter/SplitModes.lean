import SpaceQuery.Lib.Runs
import SpaceQuery.Splitter.Rounds

/-!
Where the lexer stands when a statement is split. The loop over the characters splits in plain
code only, but a line that starts with a slash, `@`, `!` or a parenthesis can cut a statement inside
a comment or a literal.
-/

namespace SpaceQuery.Splitter

open Runs RustText SqlText LineBoundaryAction

def LineBoundaryAction.splits (action : LineBoundaryAction) : Bool :=
  action matches .splitBeforeLine | .splitAndConsumeLine

@[simp] lemma LineBoundaryAction.splits_none : none.splits = false := rfl

@[simp] lemma LineBoundaryAction.splits_splitBeforeLine : splitBeforeLine.splits := rfl

@[simp] lemma LineBoundaryAction.splits_splitAndConsumeLine : splitAndConsumeLine.splits := rfl

@[simp] lemma LineBoundaryAction.splits_consumeLine : consumeLine.splits = false := rfl

/-- The states of a statement in which a marker at the start of a line cuts it, whatever the
lexer is in. -/
def StatementState.cutsAt (s : StatementState) (marker : LineLeadingMarker) : Bool :=
  s.token.isEmpty && s.parenDepth = 0
    && (if s.inWithPlsqlDeclaration && s.withClauseWaitingMainQuery && s.blockDepth = 0 then
        marker matches .runScriptAt | .bangHost | .slash _
      else if s.pendingImplicitExternalTopLevelSplit && s.blockDepth = 1 then marker ≠ .none
      else (marker matches .slash _) && ((s.blockDepth = 1 && s.shouldSplitOnSemicolon)
          || (s.inCreatePlsql && s.blockDepth = 0)))

namespace SplitState

variable (s : SplitState)

lemma lineBoundaryAction_splits (marker : LineLeadingMarker) (currentIsEmpty : Bool) :
    (s.lineBoundaryAction marker currentIsEmpty).splits = s.cutsAt marker := by
  unfold lineBoundaryAction StatementState.cutsAt
  by_cases htok : s.token.isEmpty <;> by_cases hparen : s.parenDepth = 0 <;>
    cases marker <;> simp [htok, hparen, apply_ite splits]

variable {s}

section

variable (h : s.lexMode.allowsSplit = false)

include h

lemma isIdle_eq_false : s.isIdle = false := by
  rw [isIdle, decide_eq_false_iff_not]
  rintro hidle
  simp [hidle, LexMode.allowsSplit] at h

/-- Outside of code a line can only be cut at its marker. -/
lemma lineBoundaryActionForLine_eq (line : List Char) (currentIsEmpty : Bool) :
    s.lineBoundaryActionForLine line currentIsEmpty
      = s.lineBoundaryAction (classifyLineLeadingMarker line) currentIsEmpty := by
  unfold lineBoundaryActionForLine
  simp only [isIdle_eq_false h, Bool.false_and, Bool.false_eq_true, if_false]
  split_ifs with haction
  · rfl
  · exact (not_not.mp haction).symm

lemma splitterLineBoundaryActionForLine_eq (line : List Char) (currentIsEmpty : Bool) :
    s.splitterLineBoundaryActionForLine line currentIsEmpty
      = s.lineBoundaryAction (classifyLineLeadingMarker line) currentIsEmpty := by
  have hhead : s.splitterStatementHeadActionForLine line currentIsEmpty = .none := by
    simp [splitterStatementHeadActionForLine, isIdle_eq_false h]
  unfold splitterLineBoundaryActionForLine
  simp only [hhead, lineBoundaryActionForLine_eq h, isIdle_eq_false h, Bool.false_and,
    Bool.false_eq_true, if_false, ne_eq, not_true_eq_false]
  split_ifs with haction
  · rw [haction]
    split <;> rfl
  · rfl

end

variable (s)

lemma allowsSplit_closeForeignModuleSource (h : s.lexMode.allowsSplit) (line : List Char) :
    (s.closeForeignModuleSourceOnTerminatorLine line).lexMode.allowsSplit := by
  unfold closeForeignModuleSourceOnTerminatorLine
  split_ifs
  · rfl
  · exact h

variable {s} in
lemma closeForeignModuleSource_eq (h : s.lexMode.allowsSplit = false) (line : List Char) :
    s.closeForeignModuleSourceOnTerminatorLine line = s := by
  have hmode : s.lexMode ≠ .foreignModuleSource := by
    intro hmode
    simp [hmode, LexMode.allowsSplit] at h
  simp [closeForeignModuleSourceOnTerminatorLine, hmode]

lemma allowsSplit_prepareSplitterLineBoundary (h : s.lexMode.allowsSplit) (line : List Char) :
    (s.prepareSplitterLineBoundary line).lexMode.allowsSplit := by
  have hclose := s.allowsSplit_closeForeignModuleSource h line
  dsimp only [prepareSplitterLineBoundary]
  split
  next => split_ifs <;> exact hclose
  next => exact hclose

variable {s} in
lemma prepareSplitterLineBoundary_eq (h : s.lexMode.allowsSplit = false) (line : List Char) :
    s.prepareSplitterLineBoundary line = s := by
  simp only [prepareSplitterLineBoundary, closeForeignModuleSource_eq h, isIdle_eq_false h]
  split <;> simp

end SplitState

namespace SqlParserEngine

variable (e : SqlParserEngine)

@[simp] lemma splitsInCode_new (mysqlMode : Bool) : (new mysqlMode).SplitsInCode := by
  simp [SplitsInCode, new]

@[simp] lemma splitsInCode_forceTerminate :
    e.forceTerminate.SplitsInCode ↔ e.SplitsInCode ∧ e.state.lexMode.allowsSplit :=
  e.splitsInCode_splitCurrentStatement

lemma splitsInCode_applyLineBoundaryAction (action : LineBoundaryAction) :
    (e.applyLineBoundaryAction action).1.SplitsInCode
      ↔ e.SplitsInCode ∧ (action.splits → e.state.lexMode.allowsSplit) := by
  cases action <;> simp [applyLineBoundaryAction]

open SplitState

lemma allowsSplit_prepareSplitterLineBoundary (h : e.state.lexMode.allowsSplit)
    (line : List Char) : (e.prepareSplitterLineBoundary line).state.lexMode.allowsSplit := by
  dsimp only [prepareSplitterLineBoundary]
  split_ifs
  · exact SplitState.allowsSplit_prepareSplitterLineBoundary _ (allowsSplit_flushToken h) line
  · exact e.state.allowsSplit_prepareSplitterLineBoundary h line

section

variable [UnicodeClasses]

/-! ### Lines -/

variable (line : List Char)

lemma splitsInCode_processLineChars (mayEndWithLine : Bool) :
    (e.processLineChars line mayEndWithLine).1.SplitsInCode ↔ e.SplitsInCode := by
  have hread := (e.scans_processChars (line ++ ['\n'])).inCode
  dsimp only [processLineChars]
  split_ifs with h
  · simp only [Bool.and_eq_true, SplitState.isIdle, decide_eq_true_eq] at h
    have hidle := h.1.1.1.2
    rw [splitsInCode_splitCurrentStatement, hidle]
    exact (and_iff_left rfl).trans hread
  · exact hread

/-- The boundary before a line is in code: the lexer is, or the line has no marker that cuts
the statement. -/
def BoundaryInCode : Prop :=
  e.state.lexMode.allowsSplit ∨ !e.state.cutsAt (classifyLineLeadingMarker line)

/-- Behind its boundary a line splits in code. -/
lemma splitsInCode_processLine_boundary : (e.processLine line).1.SplitsInCode ↔
      ((e.withState (e.state.closeForeignModuleSourceOnTerminatorLine line)).applyLineBoundaryAction
        ((e.state.closeForeignModuleSourceOnTerminatorLine line).lineBoundaryActionForLine line
          e.currentIsEmpty)).1.SplitsInCode := by
  dsimp only [processLine]
  split_ifs with hconsumed hend
  · rfl
  · simp only [Bool.and_eq_true, isIdle, decide_eq_true_eq] at hend
    have hidle := hend.1.1.1.1.1
    rw [splitsInCode_splitCurrentStatement]
    exact and_iff_left_of_imp fun _ => congrArg LexMode.allowsSplit hidle
  · exact splitsInCode_processLineChars _ line _

/-- A line splits in code exactly when the boundary before it is in code. -/
theorem splitsInCode_processLine :
    (e.processLine line).1.SplitsInCode ↔ e.SplitsInCode ∧ e.BoundaryInCode line := by
  rw [splitsInCode_processLine_boundary, splitsInCode_applyLineBoundaryAction, BoundaryInCode]
  refine and_congr_right fun _ => ?_
  cases h : e.state.lexMode.allowsSplit with
  | true =>
    have hclose := e.state.allowsSplit_closeForeignModuleSource h line
    exact iff_of_true (fun _ => hclose) (.inl rfl)
  | false =>
    rw [closeForeignModuleSource_eq h, lineBoundaryActionForLine_eq h, lineBoundaryAction_splits]
    simp [withState, h]

variable (use : LineUse)

lemma splitsInCode_feedLineBody : (e.feedLineBody line use).SplitsInCode ↔ e.SplitsInCode := by
  have hline (e : SqlParserEngine) : (e.processSplitterLine line).1.SplitsInCode ↔ e.SplitsInCode :=
    e.splitsInCode_processLineChars line _
  dsimp only [feedLineBody]
  split_ifs with hidle _ _ _ <;> simp only [hline, splitsInCode_forceTerminate]
  all_goals
    rw [isIdle, decide_eq_true_eq] at hidle
    exact and_iff_left (congrArg LexMode.allowsSplit hidle)

/-- Behind its boundary a line of the script splitter splits in code. -/
lemma splitsInCode_feedSplitterLine_boundary :
    (e.feedSplitterLine line use).SplitsInCode ↔ e.SplitsInCode ∧
      (((e.prepareSplitterLineBoundary line).state.splitterLineBoundaryActionForLine line
          e.currentIsEmpty).splits →
        e.currentIsEmpty ∨ (e.prepareSplitterLineBoundary line).state.lexMode.allowsSplit) := by
  have hprepare : (e.prepareSplitterLineBoundary line).SplitsInCode ↔ e.SplitsInCode := by
    dsimp only [prepareSplitterLineBoundary]
    split_ifs <;> rfl
  have hempty : (e.prepareSplitterLineBoundary line).currentIsEmpty = e.currentIsEmpty := by
    dsimp only [prepareSplitterLineBoundary]
    split_ifs <;> rfl
  unfold feedSplitterLine
  simp only [hempty]
  generalize e.prepareSplitterLineBoundary line = prepared at hprepare ⊢
  cases prepared.state.splitterLineBoundaryActionForLine line e.currentIsEmpty <;>
    cases e.currentIsEmpty <;> simp [splitsInCode_feedLineBody, hprepare]

/-- The same for a line of the script splitter, which leaves an empty statement alone. -/
theorem splitsInCode_feedSplitterLine : (e.feedSplitterLine line use).SplitsInCode
      ↔ e.SplitsInCode ∧ (e.currentIsEmpty ∨ e.BoundaryInCode line) := by
  rw [splitsInCode_feedSplitterLine_boundary, BoundaryInCode]
  refine and_congr_right fun _ => ?_
  cases h : e.state.lexMode.allowsSplit with
  | true =>
    have hprepare := e.allowsSplit_prepareSplitterLineBoundary h line
    exact iff_of_true (fun _ => .inr hprepare) (.inr (.inl rfl))
  | false =>
    have hprepare : (e.prepareSplitterLineBoundary line).state = e.state := by
      simp [prepareSplitterLineBoundary, isIdle_eq_false h, withState,
        prepareSplitterLineBoundary_eq h]
    rw [hprepare, splitterLineBoundaryActionForLine_eq h, lineBoundaryAction_splits, h]
    cases e.state.cutsAt (classifyLineLeadingMarker line) <;> simp

end

/-! ### Scripts -/

/-- A line fed to the engine, by itself or by the script splitter. -/
inductive Feed
  | line (line : List Char)
  | splitterLine (line : List Char) (use : LineUse)

def feed [UnicodeClasses] (e : SqlParserEngine) (f : Feed) : SqlParserEngine :=
  match f with
  | .line line => (e.processLine line).1
  | .splitterLine line use => e.feedSplitterLine line use

/-- The lexer is in code where the line is fed, or the line is not one that cuts a statement
outside of code. -/
def FeedInCode : Feed → Prop
  | .line line => e.BoundaryInCode line
  | .splitterLine line _ => e.currentIsEmpty ∨ e.BoundaryInCode line

/-- **Splits in code.** The splits of a script are all in code exactly when no line of it cuts
a statement outside of code. -/
theorem run_splitsInCode_iff [UnicodeClasses] (mysqlMode : Bool) (feeds : List Feed) :
    (∀ mode ∈ (run feed (new mysqlMode) feeds).splitModes, mode.allowsSplit)
      ↔ ∀ v ∈ visits feed (new mysqlMode) feeds, v.1.FeedInCode v.2 := by
  have hstep (e : SqlParserEngine) (f : Feed) :
      (e.feed f).SplitsInCode ↔ e.SplitsInCode ∧ e.FeedInCode f := by
    cases f with
    | line line => exact e.splitsInCode_processLine line
    | splitterLine line use => exact e.splitsInCode_feedSplitterLine line use
  exact (run_iff_visits hstep (new mysqlMode) feeds).trans
    (and_iff_right (splitsInCode_new mysqlMode))

/-- A slash in a comment of the header of a procedure splits it inside the comment. -/
theorem slash_in_header_comment_splits : (run (@feed asciiClasses) (new false)
        [.line "CREATE PROCEDURE p /* a".toList, .line "/".toList]).splitModes = [.blockComment]
      ∧ (run (@feed asciiClasses) (new false) [.splitterLine "CREATE PROCEDURE p /* a".toList {},
          .splitterLine "/".toList {}]).splitModes = [.blockComment] := by
  decide +kernel

end SqlParserEngine

end SpaceQuery.Splitter
