import SpaceQuery.Splitter.SplitState

/-!
The engine that splits a script into statements, from `engine.rs`. Lines are fed one by one;
the characters of a line are read by one loop, one round of which is `step`.

Of the observers of the loop, the one for statement boundaries is what `step` and
`processChars` report. The mode of the lexer before each split is recorded in the engine.
-/

namespace SpaceQuery.Splitter

open RustText SqlText

/-! ### Characters -/

def isDollarQuoteTagChar (c : Char) : Bool := c.isAlphanum || c = '_'

/-- The tag of a dollar quote. -/
def dollarQuoteTag (name : List Char) : List Char := '$' :: name ++ ['$']

variable (text : List Char)

/-- The name of a dollar tag at the start of a text. -/
def parseDollarQuoteTag : Option (List Char) :=
  match text with
  | '$' :: rest =>
    let name := rest.takeWhile isDollarQuoteTagChar
    if (rest.drop name.length).head? = some '$' then some name else none
  | _ => none

def looksLikeOracleConditionalCompilationFlag [UnicodeClasses] (text : List Char) : Bool :=
  match text with
  | '$' :: '$' :: c :: _ => isIdentifierStartChar c
  | _ => false

/-- The length of the start of a q-quote and the character that closes it. -/
def detectQQuoteStart : Option (ℕ × Char) :=
  let prefixLen : Option ℕ :=
    if (text[0]? matches some 'n' | some 'N' | some 'u' | some 'U')
        && (text[1]? matches some 'q' | some 'Q') && text[2]? = some '\'' then some 4
    else if (text[0]? matches some 'q' | some 'Q') && text[1]? = some '\'' then some 3
    else none
  prefixLen.bind fun prefixLen =>
    text[prefixLen - 1]?.bind fun delimiter =>
      if isValidQQuoteDelimiter delimiter then some (prefixLen, qQuoteClosing delimiter) else none

/-- The line at the start of a text is nothing but a slash. -/
def lineAtIsBareSlashTerminator : Bool :=
  (text.takeWhile (· ≠ '\n')).filter (!isWhitespace ·) = ['/']

/-! ### The engine -/

/-- The engine between two characters. -/
structure SqlParserEngine where
  state : SplitState := {}
  current : List Char := []
  currentHasNonWhitespace : Bool := false
  statements : List (List Char) := []
  /-- The mode of the lexer before each split so far. -/
  splitModes : List LexMode := []
  deriving DecidableEq

namespace SqlParserEngine

variable (e : SqlParserEngine)

def new (mysqlMode : Bool) : SqlParserEngine :=
  { state := { mysqlMode := mysqlMode } }

def currentIsEmpty : Bool := !e.currentHasNonWhitespace

def appendCurrentChar (c : Char) : SqlParserEngine :=
  { e with
    currentHasNonWhitespace := e.currentHasNonWhitespace || !isWhitespace c
    current := e.current ++ [c] }

/-- `append_current_str`, and the loops that append one character after the other. -/
def appendCurrentStr (text : List Char) : SqlParserEngine :=
  { e with
    currentHasNonWhitespace := e.currentHasNonWhitespace || text.any (!isWhitespace ·)
    current := e.current ++ text }

def withState (state : SplitState) : SqlParserEngine := { e with state := state }

/-- The account of the statement is changed. -/
def modifyStatement (f : StatementState → StatementState) : SqlParserEngine :=
  e.withState (e.state.withStatement (f e.state.toStatementState))

def setLexMode (mode : LexMode) : SqlParserEngine := e.withState { e.state with lexMode := mode }

def flushToken : SqlParserEngine := e.withState e.state.flushToken

def pushCurrentStatement : SqlParserEngine :=
  let trimmed := trim e.current
  { e with
    statements := if trimmed.isEmpty then e.statements else e.statements ++ [trimmed]
    current := []
    currentHasNonWhitespace := false }

def finishCurrentStatement : SqlParserEngine :=
  let e := e.pushCurrentStatement
  e.withState e.state.resetAfterStatementBoundary

/-- The mode of the lexer is recorded for a split. -/
def recordSplit : SqlParserEngine := { e with splitModes := e.splitModes ++ [e.state.lexMode] }

/-- `split_current_statement`, or `finish_current_statement` at a split. -/
def splitCurrentStatement : SqlParserEngine := e.recordSplit.finishCurrentStatement

def splitCurrentAndResetExternalBoundary : SqlParserEngine :=
  e.splitCurrentStatement.modifyStatement ({ · with blockStack := [] })

def applySemicolonAction (action : SemicolonAction) (semicolon : Char) : SqlParserEngine :=
  match action with
  | .appendToCurrent => e.appendCurrentChar semicolon
  | .splitTopLevel => e.splitCurrentStatement
  | .splitForcedRoutine => e.splitCurrentAndResetExternalBoundary
  | .closeRoutineBlock =>
    (e.appendCurrentChar semicolon).modifyStatement (·.closeExternalRoutineOnSemicolon)

/-- `apply_line_boundary_action`, with whether the line is consumed. -/
def applyLineBoundaryAction (action : LineBoundaryAction) : SqlParserEngine × Bool :=
  match action with
  | .none => (e, false)
  | .splitBeforeLine => (e.splitCurrentStatement, false)
  | .splitAndConsumeLine => (e.splitCurrentStatement, true)
  | .consumeLine => (e, true)

/-! ### Identifiers -/

/-- The first part of `handle_identifier_start_candidate`: statements behind an external
routine. -/
def splitBeforeExternalHead (candidate : String) : SqlParserEngine :=
  let s := e.state
  if s.blockDepth = 1 && s.parenDepth = 0 then
    let shouldSplitBeforeNewStatement := s.shouldSplitBeforeNewStatementHead
      && isStatementHeadKeyword candidate && !isExternalLanguageClauseKeyword candidate
      && !isExternalLanguageTargetKeyword candidate && candidate ≠ "BEGIN"
    let shouldSplitPendingTopLevel := s.pendingImplicitExternalTopLevelSplit
      && candidate ≠ "BEGIN"
      && (isWithMainQueryKeyword candidate || isStatementHeadKeyword candidate)
    if s.shouldSplitBeginAfterImplicitExternalSemicolon candidate
        || shouldSplitBeforeNewStatement || shouldSplitPendingTopLevel
        || s.shouldSplitBeforeExternalBeginBlock candidate
        || s.shouldSplitBeforeExternalStatementHead candidate then
      e.splitCurrentAndResetExternalBoundary
    else e.modifyStatement ({ · with pendingImplicitExternalTopLevelSplit := false })
  else e

/-- The second part: a statement head where the main query of a `WITH` clause is due. -/
def recoverWithClause (candidate : String) : SqlParserEngine :=
  let s := e.state
  if s.inWithPlsqlDeclaration && s.parenDepth = 0 && isStatementHeadKeyword candidate then
    let shouldRecoverWithClause :=
      if s.withClauseWaitingMainQuery then !isWithMainQueryKeyword candidate
      else if s.withClauseState = .inPlsqlDeclaration .collectingDeclaration then
        !isWithMainQueryKeyword candidate && !isWithPlsqlDeclarationKeyword candidate
          && !(candidate matches "BEGIN" | "DECLARE")
      else false
    if shouldRecoverWithClause then
      let e :=
        if s.pendingEnd = .end then e.modifyStatement (·.resolvePendingEndOnSeparator) else e
      if e.state.blockDepth = 0 then e.splitCurrentStatement else e
    else e
  else e

section

variable [UnicodeClasses]

def handleIdentifierStartCandidate (text : List Char) : SqlParserEngine :=
  let s := e.state
  let shouldPreview := s.token.isEmpty
    && ((s.blockDepth = 1 && s.parenDepth = 0)
      || (s.inWithPlsqlDeclaration && s.blockDepth = 0 && s.parenDepth = 0))
  if shouldPreview then
    let candidate := asciiUppercase (text.takeWhile isIdentifierChar)
    (e.splitBeforeExternalHead candidate).recoverWithClause candidate
  else e

/-! ### One round of the loop -/

/-- What a round of the loop leaves: the engine, how many characters it has read, and whether
it has told its observer of a boundary. -/
structure Step where
  engine : SqlParserEngine
  consumed : ℕ
  boundary : Bool := false

/-- The start of a literal, which may be the target of an external routine. -/
def startLiteral (mode : LexMode) : SqlParserEngine :=
  let e := e.flushToken
  let allowImplicitTarget := e.state.allowImplicitExternalLiteralTarget
  let e := e.modifyStatement (·.observeExternalClauseLiteralTarget allowImplicitTarget)
  e.setLexMode mode

/-- The start of a comment, before which a statement may end. -/
def splitBeforeComment : SqlParserEngine :=
  let s := e.state
  if s.pendingImplicitExternalTopLevelSplit && s.blockDepth = 1 && s.parenDepth = 0
      && s.token.isEmpty then e.splitCurrentStatement
  else e

/-- What a symbol does to the account of the statement. -/
def trackSymbol (c : Char) (next : Option Char) (s : StatementState) : StatementState :=
  let role := SymbolRole.fromChar c next
  let s := s.trackWithMainQuerySymbol c
  let s := s.trackCreatePlsqlSymbol c
  let s := s.observeExternalClauseSymbol c next
  let s := s.trackIfSymbol c role
  let s :=
    match role with
    | .openParen => s.pushOpenParen c
    | .closeParen => s.popCloseParen c
    | _ => s
  let s :=
    if s.pendingEnd = .end && role.resolvesPendingEnd then s.resolvePendingEndOnSeparator else s
  if c = ',' then s.advanceWithClauseAfterComma else s

/-- The token before a symbol is flushed, or dropped as the label of a timing point. -/
def flushBeforeSymbol (c : Char) : SqlParserEngine :=
  let hasTimingPointLabelEnd := c = ';' && e.state.pendingEnd = .end
    && e.state.allowTimingPointEndSuffix
    && (asciiUppercase e.state.token matches "BEFORE" | "AFTER" | "INSTEAD")
  if hasTimingPointLabelEnd then
    e.modifyStatement
      ({ · with pendingEnd := .none, token := [], tokenPrefixedWithDollar := false })
  else e.flushToken

/-- The end of the loop body: characters that are neither quotes, comments nor identifiers. -/
def stepSymbol (c : Char) (next : Option Char) : Step :=
  let e := (e.flushBeforeSymbol c).modifyStatement (trackSymbol c next)
  if SymbolRole.fromChar c next = .semicolon then
    let e := e.modifyStatement fun s =>
      { s with skipNextEndLabelToken := false }.prepareSemicolon
    let action := e.state.semicolonAction
    { engine := e.applySemicolonAction action c
      consumed := 1
      boundary := action.splits }
  else { engine := e.appendCurrentChar c, consumed := 1 }

/-- A round in plain code. `before` is the character before the round, `text` starts with
`c`. -/
def stepIdle (before : Option Char) (c : Char) (text : List Char) : Step :=
  let next := text[1]?
  let mysqlMode := e.state.mysqlMode
  let dashCommentStart := !mysqlMode || text[2]?.all fun c => isWhitespace c || isControl c
  let tokenIsEmpty := e.state.token.isEmpty
  let qQuote :=
    if tokenIsEmpty && before.all (!isIdentifierChar ·) then detectQQuoteStart text else none
  let prefixedQuoteLen :=
    if tokenIsEmpty && (c matches 'n' | 'N' | 'b' | 'B' | 'x' | 'X' | 'u' | 'U') then
      if (c = 'u' || c = 'U') && next = some '&' && text[2]? = some '\'' then 3
      else if next = some '\'' then 2
      else 0
    else 0
  let dollarTag :=
    if tokenIsEmpty && c = '$' && (!looksLikeOracleConditionalCompilationFlag text
        || e.state.allowExternalDollarQuoteLiteralStart) then parseDollarQuoteTag text
    else none
  if c = '-' && next = some '-' && dashCommentStart then
    let e := e.flushToken.splitBeforeComment.setLexMode .lineComment
    { engine := e.appendCurrentStr ['-', '-'], consumed := 2 }
  else if c = '#' && mysqlMode then
    { engine := (e.flushToken.setLexMode .lineComment).appendCurrentChar '#', consumed := 1 }
  else if c = '/' && next = some '*' then
    let e := e.flushToken.splitBeforeComment.setLexMode .blockComment
    { engine := e.appendCurrentStr ['/', '*'], consumed := 2 }
  else if let some (prefixLen, endChar) := qQuote then
    { engine := (e.startLiteral (.qQuote endChar 1)).appendCurrentStr (text.take prefixLen)
      consumed := prefixLen }
  else if prefixedQuoteLen ≠ 0 then
    { engine := (e.startLiteral .singleQuote).appendCurrentStr (text.take prefixedQuoteLen)
      consumed := prefixedQuoteLen }
  else if let some name := dollarTag then
    let tagLen := (dollarQuoteTag name).length
    { engine := (e.startLiteral (.dollarQuote name)).appendCurrentStr (text.take tagLen)
      consumed := tagLen }
  else if c = '{' && next = some '{' && e.state.allowsInlineForeignSource && tokenIsEmpty then
    { engine := (e.setLexMode (.foreignInlineSource 2)).appendCurrentStr [c, '{'], consumed := 2 }
  else if c = '\'' then
    { engine := (e.startLiteral .singleQuote).appendCurrentChar c, consumed := 1 }
  else if c = '"' then
    let e := e.flushToken.modifyStatement fun s =>
      { s.consumeTriggerAliasSubjectOnQuotedIdentifier with quotedIdentifierBuf := [] }
    { engine := (e.setLexMode .doubleQuote).appendCurrentChar c, consumed := 1 }
  else if c = '\x60' then
    { engine := (e.flushToken.setLexMode .backtickQuote).appendCurrentChar c, consumed := 1 }
  else if mysqlMode && c = '[' then
    { engine := (e.flushToken.setLexMode .bracketQuote).appendCurrentChar c, consumed := 1 }
  else if isIdentifierChar c then
    let e := e.handleIdentifierStartCandidate text
    let e := e.modifyStatement fun s =>
      { s with
        tokenPrefixedWithDollar :=
          if s.token.isEmpty then before = some '$' else s.tokenPrefixedWithDollar
        token := s.token ++ [c] }
    { engine := e.appendCurrentChar c, consumed := 1 }
  else e.stepSymbol c next

/-- A round inside single quotes or a quoted name: a doubled quote stays inside, and so does
an escaped character in MySQL. `inside` is what a character that stays does to the statement,
and `atEnd` what the closing quote does. -/
def stepQuoted (quote c : Char) (next : Option Char) (escapes : Bool)
    (inside : Char → StatementState → StatementState) (atEnd : StatementState → StatementState) :
    Step :=
  match (if escapes && c = '\\' then next else none) with
  | some escaped => { engine := e.appendCurrentStr [c, escaped], consumed := 2 }
  | none =>
    if c = quote then
      if next = some quote then
        { engine := (e.appendCurrentStr [c, quote]).modifyStatement (inside quote), consumed := 2 }
      else
        { engine := ((e.appendCurrentChar c).setLexMode .idle).modifyStatement atEnd
          consumed := 1 }
    else { engine := (e.appendCurrentChar c).modifyStatement (inside c), consumed := 1 }

/-- One round of the loop of `process_chars_with_observer`. -/
def step (before : Option Char) (c : Char) (text : List Char) : Step :=
  let next := text[1]?
  match e.state.lexMode with
  | .lineComment =>
    let e := e.appendCurrentChar c
    { engine := if c = '\n' then e.setLexMode .idle else e, consumed := 1 }
  | .blockComment =>
    if c = '*' && next = some '/' then
      { engine := (e.appendCurrentStr [c, '/']).setLexMode .idle, consumed := 2 }
    else { engine := e.appendCurrentChar c, consumed := 1 }
  | .qQuote endChar depth =>
    let nested :=
      if before.all (!isIdentifierChar ·) then
        (detectQQuoteStart text).filter (·.2 = endChar)
      else none
    match nested with
    | some (prefixLen, _) =>
      { engine :=
          (e.appendCurrentStr (text.take prefixLen)).setLexMode (.qQuote endChar (depth + 1))
        consumed := prefixLen }
    | none =>
      if c = endChar && next = some '\'' then
        { engine := (e.appendCurrentStr [c, '\'']).setLexMode
            (if depth = 1 then .idle else .qQuote endChar (depth - 1))
          consumed := 2 }
      else { engine := e.appendCurrentChar c, consumed := 1 }
  | .foreignModuleSource =>
    if e.state.foreignSourceAtLineStart && lineAtIsBareSlashTerminator text then
      -- the round starts again in plain code
      (e.withState e.state.closeForeignModuleSource).stepIdle before c text
    else
      { engine := (e.appendCurrentChar c).modifyStatement
          ({ · with foreignSourceAtLineStart := c = '\n' })
        consumed := 1 }
  | .foreignInlineSource braceDepth =>
    let braceDepth :=
      match c with
      | '{' => braceDepth + 1
      | '}' => braceDepth - 1
      | _ => braceDepth
    { engine := (e.appendCurrentChar c).setLexMode
        (if braceDepth = 0 then .idle else .foreignInlineSource braceDepth)
      consumed := 1 }
  | .dollarQuote name =>
    let tagLen := (dollarQuoteTag name).length
    if c = '$' && (dollarQuoteTag name).isPrefixOf text then
      { engine := (e.appendCurrentStr (text.take tagLen)).setLexMode .idle, consumed := tagLen }
    else { engine := e.appendCurrentChar c, consumed := 1 }
  | .singleQuote => e.stepQuoted '\'' c next e.state.mysqlMode (fun _ => id) id
  | .doubleQuote =>
    e.stepQuoted '"' c next e.state.mysqlMode
      (fun c s => { s with quotedIdentifierBuf := s.quotedIdentifierBuf ++ [c] })
      (·.finishQuotedIdentifier)
  | .backtickQuote =>
    e.stepQuoted '\x60' c next false (fun _ => id) (·.resolvePendingEndOnQuotedName)
  | .bracketQuote =>
    e.stepQuoted ']' c next false (fun _ => id) (·.resolvePendingEndOnQuotedName)
  | .idle => e.stepIdle before c text

/-! ### Lines -/

/-- The loop of `process_chars_with_observer` from a position on, with the positions of the
boundaries that it reports. -/
def processCharsFrom (chars : List Char) : ℕ → ℕ → SqlParserEngine → SqlParserEngine × List ℕ
  | 0, _, e => (e, [])
  | fuel + 1, i, e =>
    match chars.drop i with
    | [] => (e, [])
    | c :: text =>
      let before := if i = 0 then none else chars[i - 1]?
      let round := e.step before c (c :: text)
      let rest := processCharsFrom chars fuel (i + round.consumed) round.engine
      (rest.1, if round.boundary then i :: rest.2 else rest.2)

/-- `process_chars_with_observer`. Every round reads a character, so there are not more rounds
than characters. -/
def processChars (chars : List Char) : SqlParserEngine × List ℕ :=
  processCharsFrom chars chars.length 0 e

variable (line : List Char)

def lineIsMysqlServerStatement : Bool :=
  e.state.mysqlMode && (nextMeaningfulWord none line).any fun (first, rest) =>
      (asciiUppercase first matches "EXECUTE" | "SHOW" | "START")
        || (eqIgnoreAsciiCase first "GET"
          && (nextMeaningfulWord first.getLast? rest).any fun (next, _) =>
            asciiUppercase next matches "CURRENT" | "DIAGNOSTICS" | "STACKED")

/-- The line is a command of SQL*Plus that ends with its line. -/
def endsWithLine : Bool :=
  isAutoTerminatedToolCommand line && !e.lineIsMysqlServerStatement line

/-- The line starts in a `WITH` clause whose main query is due. -/
def inWithWaitingMainQuery : Bool :=
  e.state.inWithPlsqlDeclaration && e.state.withClauseWaitingMainQuery && e.state.blockDepth = 0
    && e.state.parenDepth = 0

/-- What became of a line: whether it was consumed as a terminator, and the positions of the
semicolons at which it was split. -/
structure LineReport where
  consumed : Bool := false
  boundaries : List ℕ := []
  deriving DecidableEq

/-- The characters of a line are read, and a command that ends with it is split off.
`mayEndWithLine` is whether the line started where such a command may stand. -/
def processLineChars (mayEndWithLine : Bool) : SqlParserEngine × LineReport :=
  let read := e.processChars (line ++ ['\n'])
  let e := read.1.modifyStatement ({ · with skipNextEndLabelToken := false })
  let report : LineReport := { boundaries := read.2 }
  if mayEndWithLine && e.state.isIdle && e.state.blockDepth = 0 && e.state.parenDepth = 0
      && e.endsWithLine line then (e.splitCurrentStatement, report)
  else (e, report)

/-- `process_line`. -/
def processLine : SqlParserEngine × LineReport :=
  let mayEndWithLine := e.currentIsEmpty || e.inWithWaitingMainQuery
  let startedWithEmptyCurrent := e.currentIsEmpty
  let e := e.withState (e.state.closeForeignModuleSourceOnTerminatorLine line)
  let action := e.state.lineBoundaryActionForLine line startedWithEmptyCurrent
  let bounded := e.applyLineBoundaryAction action
  let e := bounded.1
  if bounded.2 then (e, { consumed := true })
  else
    let startsAtStatementBoundary := e.state.isIdle && e.state.blockDepth = 0
      && e.state.parenDepth = 0 && !e.state.inWithPlsqlDeclaration && e.currentIsEmpty
    if startsAtStatementBoundary && e.endsWithLine line then
      (((e.appendCurrentStr line).appendCurrentChar '\n').splitCurrentStatement, {})
    else e.processLineChars line mayEndWithLine

def processLines (e : SqlParserEngine) : List (List Char) → SqlParserEngine × List LineReport
  | [] => (e, [])
  | line :: lines =>
    let read := e.processLine line
    let rest := processLines read.1 lines
    (rest.1, read.2 :: rest.2)

/-- `process_splitter_line`. -/
def processSplitterLine : SqlParserEngine × LineReport :=
  e.processLineChars line (e.currentIsEmpty || e.inWithWaitingMainQuery)

/-- `prepare_splitter_line_boundary`. -/
def prepareSplitterLineBoundary (line : List Char) : SqlParserEngine :=
  let e := if e.state.isIdle && lineStartsWithConsumedSlashTerminator line then e.flushToken else e
  e.withState (e.state.prepareSplitterLineBoundary line)

/-- `force_terminate`. -/
def forceTerminate : SqlParserEngine :=
  let e := e.recordSplit
  (e.withState e.state.forceResetAll).finishCurrentStatement

/-- What `process_split_line` finds a line to be behind its boundary: whether the open
statement ends before it, and whether it is a command of its own, which is not fed to the
engine. -/
structure LineUse where
  terminates : Bool := false
  isCommand : Bool := false
  deriving DecidableEq

/-- The rest of `process_split_line`. The checks behind `use` (a lone semicolon, the commands
of SQL*Plus) all need an idle lexer. -/
def feedLineBody (use : LineUse) : SqlParserEngine :=
  if e.state.isIdle then
    let e := if use.terminates then e.forceTerminate else e
    if use.isCommand then e else (e.processSplitterLine line).1
  else (e.processSplitterLine line).1

/-- What `process_split_line` does with the engine and a line: the boundary before the line,
and the line, unless the boundary consumes it. -/
def feedSplitterLine (use : LineUse) : SqlParserEngine :=
  let e := e.prepareSplitterLineBoundary line
  let terminated := if e.currentIsEmpty then e else e.forceTerminate
  match e.state.splitterLineBoundaryActionForLine line e.currentIsEmpty with
  | .none => e.feedLineBody line use
  | .splitBeforeLine => terminated.feedLineBody line use
  | .splitAndConsumeLine => terminated
  | .consumeLine => e

def finalize : SqlParserEngine :=
  -- the source has the same function for the end of the text under another name
  (e.flushToken.modifyStatement (·.resolvePendingEndOnTerminator)).finishCurrentStatement

end

end SqlParserEngine

end SpaceQuery.Splitter
