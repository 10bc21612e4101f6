import SpaceQuery.Splitter.Words

/-!
The states and decisions of the statement splitter, from `boundary.rs`: the modes of the
lexer, the blocks of PL/SQL, the clauses of external routines, and what the start of a line
says about the statement before it.
-/

namespace SpaceQuery.Splitter

open RustText SqlText

/-- Where the lexer stands. -/
inductive LexMode
  | idle
  | singleQuote
  | doubleQuote
  | backtickQuote
  | bracketQuote
  | lineComment
  | blockComment
  | qQuote (endChar : Char) (depth : ℕ)
  /-- With the name between the dollars of the tag. -/
  | dollarQuote (name : List Char)
  | foreignModuleSource
  | foreignInlineSource (braceDepth : ℕ)
  deriving DecidableEq

/-! ### Blocks -/

/-- What opened a block. -/
inductive BlockKind
  | begin | declare | asIs | case | if | loop | while | for | repeat | compound | timingPoint
  deriving DecidableEq

/-- An `END` that is still open. -/
inductive PendingEnd
  | none | end
  deriving DecidableEq

/-- The word after `END`. -/
inductive PendingEndSuffix
  | case | if | loop | while | repeat | for | timingPoint
  deriving DecidableEq

/-- `PendingEndSuffix::parse`. -/
def PendingEndSuffix.parse (token : String) (allowTimingPointSuffix : Bool) :
    Option PendingEndSuffix :=
  match token with
  | "CASE" => some .case
  | "IF" => some .if
  | "LOOP" => some .loop
  | "WHILE" => some .while
  | "REPEAT" => some .repeat
  | "FOR" => some .for
  | "BEFORE" | "AFTER" | "INSTEAD" => if allowTimingPointSuffix then some .timingPoint else none
  | _ => none

/-- `EndTokenRole::from_token`: the suffix that a token is to a pending `END`. -/
def endTokenRole (token : String) (pendingEnd : PendingEnd) (allowTimingPointSuffix : Bool) :
    Option PendingEndSuffix :=
  if pendingEnd ≠ .end then none else PendingEndSuffix.parse token allowTimingPointSuffix

/-- Where an `IF` stands. -/
inductive IfState
  | none
  | expectConditionStart
  | inConditionParen (depth : ℕ)
  | awaitingThen
  deriving DecidableEq

/-- A loop that waits for `DO`. -/
inductive PendingDo
  | none
  | while (armedAtBlockDepth : ℕ)
  | for (armedAtBlockDepth : ℕ)
  deriving DecidableEq

def PendingDo.armForToken (pending : PendingDo) (token : String) (armedAtBlockDepth : ℕ) :
    PendingDo :=
  if pending ≠ .none then pending
  else
    match token with
    | "WHILE" => .while armedAtBlockDepth
    | "FOR" => .for armedAtBlockDepth
    | _ => .none

def PendingDo.resolveDo (pending : PendingDo) (currentBlockDepth : ℕ) : Option BlockKind :=
  match pending with
  | .while depth => if depth = currentBlockDepth then some .while else Option.none
  | .for depth => if depth = currentBlockDepth then some .for else Option.none
  | .none => Option.none

/-! ### External routines -/

/-- What `;` does in a routine. -/
inductive SemicolonPolicy
  | default | forceSplit | closeRoutineBlock | awaitingImplicitTopLevelDecision
  deriving DecidableEq

/-- Where a call specification stands. -/
inductive ExternalClauseState
  | none | sawExternalKeyword | sawUsingClauseSubject | sawMleKeyword
  | awaitingLanguageTargetFromExternal | awaitingLanguageTargetImplicit
  | sawImplicitQuotedLanguageTarget | sawImplicitLanguageTarget | confirmed
  deriving DecidableEq

/-- A routine whose body is open. -/
structure RoutineFrame where
  blockDepth : ℕ
  semicolonPolicy : SemicolonPolicy := .default
  externalClauseState : ExternalClauseState := .none
  implicitLanguageTargetIsQuoted : Bool := false
  deriving DecidableEq

namespace RoutineFrame

variable (frame : RoutineFrame)

def shouldSplitOnSemicolon (currentBlockDepth : ℕ) : Bool :=
  frame.blockDepth = currentBlockDepth && frame.semicolonPolicy = .forceSplit

def shouldCloseRoutineBlockOnSemicolon (currentBlockDepth : ℕ) : Bool :=
  frame.blockDepth = currentBlockDepth && frame.semicolonPolicy = .closeRoutineBlock

def hasPendingExternalClause : Bool :=
  frame.externalClauseState ≠ .none && frame.externalClauseState ≠ .confirmed

def pendingExternalClauseRequiresTopLevelSplit : Bool :=
  frame.externalClauseState matches .sawImplicitQuotedLanguageTarget | .sawImplicitLanguageTarget
    | .awaitingLanguageTargetImplicit

def shouldDeferBeginSplitAfterImplicitSemicolon : Bool := frame.implicitLanguageTargetIsQuoted

def markExternalClause : RoutineFrame :=
  { frame with
    semicolonPolicy := if frame.blockDepth = 1 then .forceSplit else .closeRoutineBlock
    externalClauseState := .confirmed
    implicitLanguageTargetIsQuoted := false }

def markImplicitLanguageTargetOnSemicolon : RoutineFrame :=
  { frame with
    semicolonPolicy :=
      if frame.blockDepth = 1 then .awaitingImplicitTopLevelDecision else .closeRoutineBlock
    externalClauseState := .confirmed }

/-- The frame in a state of its clause, with a target that is not quoted. -/
def inClause (state : ExternalClauseState) : RoutineFrame :=
  { frame with externalClauseState := state, implicitLanguageTargetIsQuoted := false }

/-- `observe_external_clause_token` outside the place of a language target. -/
def observeClauseKeyword (token : String) (allowImplicitLanguage : Bool) : RoutineFrame :=
  let state := frame.externalClauseState
  if token = "EXTERNAL" then frame.inClause .sawExternalKeyword
  else if token matches "AGGREGATE" | "PIPELINED" then frame.inClause .sawUsingClauseSubject
  else if token = "MLE" then
    if state matches .sawImplicitLanguageTarget | .confirmed then frame.markExternalClause
    else frame.inClause .sawMleKeyword
  else if token matches "MODULE" | "SIGNATURE" | "ENV" | "ENVIRONMENT" | "IMPORT" | "IMPORTS"
      | "EXPORT" | "EXPORTS" then
    if state matches .sawMleKeyword | .sawImplicitQuotedLanguageTarget
        | .sawImplicitLanguageTarget | .confirmed then frame.markExternalClause
    else frame
  else if token = "USING" then
    if state = .sawUsingClauseSubject then frame.markExternalClause else frame
  else if state = .sawUsingClauseSubject
      && (token matches "ROW" | "SCALAR" | "TABLE" | "POLYMORPHIC") then frame
  else if token = "LANGUAGE" then
    if state = .sawExternalKeyword then frame.inClause .awaitingLanguageTargetFromExternal
    else if state = .sawMleKeyword then frame.markExternalClause
    else if allowImplicitLanguage then frame.inClause .awaitingLanguageTargetImplicit
    else frame.inClause .none
  else if isExternalLanguageClauseKeyword token then
    if state matches .sawExternalKeyword | .sawImplicitQuotedLanguageTarget
        | .sawImplicitLanguageTarget | .confirmed then frame.markExternalClause
    else frame
  else if state matches .sawExternalKeyword | .sawUsingClauseSubject | .sawMleKeyword
      | .sawImplicitQuotedLanguageTarget then frame.inClause .none
  else frame

def observeExternalClauseToken (token : String) (allowImplicitLanguage : Bool) : RoutineFrame :=
  if frame.externalClauseState matches .awaitingLanguageTargetFromExternal
      | .awaitingLanguageTargetImplicit then
    let fromExternal := frame.externalClauseState = .awaitingLanguageTargetFromExternal
    let frame := { frame with externalClauseState := .none }
    if isExternalLanguageTargetKeyword token then
      if fromExternal then frame.markExternalClause else frame.inClause .sawImplicitLanguageTarget
    else if fromExternal && token.toList.all isIdentifierByte then frame.markExternalClause
    else if isExternalLanguageClauseKeyword token then
      if fromExternal then frame.markExternalClause
      else if allowImplicitLanguage then frame.inClause .sawImplicitLanguageTarget
      else frame
    else frame.observeClauseKeyword token allowImplicitLanguage
  else frame.observeClauseKeyword token allowImplicitLanguage

def observeExternalClauseQuotedIdentifierTarget : RoutineFrame :=
  match frame.externalClauseState with
  | .awaitingLanguageTargetFromExternal => frame.markExternalClause
  | .awaitingLanguageTargetImplicit =>
    { frame with
      externalClauseState := .sawImplicitQuotedLanguageTarget
      implicitLanguageTargetIsQuoted := true }
  | _ => frame

def observeExternalClauseLiteralTarget (allowImplicitTarget : Bool) : RoutineFrame :=
  match frame.externalClauseState with
  | .awaitingLanguageTargetFromExternal => frame.markExternalClause
  | .awaitingLanguageTargetImplicit =>
    if allowImplicitTarget then frame.inClause .sawImplicitLanguageTarget
    else { frame with externalClauseState := .none }
  | _ => frame

def observeExternalClauseSymbol (c : Char) (next : Option Char) : RoutineFrame :=
  if !(frame.externalClauseState matches .awaitingLanguageTargetFromExternal
      | .awaitingLanguageTargetImplicit) then frame
  else if isWhitespace c then frame
  else if frame.externalClauseState = .awaitingLanguageTargetImplicit
      && (c = '"' || c = '\x60') then
    { frame with externalClauseState := .none }
  else if ":=+*%<>|,.()[]\x7b\x7d".toList.contains c || (c = '-' && next ≠ some '-')
      || (c = '/' && next ≠ some '*') then
    frame.inClause .none
  else frame

def finalizeExternalClauseOnSemicolon (allowImplicitTargetSplit : Bool) : RoutineFrame :=
  match frame.externalClauseState with
  | .sawExternalKeyword | .awaitingLanguageTargetFromExternal | .sawUsingClauseSubject
  | .sawMleKeyword => frame.markExternalClause
  | .sawImplicitQuotedLanguageTarget =>
    if allowImplicitTargetSplit then
      { frame.markImplicitLanguageTargetOnSemicolon with implicitLanguageTargetIsQuoted := true }
    else frame.inClause .none
  | .sawImplicitLanguageTarget | .awaitingLanguageTargetImplicit =>
    if allowImplicitTargetSplit then frame.markImplicitLanguageTargetOnSemicolon
    else { frame with externalClauseState := .none }
  | .none | .confirmed => frame

end RoutineFrame

/-! ### States of a statement -/

inductive WithDeclarationState
  | collectingDeclaration | awaitingMainQuery
  deriving DecidableEq

/-- Where a `WITH` stands. -/
inductive WithClauseState
  | none
  | pendingClause
  | inPlsqlDeclaration (state : WithDeclarationState)
  deriving DecidableEq

inductive TopLevelTokenState
  | noneSeen | seen
  deriving DecidableEq

inductive TimingPointState
  | none | awaitingAsOrIs
  deriving DecidableEq

inductive BeginState
  | none | afterDeclare
  deriving DecidableEq

inductive AsIsState
  | none | awaitingNestedSubprogram
  deriving DecidableEq

inductive AsIsFollowState
  | none | awaitingTypeDeclarativeKind
  deriving DecidableEq

inductive AsIsBlockStart
  | none | regular | timingPoint
  deriving DecidableEq

/-- Where a `CREATE` stands. -/
inductive CreateState
  | none | awaitingObjectType | awaitingJavaTarget | awaitingMleTarget
  deriving DecidableEq

inductive TriggerKind
  | simple | compound
  deriving DecidableEq

/-- What a `CREATE` makes. -/
inductive CreatePlsqlKind
  | none
  | procedure
  | function
  | package
  | packageBody
  | typeSpecAwaitingBody
  | typeSpec
  | typeBody
  | trigger (kind : TriggerKind)
  | javaSource
  | mleModule
  | wrapped
  deriving DecidableEq

inductive EndResolutionPolicy
  | keepCreateState | resetCreateStateWhenTopLevel
  deriving DecidableEq

inductive PlainEndParentClosure
  | none | nestedSubprogramDeclaration | adjacentAsIsParent
  deriving DecidableEq

/-! ### Symbols -/

inductive IfSymbolEvent
  | whitespace | openParen | dot | other
  deriving DecidableEq

def IfSymbolEvent.fromChar (c : Char) : IfSymbolEvent :=
  if isWhitespace c then .whitespace
  else if c = '(' then .openParen
  else if c = '.' then .dot
  else .other

/-- What a symbol is. -/
inductive SymbolRole
  | semicolon | pendingEndSeparator | openParen | closeParen | other
  deriving DecidableEq

def SymbolRole.fromChar (c : Char) (next : Option Char) : SymbolRole :=
  if c = ';' then .semicolon
  else if c = '(' then .openParen
  else if c = ')' then .closeParen
  else if ",]\x7d+*%=<>|".toList.contains c || (c = '-' && next ≠ some '-')
      || (c = '/' && next ≠ some '*') then .pendingEndSeparator
  else .other

def SymbolRole.resolvesPendingEnd (role : SymbolRole) : Bool :=
  role matches .pendingEndSeparator | .closeParen

/-- What `;` does. -/
inductive SemicolonAction
  | appendToCurrent | splitTopLevel | splitForcedRoutine | closeRoutineBlock
  deriving DecidableEq

/-- The semicolon ends the statement and is not part of it. -/
def SemicolonAction.splits (action : SemicolonAction) : Bool :=
  action matches .splitTopLevel | .splitForcedRoutine

/-! ### Lines -/

/-- The lines that start with `/`. -/
inductive SlashLineKind
  | pureTerminator | blockComment | lineComment | sqlPlusRemark
  deriving DecidableEq

def SlashLineKind.consumesAsTerminator (kind : SlashLineKind) : Bool :=
  kind matches .pureTerminator | .blockComment | .sqlPlusRemark

/-- The loop of `classify_line_leading_slash_marker` over block comments behind the slash. -/
def slashMarkerLoop : ℕ → List Char → Option SlashLineKind
  | 0, _ => none
  | fuel + 1, rest =>
    (stripPrefix "/*".toList rest).bind fun afterBlockComment =>
      (afterFind "*/".toList afterBlockComment).bind fun rest =>
        let rest := trimStart rest
        if rest.isEmpty then some .blockComment
        else if "--".toList.isPrefixOf rest || isSqlplusRemarkCommentLine rest then
          some .pureTerminator
        else slashMarkerLoop fuel rest

variable (line : List Char)

def classifyLineLeadingSlashMarker : Option SlashLineKind :=
  (stripPrefix ['/'] (trimStart line)).bind fun rest =>
    let rest := trimStart rest
    if rest.isEmpty then some .pureTerminator
    else if "--".toList.isPrefixOf rest then some .lineComment
    else if isSqlplusRemarkCommentLine rest then some .sqlPlusRemark
    else slashMarkerLoop rest.length rest

def lineStartsWithConsumedSlashTerminator : Bool :=
  (classifyLineLeadingSlashMarker line).any SlashLineKind.consumesAsTerminator

def isBareSlashTerminatorLine : Bool := trim line = ['/']

/-- How a line starts. -/
inductive LineLeadingMarker
  | none
  | runScriptAt
  | bangHost
  | openParen
  | slash (kind : SlashLineKind)
  deriving DecidableEq

/-- The start of a line behind its leading block comments, if they are closed. -/
def skipLeadingBlockComments : ℕ → List Char → Option (List Char)
  | 0, text => some text
  | fuel + 1, text =>
    match stripPrefix "/*".toList text with
    | none => some text
    | some blockBody =>
      (afterFind "*/".toList blockBody).bind fun rest =>
        skipLeadingBlockComments fuel (trimStart rest)

/-- `LineLeadingMarker::from_line`. -/
def classifyLineLeadingMarker : LineLeadingMarker :=
  let trimmed := trimStart line
  match skipLeadingBlockComments trimmed.length trimmed with
  | none => .none
  | some trimmed =>
    match trimmed.head? with
    | some '@' => .runScriptAt
    | some '!' => .bangHost
    | some '(' => .openParen
    | some '/' =>
      match classifyLineLeadingSlashMarker trimmed with
      | some kind => .slash kind
      | none => .none
    | _ => .none

/-- What a new line does. -/
inductive LineBoundaryAction
  | none | splitBeforeLine | splitAndConsumeLine | consumeLine
  deriving DecidableEq

end SpaceQuery.Splitter
