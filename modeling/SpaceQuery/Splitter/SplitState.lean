import SpaceQuery.Splitter.Boundary

/-!
The state of the statement splitter, from `state.rs`. What it knows about the statement, its
blocks and its clauses is `StatementState`; `SplitState` adds the mode of the lexer, which
the words of a statement leave alone except where foreign source starts.

Stacks have their top in front.
-/

namespace SpaceQuery.Splitter

open RustText SqlText

/-- What is known of the current statement. -/
structure StatementState where
  mysqlMode : Bool := false
  blockStack : List BlockKind := []
  pendingEnd : PendingEnd := .none
  ifState : IfState := .none
  pendingDo : PendingDo := .none
  token : List Char := []
  tokenPrefixedWithDollar : Bool := false
  createPlsqlKind : CreatePlsqlKind := .none
  createState : CreateState := .none
  beginState : BeginState := .none
  asIsFollowState : AsIsFollowState := .none
  asIsState : AsIsState := .none
  pendingSubprogramBegins : ℕ := 0
  routineBodyBlockJustOpened : Bool := false
  sqlMacroCallSpecArmed : Bool := false
  routineIsStack : List RoutineFrame := []
  timingPointState : TimingPointState := .none
  sawCompoundKeyword : Bool := false
  sawTriggerAliasSubject : Bool := false
  packageBodyNameSegments : List String := []
  awaitingPackageBodyName : Bool := false
  awaitingPackageBodyNameDot : Bool := false
  sawMleLanguageMarker : Bool := false
  foreignSourceAtLineStart : Bool := false
  parenStack : List Char := []
  withClauseState : WithClauseState := .none
  withPlsqlDeclarationStartsRoutineBody : Bool := false
  topLevelTokenState : TopLevelTokenState := .noneSeen
  quotedIdentifierBuf : List Char := []
  pendingImplicitExternalTopLevelSplit : Bool := false
  pendingEndLabelSegments : List String := []
  skipNextEndLabelToken : Bool := false
  deriving DecidableEq

namespace StatementState

variable (s : StatementState)

/-! ### What the state is -/

def parenDepth : ℕ := s.parenStack.length

def blockDepth : ℕ := s.blockStack.length

/-- Neither in a block nor in parentheses. -/
def atTopLevel : Bool := s.blockDepth = 0 && s.parenDepth = 0

def topIsCase : Bool := s.blockStack.head? = some .case

def inWithPlsqlDeclaration : Bool := s.withClauseState matches .inPlsqlDeclaration _

def withClauseWaitingMainQuery : Bool :=
  s.withClauseState = .inPlsqlDeclaration .awaitingMainQuery

def collectingWithPlsqlRoutineDeclaration : Bool :=
  s.withPlsqlDeclarationStartsRoutineBody
    && s.withClauseState = .inPlsqlDeclaration .collectingDeclaration

def inCreatePlsql : Bool := s.createPlsqlKind ≠ .none

def isTrigger : Bool := s.createPlsqlKind matches .trigger _

def inCompoundTrigger : Bool := s.createPlsqlKind = .trigger .compound

def inJavaSourceCreate : Bool := s.createPlsqlKind = .javaSource

def inMleModuleCreate : Bool := s.createPlsqlKind = .mleModule

def inWrappedCreate : Bool := s.createPlsqlKind = .wrapped

def allowsInlineForeignSource : Bool := s.sawMleLanguageMarker

def keepSemicolonsInsideCreateBody : Bool :=
  s.inJavaSourceCreate || s.inWrappedCreate || s.inMleModuleCreate

def typeAsIsAwaitsDeclarativeKind : Bool :=
  s.createPlsqlKind matches .typeSpecAwaitingBody | .typeSpec

def needsNestedBeginTracking : Bool := s.createPlsqlKind matches .packageBody | .typeBody

def allowTimingPointEndSuffix : Bool :=
  s.inCompoundTrigger
    && (s.blockStack.find? fun kind => !(kind matches .begin | .declare)) = some .timingPoint

def hasNonCaseBlockContext : Bool := s.blockStack.any (· ≠ .case)

def packageBodyInitEndContext : Bool :=
  s.createPlsqlKind = .packageBody && s.pendingSubprogramBegins = 0
    && (s.blockStack = [.asIs] || s.blockStack = [.begin, .asIs])

/-! ### Routines -/

def activeRoutineFrame : Option RoutineFrame :=
  s.routineIsStack.head?.filter (·.blockDepth = s.blockDepth)

/-- The active frame is changed, if there is one. -/
def modifyActiveRoutineFrame (f : RoutineFrame → RoutineFrame) : StatementState :=
  match s.routineIsStack with
  | frame :: rest =>
    if frame.blockDepth = s.blockDepth then { s with routineIsStack := f frame :: rest } else s
  | [] => s

def shouldSplitOnSemicolon : Bool :=
  s.routineIsStack.head?.any (·.shouldSplitOnSemicolon s.blockDepth)

def shouldCloseRoutineBlockOnSemicolon : Bool :=
  s.routineIsStack.head?.any (·.shouldCloseRoutineBlockOnSemicolon s.blockDepth)

def canTerminateOnSlash : Bool :=
  s.blockDepth = 0 || s.pendingImplicitExternalTopLevelSplit
    || (s.parenDepth = 0 && s.shouldSplitOnSemicolon)

variable (token : String)

def shouldSplitBeforeExternalBeginBlock : Bool :=
  token = "BEGIN" && s.blockDepth = 1 && s.parenDepth = 0 && (s.shouldSplitOnSemicolon
      || s.activeRoutineFrame.any (·.pendingExternalClauseRequiresTopLevelSplit))

def shouldSplitBeforeExternalStatementHead : Bool :=
  s.blockDepth = 1 && s.parenDepth = 0
    && isStatementHeadKeyword token && !isExternalLanguageClauseKeyword token
    && !isExternalLanguageTargetKeyword token
    && (s.shouldSplitOnSemicolon
      || s.activeRoutineFrame.any (·.pendingExternalClauseRequiresTopLevelSplit))

def shouldSplitBeginAfterImplicitExternalSemicolon : Bool :=
  token = "BEGIN" && s.blockDepth = 1 && s.parenDepth = 0
    && s.pendingImplicitExternalTopLevelSplit && s.createPlsqlKind = .function
    && s.activeRoutineFrame.any fun frame =>
      frame.semicolonPolicy = .awaitingImplicitTopLevelDecision
        && !frame.shouldDeferBeginSplitAfterImplicitSemicolon

def shouldSplitBeforeNewStatementHead : Bool :=
  s.blockDepth = 1 && s.parenDepth = 0 && s.activeRoutineFrame.any fun frame =>
      frame.hasPendingExternalClause || frame.shouldSplitOnSemicolon s.blockDepth

/-- Whether tokens and literals are watched for the clause of an external routine. -/
def tracksExternalClause : Bool :=
  s.blockDepth > 1 || (s.createPlsqlKind matches .procedure | .function)

def handleRoutineIsExternal : StatementState :=
  if s.tracksExternalClause then
    let allowImplicitLanguage := s.blockDepth > 1
      || (s.blockDepth = 1 && (s.createPlsqlKind matches .function | .procedure))
    s.modifyActiveRoutineFrame (·.observeExternalClauseToken token allowImplicitLanguage)
  else s

def observeExternalClauseLiteralTarget (allowImplicitTarget : Bool) : StatementState :=
  if s.tracksExternalClause then
    s.modifyActiveRoutineFrame (·.observeExternalClauseLiteralTarget allowImplicitTarget)
  else s

def observeExternalClauseQuotedIdentifierTarget : StatementState :=
  if s.tracksExternalClause then
    s.modifyActiveRoutineFrame (·.observeExternalClauseQuotedIdentifierTarget)
  else s

def observeExternalClauseSymbol (c : Char) (next : Option Char) : StatementState :=
  s.modifyActiveRoutineFrame (·.observeExternalClauseSymbol c next)

def allowImplicitExternalLiteralTarget : Bool :=
  s.activeRoutineFrame.any (·.externalClauseState = .awaitingLanguageTargetImplicit)

def allowExternalDollarQuoteLiteralStart : Bool :=
  s.activeRoutineFrame.any fun frame =>
    frame.externalClauseState matches .awaitingLanguageTargetFromExternal
      | .awaitingLanguageTargetImplicit | .sawImplicitQuotedLanguageTarget
      | .sawImplicitLanguageTarget | .confirmed

def finalizeExternalClauseOnSemicolon : StatementState :=
  let allowImplicitTargetSplit := s.blockDepth = 1 || s.createPlsqlKind ≠ .packageBody
  let s := s.modifyActiveRoutineFrame
    (·.finalizeExternalClauseOnSemicolon allowImplicitTargetSplit)
  if s.activeRoutineFrame.any fun frame =>
      frame.semicolonPolicy = .awaitingImplicitTopLevelDecision && frame.blockDepth = 1 then
    { s with pendingImplicitExternalTopLevelSplit := true }
  else s

def closeExternalRoutineOnSemicolon : StatementState :=
  if !s.shouldCloseRoutineBlockOnSemicolon then s
  else
    { s with
      routineIsStack := s.routineIsStack.tail
      pendingSubprogramBegins := s.pendingSubprogramBegins - 1
      -- the innermost `AS` or `IS`, wherever it stands
      blockStack := s.blockStack.erase .asIs }

/-! ### `END` -/

def packageBodyEndLabelMatches : Bool :=
  s.packageBodyNameSegments.getLast? = some token

def outerInitializerEndClosesAsIs : Bool :=
  s.blockDepth = 2 && s.createPlsqlKind = .packageBody
    && (s.packageBodyEndLabelMatches token || token.isEmpty)

def plainEndParentClosure : PlainEndParentClosure :=
  match s.blockStack with
  | .declare :: .asIs :: _ =>
    if s.activeRoutineFrame.isSome then .nestedSubprogramDeclaration else .none
  | .begin :: .asIs :: _ =>
    if s.createPlsqlKind = .packageBody then
      if s.outerInitializerEndClosesAsIs token then .adjacentAsIsParent else .none
    else .adjacentAsIsParent
  | _ => .none

def resolvePlainEnd : StatementState :=
  match s.plainEndParentClosure token with
  | .none => { s with blockStack := s.blockStack.tail }
  | .adjacentAsIsParent => { s with blockStack := s.blockStack.tail.tail }
  | .nestedSubprogramDeclaration =>
    { s with
      blockStack := s.blockStack.tail.tail
      pendingSubprogramBegins := s.pendingSubprogramBegins - 1 }

/-- The pending `END` is resolved. -/
def withoutPendingEnd : StatementState :=
  { s with pendingEnd := .none, pendingEndLabelSegments := [] }

def pushPendingEndLabelSegment : StatementState :=
  if token.isEmpty then s
  else { s with pendingEndLabelSegments := s.pendingEndLabelSegments ++ [token] }

def packageBodyEndLabelSegmentsMatch : Bool :=
  let expected := s.packageBodyNameSegments
  let actual := s.pendingEndLabelSegments
  -- a label with several segments is compared as a whole first, then by its last one
  !expected.isEmpty && (actual.isEmpty || actual = expected || actual.getLast? = expected.getLast?)

def resetCreateTrackingState : StatementState :=
  { s with
    createPlsqlKind := .none
    createState := .none
    packageBodyNameSegments := []
    awaitingPackageBodyName := false
    awaitingPackageBodyNameDot := false
    asIsFollowState := .none
    beginState := .none
    asIsState := .none
    pendingSubprogramBegins := 0
    routineBodyBlockJustOpened := false
    sqlMacroCallSpecArmed := false
    routineIsStack := []
    timingPointState := .none
    sawCompoundKeyword := false
    sawTriggerAliasSubject := false
    sawMleLanguageMarker := false
    foreignSourceAtLineStart := false }

def resolvePendingEndWithPolicy (policy : EndResolutionPolicy) : StatementState :=
  if s.pendingEnd ≠ .end then s
  else
    let pendingEndLabel :=
      if s.packageBodyInitEndContext && !s.packageBodyEndLabelSegmentsMatch then
        s.pendingEndLabelSegments.head?.getD ""
      else s.pendingEndLabelSegments.getLast?.getD ""
    let s := s.resolvePlainEnd pendingEndLabel
    let s :=
      if policy = .resetCreateStateWhenTopLevel && s.blockDepth = 0 && !s.inWithPlsqlDeclaration
      then s.resetCreateTrackingState
      else s
    s.withoutPendingEnd

def resolvePendingEndOnSeparator : StatementState :=
  if s.packageBodyInitEndContext && !s.pendingEndLabelSegments.isEmpty then s
  else s.resolvePendingEndWithPolicy .keepCreateState

def resolvePendingEndOnSeparatorWithToken : StatementState :=
  if s.pendingEnd ≠ .end then s
  else if s.packageBodyInitEndContext then s.pushPendingEndLabelSegment token
  else (s.resolvePlainEnd token).withoutPendingEnd

/-- `resolve_pending_end_on_terminator` and `resolve_pending_end_on_eof`. -/
def resolvePendingEndOnTerminator : StatementState :=
  s.resolvePendingEndWithPolicy .resetCreateStateWhenTopLevel

/-- The top block is closed if it is of one of the kinds. -/
def popTopMatchingBlock (kinds : List BlockKind) : StatementState × Bool :=
  match s.blockStack with
  | top :: rest => if kinds.contains top then ({ s with blockStack := rest }, true) else (s, false)
  | [] => (s, false)

def popTimingPointBlock : StatementState × Bool :=
  if s.blockStack.contains .timingPoint then
    ({ s with blockStack := (s.blockStack.dropWhile (· ≠ .timingPoint)).tail }, true)
  else (s, false)

/-- `PendingEndSuffix::apply_to_state`, with whether a block was closed. -/
def applyEndSuffix : PendingEndSuffix → StatementState × Bool
  | .case => s.popTopMatchingBlock [.case]
  | .if => s.popTopMatchingBlock [.if]
  | .loop => s.popTopMatchingBlock [.loop]
  | .while => s.popTopMatchingBlock [.while, .loop]
  | .repeat => s.popTopMatchingBlock [.repeat]
  | .for => s.popTopMatchingBlock [.for, .loop]
  | .timingPoint =>
    let (s, popped) := s.popTimingPointBlock
    ({ s with timingPointState := .none }, popped)

def pendingEndSuffixTokenShouldBeTreatedAsLabel : Bool :=
  !token.isEmpty && match s.blockStack with
      | .begin :: .asIs :: _ => s.blockDepth ≤ 2
      | .asIs :: _ =>
        s.createPlsqlKind = .packageBody && s.blockDepth ≤ 2 && s.packageBodyEndLabelMatches token
      | .declare :: .asIs :: _ => s.pendingSubprogramBegins > 0
      | _ => false

/-- The state behind a resolved `END`, with whether labels are skipped. -/
def withEndResolved (skipsLabels : Bool) : StatementState :=
  { s.withoutPendingEnd with skipNextEndLabelToken := skipsLabels }

/-- `handle_pending_end_on_token`, with whether the token is a label of the `END`. -/
def handlePendingEndOnToken (suffix : Option PendingEndSuffix) : StatementState × Bool :=
  if s.pendingEnd ≠ .end then (s, false)
  else if s.packageBodyInitEndContext then (s.pushPendingEndLabelSegment token, true)
  else
    match suffix with
    | some suffix =>
      let topIsCaseBeforeSuffix := s.topIsCase
      let (s, closedBlock) := s.applyEndSuffix suffix
      if topIsCaseBeforeSuffix && suffix ≠ .case then
        ((s.resolvePlainEnd "").withEndResolved false, false)
      else
        let treatAsLabel :=
          !closedBlock && s.pendingEndSuffixTokenShouldBeTreatedAsLabel token
        let s := if treatAsLabel && !s.topIsCase then s.resolvePlainEnd token else s
        (s.withEndResolved true, true)
    | none =>
      if token = "END" then
        ({ (s.resolvePlainEnd "").withEndResolved false with pendingEnd := .end }, true)
      else
        let closedCaseExpression := s.topIsCase
        ((s.resolvePlainEnd token).withEndResolved (!closedCaseExpression), !closedCaseExpression)

/-! ### Words -/

def handleIfStateOnToken : StatementState :=
  if s.ifState = .expectConditionStart && token ≠ "IF" then { s with ifState := .awaitingThen }
  else s

variable (role : Option PendingEndSuffix)

def shouldArmIfBlock : Bool :=
  role ≠ some .if && (s.topLevelTokenState = .noneSeen || s.hasNonCaseBlockContext)

def shouldArmLoopBlock : Bool :=
  role ≠ some .loop
    && (s.topLevelTokenState = .noneSeen || s.pendingDo ≠ .none || s.hasNonCaseBlockContext)

def shouldArmRepeatBlock : Bool :=
  role ≠ some .repeat && (s.topLevelTokenState = .noneSeen || s.hasNonCaseBlockContext)

def pushBlock (kind : BlockKind) : StatementState := { s with blockStack := kind :: s.blockStack }

/-- A frame for a routine whose body the block on top of the stack is. -/
def pushRoutineFrame : StatementState :=
  { s with
    routineIsStack := { blockDepth := s.blockDepth } :: s.routineIsStack
    pendingSubprogramBegins := s.pendingSubprogramBegins + 1 }

/-- `AsIsBlockStart::from_token`. -/
def asIsBlockStart : AsIsBlockStart :=
  if !(token matches "AS" | "IS") then .none
  else if s.parenDepth ≠ 0 then .none
  else if s.timingPointState = .awaitingAsOrIs then .timingPoint
  else if s.isTrigger && !s.inCompoundTrigger && s.blockDepth = 0 && s.sawTriggerAliasSubject then
    .none
  else if s.asIsState = .awaitingNestedSubprogram
      || (s.collectingWithPlsqlRoutineDeclaration && s.blockDepth = 0)
      || (s.inCreatePlsql && !s.inJavaSourceCreate && !s.inMleModuleCreate && s.blockDepth = 0)
  then .regular
  else .none

/-- The first part of `handle_block_openers`: the words about triggers. -/
def trackTriggerWords : StatementState :=
  let s :=
    if s.isTrigger && !s.inCompoundTrigger && s.blockDepth = 0 then
      if token matches "NEW" | "OLD" | "PARENT" then { s with sawTriggerAliasSubject := true }
      else if !(token matches "AS" | "IS") then { s with sawTriggerAliasSubject := false }
      else s
    else { s with sawTriggerAliasSubject := false }
  if s.sawCompoundKeyword && token ≠ "TRIGGER" then { s with sawCompoundKeyword := false } else s

/-- The part about `CASE`, `IF`, `LOOP`, `REPEAT`, `WHILE`, `FOR` and `DO`. -/
def openControlBlocks (role : Option PendingEndSuffix) : StatementState :=
  let s := if token = "CASE" && role ≠ some .case then s.pushBlock .case else s
  let s :=
    if token = "IF" && s.parenDepth = 0 && s.shouldArmIfBlock role then
      { s with ifState := .expectConditionStart }
    else s
  let s :=
    if token = "THEN" && s.ifState = .awaitingThen then { s.pushBlock .if with ifState := .none }
    else s
  let s :=
    if token = "LOOP" && s.shouldArmLoopBlock role then
      { s.pushBlock .loop with pendingDo := .none }
    else s
  let s := if token = "REPEAT" && s.shouldArmRepeatBlock role then s.pushBlock .repeat else s
  let s :=
    if (token matches "WHILE" | "FOR") && s.pendingEnd = .none && role ≠ some .while
        && role ≠ some .for then
      let isTriggerHeaderFor := token = "FOR" && s.inCreatePlsql && s.isTrigger && s.blockDepth = 0
      if isTriggerHeaderFor then s
      else { s with pendingDo := s.pendingDo.armForToken token s.blockDepth }
    else s
  if token = "DO" then
    match s.pendingDo.resolveDo s.blockDepth with
    | some kind => { s.pushBlock kind with pendingDo := .none }
    | none => { s with pendingDo := .none }
  else s

/-- The part about the bodies of triggers and the kinds of types. -/
def trackRoutineBodies : StatementState :=
  let s :=
    if token = "CALL" && s.isTrigger && !s.inCompoundTrigger && s.blockDepth = 1
        && s.blockStack.head? = some .asIs && s.pendingSubprogramBegins > 0 then
      { s.modifyActiveRoutineFrame ({ · with semicolonPolicy := .forceSplit }) with
        pendingSubprogramBegins := 0 }
    else s
  let s :=
    if token = "BEGIN" && s.timingPointState = .awaitingAsOrIs && s.inCompoundTrigger then
      { s.pushBlock .timingPoint with
        asIsState := .none, timingPointState := .none }.pushRoutineFrame
    else s
  let s :=
    -- every word but `BODY` is the kind of a type, so the block of the `AS` is undone
    if s.asIsFollowState = .awaitingTypeDeclarativeKind && token ≠ "BODY" then
      { s with blockStack := s.blockStack.tail, asIsFollowState := .none }
    else s
  if s.blockDepth > 0 && (token matches "PROCEDURE" | "FUNCTION") then
    { s with asIsState := .awaitingNestedSubprogram }
  else s

/-- The part that opens the block of an `AS` or `IS`. -/
def openAsIsBlock (start : AsIsBlockStart) : StatementState :=
  let s := s.pushBlock (if start = .timingPoint then .timingPoint else .asIs)
  let s :=
    if s.typeAsIsAwaitsDeclarativeKind && s.asIsState ≠ .awaitingNestedSubprogram
        && start ≠ .timingPoint then
      { s with asIsFollowState := .awaitingTypeDeclarativeKind }
    else s
  let s := { s with asIsState := .none, timingPointState := .none }
  if !s.needsNestedBeginTracking || s.blockDepth > 1 then
    { s.pushRoutineFrame with routineBodyBlockJustOpened := true }
  else s

def openBeginBlock : StatementState :=
  if s.routineIsStack.head?.any (·.blockDepth = s.blockDepth) then
    { s with
      routineIsStack := s.routineIsStack.tail
      pendingSubprogramBegins := s.pendingSubprogramBegins - 1 }
  else if s.beginState = .afterDeclare then { s with beginState := .none }
  else s.pushBlock .begin

def handleBlockOpeners (role : Option PendingEndSuffix) : StatementState :=
  let s := s.trackTriggerWords token
  let s := s.openControlBlocks token role
  let s := s.trackRoutineBodies token
  let start := s.asIsBlockStart token
  if start ≠ .none then s.openAsIsBlock start
  else if token = "DECLARE" then
    if s.mysqlMode && s.blockDepth > 0 then s
    else { s.pushBlock .declare with beginState := .afterDeclare }
  else if token = "BEGIN" then s.openBeginBlock
  else if token = "END" then { s with pendingEnd := .end }
  else if token = "COMPOUND" && s.isTrigger && s.blockDepth = 0 then
    { s with sawCompoundKeyword := true }
  else if token = "TRIGGER" && s.sawCompoundKeyword && s.isTrigger && s.blockDepth = 0 then
    { s.pushBlock .compound with
      createPlsqlKind := .trigger .compound, sawCompoundKeyword := false }
  else if (token matches "BEFORE" | "AFTER" | "INSTEAD") && s.inCompoundTrigger
      && s.blockStack.head? = some .compound && role ≠ some .timingPoint then
    { s with timingPointState := .awaitingAsOrIs }
  else s

/-- The words between `CREATE` and the kind of the object. -/
def isCreateModifier : Bool :=
  token matches "OR" | "NO" | "FORCE" | "NOFORCE" | "REPLACE" | "AND" | "COMPILE" | "RESOLVE"
    | "NORESOLVE" | "DEBUG" | "NODEBUG" | "IF" | "NOT" | "EXISTS" | "EDITIONABLE"
    | "NONEDITIONABLE" | "EDITIONING" | "NONEDITIONING" | "FORWARD" | "REVERSE" | "CROSSEDITION"
    | "SHARING" | "METADATA" | "DATA" | "EXTENDED" | "NONE" | "IMMUTABLE"

/-- `track_create_plsql` on the word behind `CREATE` and its modifiers. -/
def trackCreateObjectType : StatementState :=
  if isCreateModifier token then s
  -- the modifiers of members are skipped inside a type body only, which is never the case here
  else if s.createPlsqlKind = .typeBody && (token matches "MEMBER" | "STATIC" | "CONSTRUCTOR"
      | "MAP" | "ORDER" | "FINAL" | "INSTANTIABLE" | "OVERRIDING") then s
  else
    match token with
    | "JAVA" => { s with createState := .awaitingJavaTarget }
    | "MLE" => { s with createState := .awaitingMleTarget }
    | "PROCEDURE" => { s with createPlsqlKind := .procedure, createState := .none }
    | "FUNCTION" => { s with createPlsqlKind := .function, createState := .none }
    | "PACKAGE" => { s with createPlsqlKind := .package, createState := .none }
    | "TYPE" => { s with createPlsqlKind := .typeSpecAwaitingBody, createState := .none }
    | "TRIGGER" => { s with createPlsqlKind := .trigger .simple, createState := .none }
    | "CREATE" => { s with createState := .awaitingObjectType }
    | _ => { s with createState := .none }

/-- `track_create_plsql` inside the statement that creates a unit. -/
def trackCreateUnit : StatementState :=
  if s.blockDepth = 0 && s.createPlsqlKind = .package && token = "BODY" then
    { s with
      createPlsqlKind := .packageBody
      packageBodyNameSegments := []
      awaitingPackageBodyName := true
      awaitingPackageBodyNameDot := false }
  else
    let s :=
      if s.blockDepth = 0 && s.createPlsqlKind = .packageBody && s.awaitingPackageBodyName then
        if token matches "AS" | "IS" then
          { s with awaitingPackageBodyName := false, awaitingPackageBodyNameDot := false }
        else if s.packageBodyNameSegments.isEmpty || s.awaitingPackageBodyNameDot then
          { s with
            packageBodyNameSegments := s.packageBodyNameSegments ++ [token]
            awaitingPackageBodyNameDot := false }
        else s
      else s
    if s.blockDepth = 0 && token = "WRAPPED" then
      { s with createPlsqlKind := .wrapped, createState := .none }
    else s

def trackCreatePlsql : StatementState :=
  if s.blockDepth > 0 && !s.inCreatePlsql && s.createState = .none then s
  else if s.createPlsqlKind = .typeSpecAwaitingBody && token = "BODY" then
    { s with createPlsqlKind := .typeBody }
  else
    let s :=
      if s.createPlsqlKind = .typeSpecAwaitingBody then { s with createPlsqlKind := .typeSpec }
      else s
    if s.inCreatePlsql then s.trackCreateUnit token
    else
      match s.createState with
      | .awaitingMleTarget =>
        if token = "MODULE" then { s with createState := .none, createPlsqlKind := .mleModule }
        else { s with createState := .none }
      | .awaitingJavaTarget =>
        match token with
        | "SOURCE" => { s with createPlsqlKind := .javaSource, createState := .none }
        | "CREATE" => { s with createState := .awaitingObjectType }
        | _ => { s with createState := .none }
      | .awaitingObjectType => s.trackCreateObjectType token
      | .none => if token = "CREATE" then { s with createState := .awaitingObjectType } else s

def trackSqlMacroCallSpec (followsRoutineBodyBlockOpen : Bool) : StatementState :=
  { s with sqlMacroCallSpecArmed := token = "SQL_MACRO" && followsRoutineBodyBlockOpen }

def confirmSqlMacroCallSpecOnTerminator : StatementState :=
  if s.sqlMacroCallSpecArmed then
    { s with sqlMacroCallSpecArmed := false }.modifyActiveRoutineFrame (·.markExternalClause)
  else s

/-- The statement is in no `WITH` clause. -/
def leaveWithClause : StatementState :=
  { s with withClauseState := .none, withPlsqlDeclarationStartsRoutineBody := false }

def trackTopLevelWithPlsql (atStatementStart : Bool) : StatementState :=
  if !s.atTopLevel then s
  else if token = "WITH" && (atStatementStart || s.withClauseState = .none) then
    { s with withClauseState := .pendingClause, withPlsqlDeclarationStartsRoutineBody := false }
  else if s.withClauseState = .none then { s with withPlsqlDeclarationStartsRoutineBody := false }
  else if isWithPlsqlDeclarationKeyword token then
    { s with
      withPlsqlDeclarationStartsRoutineBody := SqlText.withPlsqlDeclarationStartsRoutineBody token
      withClauseState := .inPlsqlDeclaration .collectingDeclaration }
  else if s.withClauseState = .pendingClause && isWithNonPlsqlClauseKeyword token then
    s.leaveWithClause
  else if token = "AS" && s.withClauseState = .pendingClause then s.leaveWithClause
  else if isWithMainQueryKeyword token
      && s.withClauseState ≠ .inPlsqlDeclaration .collectingDeclaration then s.leaveWithClause
  else s

/-- `flush_token` without the start of foreign source: the handlers of a word. -/
def handleToken : StatementState :=
  let atStatementStart := s.atTopLevel && s.topLevelTokenState = .noneSeen
  let followsRoutineBodyBlockOpen := s.routineBodyBlockJustOpened
  let s := { s with routineBodyBlockJustOpened := false }
  let s := s.handleRoutineIsExternal token
  let s := s.trackCreatePlsql token
  let s := s.trackSqlMacroCallSpec token followsRoutineBodyBlockOpen
  let s := s.trackTopLevelWithPlsql token atStatementStart
  if s.tokenPrefixedWithDollar || (s.skipNextEndLabelToken && s.pendingEnd = .none) then s
  else
    let role := endTokenRole token s.pendingEnd s.allowTimingPointEndSuffix
    let s := s.handleIfStateOnToken token
    let (s, consumeAsEndLabel) := s.handlePendingEndOnToken token role
    if consumeAsEndLabel then s
    else s.handleBlockOpeners token (endTokenRole token s.pendingEnd s.allowTimingPointEndSuffix)

/-! ### Symbols -/

variable (c : Char)

def trackWithMainQuerySymbol : StatementState :=
  if s.withClauseWaitingMainQuery && s.atTopLevel && c = '(' then s.leaveWithClause else s

def trackCreatePlsqlSymbol : StatementState :=
  if s.blockDepth = 0 && s.createPlsqlKind = .packageBody && s.awaitingPackageBodyName then
    let keepsAwaitingSegmentAfterDot :=
      s.awaitingPackageBodyNameDot && (c = '/' || c = '*' || c = '-')
    if c = '.' && !s.packageBodyNameSegments.isEmpty then
      { s with awaitingPackageBodyNameDot := true }
    else if !isWhitespace c && !keepsAwaitingSegmentAfterDot then
      { s with awaitingPackageBodyNameDot := false }
    else s
  else s

/-- The condition of an `IF` on a symbol. -/
def trackIfSymbol (role : SymbolRole) : StatementState :=
  let s :=
    if s.ifState = .expectConditionStart then
      match IfSymbolEvent.fromChar c with
      | .whitespace => s
      | .openParen => { s with ifState := .inConditionParen (s.parenDepth + 1) }
      | .dot => { s with ifState := .none }
      | .other => { s with ifState := .awaitingThen }
    else s
  if role = .closeParen && s.ifState = .inConditionParen s.parenDepth then
    { s with ifState := .awaitingThen }
  else s

def pushOpenParen : StatementState := { s with parenStack := c :: s.parenStack }

def popCloseParen : StatementState :=
  let expectedOpen :=
    match c with
    | ')' => some '('
    | ']' => some '['
    | '}' => some '{'
    | _ => none
  if expectedOpen.isSome && s.parenStack.head? = expectedOpen then
    { s with parenStack := s.parenStack.tail }
  else s

def advanceWithClauseAfterComma : StatementState :=
  if s.inWithPlsqlDeclaration && s.atTopLevel then
    { s with
      withClauseState := .inPlsqlDeclaration .awaitingMainQuery
      withPlsqlDeclarationStartsRoutineBody := false }
  else s

def advanceWithClauseAfterSemicolon : StatementState :=
  if s.inWithPlsqlDeclaration && s.atTopLevel then
    { s with withClauseState := .inPlsqlDeclaration .awaitingMainQuery }
  else if s.withClauseState = .pendingClause && s.atTopLevel then
    { s with withClauseState := .none }
  else s

def clearForwardSubprogramDeclarationStateOnSemicolon : StatementState :=
  if s.asIsState = .awaitingNestedSubprogram then { s with asIsState := .none } else s

/-- `SemicolonAction::from_state`. -/
def semicolonAction : SemicolonAction :=
  if s.keepSemicolonsInsideCreateBody then .appendToCurrent
  else if s.blockDepth = 0 && s.parenDepth = 0 && !s.inWithPlsqlDeclaration then .splitTopLevel
  else if s.parenDepth = 0 && s.shouldSplitOnSemicolon then .splitForcedRoutine
  else if s.parenDepth = 0 && s.shouldCloseRoutineBlockOnSemicolon then .closeRoutineBlock
  else .appendToCurrent

/-- `prepare_semicolon_action`, without the answer of `semicolonAction`. -/
def prepareSemicolon : StatementState :=
  let s := s.confirmSqlMacroCallSpecOnTerminator
  let s := { s with pendingDo := .none }
  let s := s.finalizeExternalClauseOnSemicolon
  let s := s.resolvePendingEndOnTerminator
  let s := s.clearForwardSubprogramDeclarationStateOnSemicolon
  s.advanceWithClauseAfterSemicolon

/-! ### Quoted identifiers -/

def consumeTriggerAliasSubjectOnQuotedIdentifier : StatementState :=
  if s.isTrigger && !s.inCompoundTrigger && s.blockDepth = 0 then
    { s with sawTriggerAliasSubject := false }
  else s

def observeQuotedIdentifier (identifier : String) : StatementState :=
  if s.blockDepth = 0 && s.createPlsqlKind = .packageBody && s.awaitingPackageBodyName
      && (s.packageBodyNameSegments.isEmpty || s.awaitingPackageBodyNameDot) then
    { s with
      packageBodyNameSegments := s.packageBodyNameSegments ++ [identifier]
      awaitingPackageBodyNameDot := false }
  else s

/-- The end of a quoted identifier: `finish_quoted_identifier` and what its callers do. -/
def finishQuotedIdentifier : StatementState :=
  if s.quotedIdentifierBuf.isEmpty then
    if s.pendingEnd = .end then s.resolvePendingEndOnSeparator else s
  else
    let identifier := asciiUppercase s.quotedIdentifierBuf
    let s := { s with quotedIdentifierBuf := [] }.observeQuotedIdentifier identifier
    let s := s.observeExternalClauseQuotedIdentifierTarget
    s.resolvePendingEndOnSeparatorWithToken identifier

/-- The end of a quoted name of another kind. -/
def resolvePendingEndOnQuotedName : StatementState :=
  if s.pendingEnd = .end then s.resolvePendingEndOnSeparator else s

/-! ### Statement boundaries -/

def resetStatementBoundaryState : StatementState :=
  { s with
    pendingEnd := .none
    pendingEndLabelSegments := []
    skipNextEndLabelToken := false
    pendingDo := .none
    ifState := .none
    parenStack := []
    withClauseState := .none
    withPlsqlDeclarationStartsRoutineBody := false
    topLevelTokenState := .noneSeen
    pendingImplicitExternalTopLevelSplit := false }

def resetAfterStatementBoundary : StatementState :=
  s.resetStatementBoundaryState.resetCreateTrackingState

end StatementState

/-! ### The state of the splitter -/

/-- The statement, and where the lexer stands. -/
structure SplitState extends StatementState where
  lexMode : LexMode := .idle
  deriving DecidableEq

namespace SplitState

variable (s : SplitState)

/-- The state with another account of the statement, in the same mode. -/
def withStatement (statement : StatementState) : SplitState :=
  { s with toStatementState := statement }

def isIdle : Bool := s.lexMode = .idle

/-- `track_foreign_source_body`. -/
def trackForeignSourceBody (token : String) : SplitState :=
  if token = "MLE" then { s with sawMleLanguageMarker := true }
  else if s.inMleModuleCreate && token = "AS" && s.atTopLevel then
    { s with lexMode := .foreignModuleSource, foreignSourceAtLineStart := false }
  else s

def flushToken : SplitState :=
  if s.token.isEmpty then s
  else
    let atTopLevel := s.atTopLevel
    let token := asciiUppercase s.token
    let s := (s.withStatement (s.handleToken token)).trackForeignSourceBody token
    { s with
      token := []
      tokenPrefixedWithDollar := false
      topLevelTokenState := if atTopLevel then .seen else s.topLevelTokenState }

def closeForeignModuleSource : SplitState :=
  { s.withStatement s.resetCreateTrackingState with lexMode := .idle }

variable (line : List Char)

def closeForeignModuleSourceOnTerminatorLine : SplitState :=
  if s.lexMode = .foreignModuleSource && isBareSlashTerminatorLine line then
    s.closeForeignModuleSource
  else s

/-- What a marker at the start of a line does to the statement before it. -/
def lineBoundaryAction (marker : LineLeadingMarker) (currentIsEmpty : Bool) :
    LineBoundaryAction :=
  -- a slash that is a terminator of its own is consumed with its line
  let splitAtSlash (kind : SlashLineKind) : LineBoundaryAction :=
    if kind.consumesAsTerminator then .splitAndConsumeLine else .splitBeforeLine
  if marker = .none || !s.token.isEmpty then .none
  else if s.inWithPlsqlDeclaration && s.withClauseWaitingMainQuery && s.blockDepth = 0
      && s.parenDepth = 0 then
    match marker with
    | .runScriptAt | .bangHost | .slash _ => .splitBeforeLine
    | .none | .openParen => .none
  else if s.pendingImplicitExternalTopLevelSplit && s.blockDepth = 1 && s.parenDepth = 0 then
    match marker with
    | .runScriptAt | .bangHost | .openParen => .splitBeforeLine
    | .slash kind => splitAtSlash kind
    | .none => .none
  else
    match marker with
    | .slash kind =>
      if s.blockDepth = 1 && s.parenDepth = 0 && s.shouldSplitOnSemicolon then splitAtSlash kind
      else if s.inCreatePlsql && s.blockDepth = 0 && s.parenDepth = 0 then splitAtSlash kind
      else if currentIsEmpty && s.isIdle && s.blockDepth = 0 && s.parenDepth = 0
          && kind.consumesAsTerminator then .consumeLine
      else .none
    | _ => .none

/-- The first word of a line starts a statement other than a block. -/
def startsStatementHead : Bool :=
  (firstMeaningfulWord line).any fun word =>
    isStatementHeadKeyword (asciiUppercase word) && !eqIgnoreAsciiCase word "BEGIN"

variable (currentIsEmpty : Bool)

def lineBoundaryActionForLine : LineBoundaryAction :=
  let action := s.lineBoundaryAction (classifyLineLeadingMarker line) currentIsEmpty
  if action ≠ .none then action
  else if s.isIdle && s.inWrappedCreate && !currentIsEmpty && s.blockDepth = 0 && s.parenDepth = 0
      && startsStatementHead line then .splitBeforeLine
  else .none

def splitterStatementHeadActionForLine :
    LineBoundaryAction :=
  if !s.isIdle || !s.inCreatePlsql || currentIsEmpty || s.isTrigger then .none
  else if !(s.canTerminateOnSlash || s.pendingEnd = .end) then .none
  else if startsStatementHead line then .splitBeforeLine
  else .none

def splitterLineBoundaryActionForLine :
    LineBoundaryAction :=
  let action := s.lineBoundaryActionForLine line currentIsEmpty
  if action ≠ .none then action
  else
    let statementHeadAction := s.splitterStatementHeadActionForLine line currentIsEmpty
    if statementHeadAction ≠ .none then statementHeadAction
    else
      match classifyLineLeadingMarker line with
      | .slash kind =>
        if s.isIdle && s.parenDepth = 0 && s.canTerminateOnSlash && kind.consumesAsTerminator then
          if currentIsEmpty then .consumeLine else .splitAndConsumeLine
        else .none
      | _ => .none

/-- `prepare_splitter_line_boundary` of the state. -/
def prepareSplitterLineBoundary : SplitState :=
  let s := s.closeForeignModuleSourceOnTerminatorLine line
  match classifyLineLeadingMarker line with
  | .slash kind =>
    if !kind.consumesAsTerminator || !s.isIdle then s
    else
      let s := s.withStatement s.finalizeExternalClauseOnSemicolon
      if s.pendingEnd = .end then s.withStatement s.resolvePendingEndOnTerminator else s
  | _ => s

def resetAfterStatementBoundary : SplitState :=
  s.withStatement s.toStatementState.resetAfterStatementBoundary

def forceResetAll : SplitState :=
  let s := s.flushToken
  let s := s.withStatement s.resolvePendingEndOnTerminator
  let s := s.resetAfterStatementBoundary
  { s with lexMode := .idle, token := [], quotedIdentifierBuf := [], blockStack := [] }

end SplitState

end SpaceQuery.Splitter
