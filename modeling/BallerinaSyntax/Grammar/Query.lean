import BallerinaSyntax.Grammar.Parameter
import BallerinaSyntax.Grammar.Stream

/-! Streaming queries and table queries, clause by clause. -/

namespace BallerinaSyntax.Grammar

open Parse

/-! ## Joins -/

/-- The outer join that a side begins. -/
def joinKindOfSide : Kind → JoinKind
  | .leftKeyword => .leftOuter
  | .rightKeyword => .rightOuter
  | _ => .fullOuter

/-- What is written before `join`; an inner join needs no word. -/
def joinKind : Parse JoinKind := do
  match ← kind 0 with
  | .leftKeyword | .rightKeyword | .fullKeyword =>
    let side ← bump
    let _ ← expect .outerKeyword
    return joinKindOfSide side.kind
  | .outerKeyword =>
    let _ ← bump
    return .outer
  | .innerKeyword =>
    let _ ← bump
    return .inner
  | _ => return .inner

def joinType : Parse JoinType := do
  let m ← mark
  let kind ← joinKind
  let _ ← expect .joinKeyword
  return { info := ← finish m .joinType, kind := kind }

/-- A second stream; `unidirectional` stands before the type of the join or behind it. -/
def joinInput : Parse (Tree .joinInput) := do
  let m ← mark
  let before ← optional .unidirectionalKeyword
  let type ← joinType
  let unidirectional ← if before.isSome then pure before else optional .unidirectionalKeyword
  let input ← streamingInput
  let _ ← expect .onKeyword
  let condition ← expression
  return .joinInput (← finish m .joinStreamingInput) unidirectional type input condition

def optionalJoin : Parse (Tree (.option .joinInput)) :=
  whenever (return startsJoin (← kind 0)) joinInput

/-! ## Selection -/

def selectItem : Parse (Tree .selectItem) := do
  let m ← mark
  let value ← expression
  let asName ← optionalAlias
  return .selectItem (← finish m .selectExpression) value asName

def groupByClause : Parse (Tree .groupByClause) := do
  let m ← mark
  let _ ← bump
  let _ ← expect .byKeyword
  let references ← commaList reference
  return .groupByClause (← finish m .groupByClause) (.ofList references)

def havingClause : Parse (Tree .havingClause) := do
  let m ← mark
  let _ ← bump
  let condition ← expression
  return .havingClause (← finish m .havingClause) condition

def selectClause : Parse (Tree .selectClause) := do
  let m ← mark
  let _ ← bump
  let star ← optional .asteriskToken
  let items ← if star.isSome then pure [] else commaList selectItem
  let groupBy ← whenever (atKind .groupKeyword) groupByClause
  let having ← whenever (atKind .havingKeyword) havingClause
  return .selectClause (← finish m .selectClause) star (.ofList items) groupBy having

def optionalSelect : Parse (Tree (.option .selectClause)) :=
  whenever (atKind .selectKeyword) selectClause

def orderByItem : Parse (Tree .orderByItem) := do
  let m ← mark
  let key ← reference
  let direction ←
    if ← atAny [.ascendingKeyword, .descendingKeyword] then pure (some (← bump)) else pure none
  return .orderByItem (← finish m .orderByVariable) key direction

def orderByClause : Parse (Tree .orderByClause) := do
  let m ← mark
  let _ ← bump
  let _ ← expect .byKeyword
  let items ← commaList orderByItem
  return .orderByClause (← finish m .orderByClause) (.ofList items)

def optionalOrderBy : Parse (Tree (.option .orderByClause)) :=
  whenever (atKind .orderKeyword) orderByClause

/-! ## Output -/

/-- How often results are given: in snapshots, or some of them every so often. -/
def outputRateLimit : Parse OutputRateLimit := do
  let m ← mark
  let _ ← bump
  let snapshot ← optional .snapshotKeyword
  let selector ←
    if snapshot.isNone && (← atAny [.allKeyword, .lastKeyword, .firstKeyword]) then
      pure (some (← bump))
    else pure none
  let _ ← expect .everyKeyword
  let amount ← expect .decimalIntegerLiteral
  let unit ←
    if snapshot.isSome then timeScale
    else expectAny (fun k => k.isTimeScale || k == .eventsKeyword) "time scale or 'events'"
  return {
    info := ← finish m .outputRateLimit
    selector := selector
    snapshot := snapshot
    amount := amount
    unit := unit }

/-- What is done with the results. -/
def streamingAction : Parse (Tree .streamingAction) := do
  let m ← mark
  let _ ← expect .equalsGreaterThanToken
  let parameters ← parameterList
  let body ← block
  return .streamingAction (← finish m .streamingAction) parameters body

/-! ## Queries -/

def querySource : Parse (Tree .querySource) := do
  if ← startsPattern then return .querySourcePattern (← patternClause)
  let input ← streamingInput
  let join ← optionalJoin
  return .querySourceInput input join

def streamingQuery : Parse (Tree .streamingQuery) := do
  let m ← mark
  let _ ← bump
  let source ← querySource
  let select ← optionalSelect
  let orderBy ← optionalOrderBy
  let rateLimit ← if ← atKind .outputKeyword then pure (some (← outputRateLimit)) else pure none
  let action ← streamingAction
  return .streamingQuery (← finish m .streamingQueryStatement) source select orderBy rateLimit
    action

def limitClause : Parse LimitClause := do
  let m ← mark
  let _ ← bump
  let count ← expect .decimalIntegerLiteral
  return { info := ← finish m .limitClause, count := count }

/-- A query as an expression. -/
def tableQuery : Parse Expression := do
  let m ← mark
  let _ ← bump
  let input ← streamingInput
  let join ← optionalJoin
  let select ← optionalSelect
  let orderBy ← optionalOrderBy
  let limit ← if ← atKind .limitKeyword then pure (some (← limitClause)) else pure none
  return .tableQuery (← finish m .tableQuery) input join select orderBy limit

/-- Queries up to the closing brace. What is none of them is skipped. -/
def streamingQueries : Parse (List (Tree .streamingQuery)) := do
  let read ← withRecovery querySync <| loop (fun (read : Array (Tree .streamingQuery)) => do
    if ← atListEnd .closeBraceToken then return .stop read
    if ← atKind .fromKeyword then return .again (read.push (← streamingQuery))
    if (← skipUntil querySync.contains "a streaming query") == 0 then
      bumpUnexpected "a streaming query"
    return .again read) #[]
  return read.toList

def foreverStatement : Parse Statement := do
  let m ← mark
  let _ ← bump
  let opening ← expect .openBraceToken
  let queries ← if opening.missing then pure [] else streamingQueries
  if queries.isEmpty && !opening.missing then errorExpected "streaming query"
  let close ← expectClosing opening .closeBraceToken "forever block"
  return .forever (← finishDelimited m .foreverStatement close) (.ofList queries)

end BallerinaSyntax.Grammar
