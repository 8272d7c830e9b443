import BallerinaSyntax.Grammar.Reference

/-!
What streaming queries read: one stream with filters, functions and a window, or a pattern of
events. Behind `from` the two look alike; a pattern is recognized by its first token or by what
follows its first edge.
-/

namespace BallerinaSyntax.Grammar

open Parse

def whereClause : Parse (Tree .whereClause) := do
  let m ← mark
  let _ ← bump
  let condition ← expression
  return .whereClause (← finish m .whereClause) condition

def optionalWhere : Parse (Tree (.option .whereClause)) :=
  whenever (atKind .whereKeyword) whereClause

/-! ## Inputs -/

def windowClause : Parse (Tree .windowClause) := do
  let m ← mark
  let _ ← bump
  let call ← invocation
  return .windowClause (← finish m .windowClause) call

/-- Calls through which the stream runs. -/
def streamFunctions : Parse (Tree (.list .invocation)) := do
  let calls ← many do
    let arguments := if ← isQualifiedName 0 then 3 else 1
    if (← goesOn .identifier) && (← isKind arguments .openParenToken) then
      return some (← invocation)
    else return none
  return .ofList calls

def streamingInput : Parse (Tree .streamingInput) := do
  let m ← mark
  let stream ← reference
  let preFilter ← optionalWhere
  let preFunctions ← streamFunctions
  let window ← whenever (atKind .windowKeyword) windowClause
  let postFunctions ← streamFunctions
  let postFilter ← optionalWhere
  let asName ← optionalAlias
  return .streamingInput (← finish m .streamingInput) stream preFilter preFunctions window
    postFunctions postFilter asName

/-! ## Patterns -/

def timeScale : Parse Leaf := expectAny Kind.isTimeScale "time scale"

/-- Events of one stream, with a filter and the range of their number. -/
def patternEdge : Parse (Tree .patternEdge) := do
  let m ← mark
  let stream ← reference
  let filter ← optionalWhere
  let count ← whenever (atKind .openBracketToken) intRange
  let asName ← optionalAlias
  return .patternEdge (← finish m .patternEdgeInput) stream filter count asName

def edgeCount : Tree .patternEdge → Option (Tree .intRange)
  | .patternEdge _ _ _ count _ => count.toOption

/-- Tokens that make the edge before them part of a pattern. -/
def patternContinuation : List Kind :=
  [.followedKeyword, .commaToken, .andKeyword, .orKeyword, .withinKeyword]

def startsPattern : Parse Bool := do
  if ← atAny [.everyKeyword, .notKeyword, .openParenToken] then return true
  foresee do
    let edge ← patternEdge
    return (edgeCount edge).isSome || (← atAny patternContinuation)

def groupedPattern (m : Mark) : Parse (Tree .pattern) := do
  let opening ← bump
  let inner ← pattern
  let close ← expectClosing opening .closeParenToken "pattern"
  return .groupedPattern (← finishDelimited m .groupedPattern close) inner

/-- Events that do not happen: before another edge, or for some time. -/
def negatedPattern (m : Mark) : Parse (Tree .pattern) := do
  let _ ← bump
  let edge ← patternEdge
  if ← accept .andKeyword then
    let other ← patternEdge
    return .negatedPattern (← finish m .negationPattern) edge (.present other) none none
  if ← accept .forKeyword then
    let duration ← simpleLiteral
    let scale ← timeScale
    return .negatedPattern (← finish m .negationPattern) edge .absent duration scale
  errorExpected "'and' or 'for'"
  return .negatedPattern (← finish m .negationPattern) edge .absent none none

/-- An edge, and what it is followed by or combined with. -/
def sequencePattern (m : Mark) : Parse (Tree .pattern) := do
  let left ← patternEdge
  match ← kind 0 with
  | .followedKeyword | .commaToken =>
    if (← bump).kind == .followedKeyword then
      let _ ← expect .byKeyword
    let right ← pattern
    return .followedBy (← finish m .followedByPattern) left right
  | .andKeyword | .orKeyword =>
    let operator ← bump
    let right ← patternEdge
    return .logicalPattern (← finish m .logicalPattern) left operator right
  | _ => return .edgePattern left

def patternBody : Parse (Tree .pattern) := do
  let m ← mark
  match ← kind 0 with
  | .openParenToken => groupedPattern m
  | .notKeyword => negatedPattern m
  | _ => sequencePattern m

def withinClause : Parse WithinClause := do
  let m ← mark
  let _ ← bump
  let duration ← expect .decimalIntegerLiteral
  let scale ← timeScale
  return { info := ← finish m .withinClause, duration := duration, timeScale := scale }

def patternClause : Parse (Tree .patternClause) := do
  let m ← mark
  let every ← optional .everyKeyword
  let input ← pattern
  let within ← if ← atKind .withinKeyword then pure (some (← withinClause)) else pure none
  return .patternClause (← finish m .patternClause) every input within

end BallerinaSyntax.Grammar
