import BallerinaSyntax.Grammar.Callable
import BallerinaSyntax.Grammar.Literal

/-! Statements made of blocks: branches, loops, workers, errors and transactions. -/

namespace BallerinaSyntax.Grammar

open Parse

/-- A keyword and a block. -/
def keywordBlock (k : Kind) : Parse (NodeInfo × Block) := do
  let m ← mark
  let _ ← bump
  let body ← block
  return (← finish m k, body)

/-! ## Branches -/

/-- A condition and a block, behind the words that the mark is before. -/
def ifClause (m : Mark) (k : Kind) : Parse (Tree .ifClause) := do
  let condition ← expression
  let body ← block
  return .ifClause (← finish m k) condition body

def elseIfClause? : Parse (Option (Tree .ifClause)) := do
  if (← goesOn .elseKeyword) && (← isKind 1 .ifKeyword) then
    let m ← mark
    let _ ← bump
    let _ ← bump
    return some (← ifClause m .elseIfClause)
  return none

def elseClause : Parse (Tree .elseClause) := do
  let (info, body) ← keywordBlock .elseClause
  return .elseClause info body

def ifStatement : Parse Statement := do
  let m ← mark
  let _ ← bump
  let first ← ifClause m .ifClause
  let others ← many elseIfClause?
  let last ← whenever (goesOn .elseKeyword) elseClause
  return .ifElse (← finish m .ifElseStatement) first (.ofList others) last

def matchBody : Parse (Tree .matchBody) := do
  if ← atKind .openBraceToken then return .matchBlockBody (← block)
  else return .matchStatementBody (← statement)

def matchClause : Parse (Tree .matchClause) := do
  let m ← mark
  let type ← typeName
  let binding ← optionalIdentifier
  let _ ← expect .equalsGreaterThanToken
  let body ← matchBody
  return .matchClause (← finish m .matchPatternClause) type binding body

def matchClauses : Parse (List (Tree .matchClause)) :=
  many do
    if ← atListEnd .closeBraceToken then return none
    return some (← progressing "a match pattern" matchClause)

def matchStatement : Parse Statement := do
  let m ← mark
  let _ ← bump
  let subject ← expression
  let opening ← expect .openBraceToken
  let clauses ← if opening.missing then pure [] else matchClauses
  let close ← expectClosing opening .closeBraceToken "match statement"
  return .matchStatement (← finishDelimited m .matchStatement close) subject (.ofList clauses)

/-! ## Loops -/

/-- A range, as an attempt: what comes behind it has to end the head of the loop. -/
def iterableRange : Parse (Option (Tree .intRange)) := do
  let range ← intRange
  if ← atAny [.openBraceToken, .closeParenToken] then return some range else return none

def iterable : Parse (Tree .iterable) := do
  let range ← if ← atAny rangeOpen then attempt iterableRange else pure none
  match range with
  | some range => return .iterableRange range
  | none => return .iterableExpression (← expression)

/-- The head of the loop may stand in parentheses. -/
def foreachStatement : Parse Statement := do
  let m ← mark
  let _ ← bump
  let opening ← optional .openParenToken
  let targets ← commaList reference
  let _ ← expect .inKeyword
  let iterated ← iterable
  if let some opening := opening then
    let _ ← expectClosing opening .closeParenToken "foreach header"
  let body ← block
  return .foreach (← finish m .foreachStatement) (.ofList targets) iterated body

def whileStatement : Parse Statement := do
  let m ← mark
  let _ ← bump
  let condition ← expression
  let body ← block
  return .whileLoop (← finish m .whileStatement) condition body

def lockStatement : Parse Statement := do
  let (info, body) ← keywordBlock .lockStatement
  return .lock info body

/-! ## Workers -/

/-- A type and a name in parentheses. -/
def binding (construct : String) : Parse (TypeName × Identifier) := do
  let opening ← expect .openParenToken
  let type ← typeName
  let name ← identifier
  let _ ← expectClosing opening .closeParenToken construct
  return (type, name)

/-- How many workers have to end, and which. -/
def joinConditions : Parse JoinConditions := do
  let m ← mark
  let opening ← bump
  let some? ← accept .someKeyword
  let count ← if some? then pure (some (← expect .decimalIntegerLiteral)) else pure none
  if !some? then
    let _ ← bump
  let workers ← if ← atKind .identifier then commaList identifier else pure []
  let close ← expectClosing opening .closeParenToken "join conditions"
  return {
    info := ← finishDelimited m .joinConditions close
    kind := if some? then .some else .all
    count := count
    workers := workers }

def startsJoinConditions : Parse Bool :=
  return (← atKind .openParenToken) && [.someKeyword, .allKeyword].contains (← kind 1)

def joinClause : Parse (Tree .joinClause) := do
  let m ← mark
  let _ ← bump
  let conditions ← if ← startsJoinConditions then pure (some (← joinConditions)) else pure none
  let (type, result) ← binding "result binding"
  let body ← block
  return .joinClause (← finish m .joinClause) conditions type result body

def timeoutClause : Parse (Tree .timeoutClause) := do
  let m ← mark
  let _ ← bump
  let opening ← expect .openParenToken
  let duration ← expression
  let _ ← expectClosing opening .closeParenToken "timeout"
  let (type, result) ← binding "result binding"
  let body ← block
  return .timeoutClause (← finish m .timeoutClause) duration type result body

def forkStatement : Parse Statement := do
  let m ← mark
  let _ ← bump
  let opening ← expect .openBraceToken
  let forked ← if opening.missing then pure [] else workers
  let _ ← expectClosing opening .closeBraceToken "fork"
  let join ← whenever (goesOn .joinKeyword) joinClause
  let timeout ← whenever (goesOn .timeoutKeyword) timeoutClause
  return .forkJoin (← finish m .forkJoinStatement) (.ofList forked) join timeout

/-! ## Errors -/

def catchClause : Parse (Tree .catchClause) := do
  let m ← mark
  let _ ← bump
  let (type, name) ← binding "catch clause"
  let body ← block
  return .catchClause (← finish m .catchClause) type name body

def finallyClause : Parse (Tree .finallyClause) := do
  let (info, body) ← keywordBlock .finallyClause
  return .finallyClause info body

def tryStatement : Parse Statement := do
  let m ← mark
  let _ ← bump
  let body ← block
  let catches ← many do
    if ← goesOn .catchKeyword then return some (← catchClause) else return none
  let last ← whenever (goesOn .finallyKeyword) finallyClause
  if catches.isEmpty && last.toOption.isNone then errorExpected "'catch' or 'finally'"
  return .tryCatch (← finish m .tryCatchStatement) body (.ofList catches) last

/-! ## Transactions -/

def transactionProperties : List Kind := [.retriesKeyword, .onCommitKeyword, .onAbortKeyword]

def transactionProperty : Parse (Tree .transactionProperty) := do
  let m ← mark
  let keyword ← expectAny transactionProperties.contains "'retries', 'oncommit' or 'onabort'"
  let _ ← expect .equalsToken
  let value ← expression
  return .transactionProperty (← finish m .transactionProperty) keyword value

def onRetryClause : Parse (Tree .onRetryClause) := do
  let (info, body) ← keywordBlock .onRetryClause
  return .onRetryClause info body

def transactionStatement : Parse Statement := do
  let m ← mark
  let _ ← bump
  let properties ← if ← accept .withKeyword then commaList transactionProperty else pure []
  let body ← block
  let onRetry ← whenever (goesOn .onRetryKeyword) onRetryClause
  return .transaction (← finish m .transactionStatement) (.ofList properties) body onRetry

end BallerinaSyntax.Grammar
