import BallerinaSyntax.Grammar.Assignment
import BallerinaSyntax.Grammar.Compound
import BallerinaSyntax.Grammar.Import

/-! Statements, told apart by their first token. -/

namespace BallerinaSyntax.Grammar

open Parse

/-- A keyword and a semicolon. -/
def keywordStatement (k : Kind) : Parse NodeInfo := do
  let m ← mark
  let _ ← bump
  let _ ← expect .semicolonToken
  finish m k

def throwStatement : Parse Statement := do
  let m ← mark
  let _ ← bump
  let value ← lastExpression
  return .throwError (← finish m .throwStatement) value

def returnStatement : Parse Statement := do
  let m ← mark
  let _ ← bump
  let value ← whenever (return !(← atKind .semicolonToken)) expression
  let _ ← expect .semicolonToken
  return .returnValue (← finish m .returnStatement) value

def statementFrom : StatementStart → Parse Statement
  | .ifElse => ifStatement
  | .matchCases => matchStatement
  | .foreach => foreachStatement
  | .whileLoop => whileStatement
  | .continueLoop => return .continueLoop (← keywordStatement .continueStatement)
  | .breakLoop => return .breakLoop (← keywordStatement .breakStatement)
  | .forkJoin => forkStatement
  | .tryCatch => tryStatement
  | .throwError => throwStatement
  | .returnValue => returnStatement
  | .transaction => transactionStatement
  | .abortTransaction => return .abortTransaction (← keywordStatement .abortStatement)
  | .retryTransaction => return .retryTransaction (← keywordStatement .retryStatement)
  | .lock => lockStatement
  | .declareNamespace => return .declareNamespace (← namespaceDeclaration)
  | .forever => foreverStatement
  | .varKeyword => varStatement
  | .parenthesis => parenthesizedStatement
  | .typeOrExpression => definitionOrExpression
  | .expression => expressionStatement

/-- A reserved word that names a called function begins an expression; `foreach` never does. -/
def startsReservedCall : Parse Bool := do
  let k ← kind 0
  return k != .identifier && k != .foreachKeyword && (← isCall)

def statementBody : Parse Statement := do
  if ← startsReservedCall then return ← expressionStatement
  match StatementStart.ofKind? (← kind 0) with
  | some start => statementFrom start
  | none =>
    errorExpected "statement"
    return .missingStatement (← placeholder .missingStatement)

end BallerinaSyntax.Grammar
