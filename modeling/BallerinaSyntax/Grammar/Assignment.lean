import BallerinaSyntax.Grammar.Expression
import BallerinaSyntax.Tree.Unit

/-!
Statements that begin with a type or an expression: definitions of variables, assignments,
destructuring, messages between workers, and expressions by themselves.
-/

namespace BallerinaSyntax.Grammar

open Parse

/-! ## Definitions of variables -/

/-- Whether a type name and an identifier stand here. A colon behind the identifier makes it the
middle of a ternary expression. -/
def startsVariableDefinition : Parse Bool :=
  foresee do
    let _ ← typeName
    return (← atKind .identifier) && !(← isKind 1 .colonToken)

def variableDefinition : Parse (Tree .variableDefinition) := do
  let m ← mark
  let type ← typeName
  let name ← identifier
  let initializer ← behind .equalsToken expression
  let _ ← expect .semicolonToken
  return .variableDefinition (← finish m .variableDefinitionStatement) type name initializer

/-! ## Statements led by an expression -/

/-- An expression and the semicolon behind it. -/
def lastExpression : Parse Expression := do
  let value ← expression
  let _ ← expect .semicolonToken
  return value

/-- The reference on the left of an assignment. Another expression is reported, and a missing
reference stands for it over the same tokens. -/
def assignmentTarget (left : Expression) : Parse Reference := do
  if let some target := left.asReference? then return target
  let info := left.info?.getD default
  if !info.isMissing then
    let found ← located info.range .expectedFound ["variable reference", "expression"]
    report info.tokens.start found
  return .missingReference { info with
    kind := .missingReference
    flags := { info.flags with missing := true, hasError := true } }

def assignment (m : Mark) (left : Expression) : Parse Statement := do
  let target ← assignmentTarget left
  let _ ← bump
  let value ← lastExpression
  return .assign (← finish m .assignmentStatement) none target value

def compoundAssignment (m : Mark) (left : Expression) : Parse Statement := do
  let target ← assignmentTarget left
  let operator ← bump
  let value ← lastExpression
  return .compoundAssign (← finish m .compoundAssignmentStatement) target operator value

def workerTarget : Parse WorkerTarget := do
  if ← atKind .forkKeyword then return .fork (← bump) else return .worker (← identifier)

/-- A value that is sent to a worker. -/
def workerSend (m : Mark) (value : Expression) : Parse Statement := do
  let _ ← bump
  let target ← workerTarget
  let key ← behind .commaToken expression
  let _ ← expect .semicolonToken
  return .workerSend (← finish m .workerSendStatement) value target key

/-- A place that receives what a worker sent. -/
def workerReceive (m : Mark) (target : Expression) : Parse Statement := do
  let _ ← bump
  let worker ← identifier
  let key ← behind .commaToken expression
  let _ ← expect .semicolonToken
  return .workerReceive (← finish m .workerReceiveStatement) target worker key

/-- The token behind the first expression decides what the statement is. -/
def expressionStatement : Parse Statement := do
  let m ← mark
  let first ← expression
  let k ← kind 0
  if k.isCompoundAssignment then compoundAssignment m first
  else
    match k with
    | .equalsToken => assignment m first
    | .rightArrowToken => workerSend m first
    | .leftArrowToken => workerReceive m first
    | _ =>
      let _ ← expect .semicolonToken
      return .evaluate (← finish m .expressionStatement) first

/-! ## Destructuring -/

def destructuringReferences (varKeyword : Leaf) (m : Mark) : Parse Statement := do
  let opening ← bump
  let targets ← listUntil .closeParenToken reference
  let _ ← expectClosing opening .closeParenToken "destructuring"
  let _ ← expect .equalsToken
  let value ← lastExpression
  return .destructure (← finish m .tupleDestructuringStatement) varKeyword
    (.targetReferences (.ofList targets)) value

/-- A definition without a type. -/
def varStatement : Parse Statement := do
  let m ← mark
  let varKeyword ← bump
  if ← atKind .openParenToken then destructuringReferences varKeyword m
  else
    let target ← reference
    let _ ← expect .equalsToken
    let value ← lastExpression
    return .assign (← finish m .assignmentStatement) varKeyword target value

/-- Items in parentheses with an equals sign behind them, as an attempt. -/
def destructuringMembers {c : Category} (item : Parse (Tree c)) :
    Parse (Option (Tree (.list c))) := do
  let _ ← bump
  let members ← commaList item
  if (← atKind .closeParenToken) && (← isKind 1 .equalsToken) then
    let _ ← bump
    return some (.ofList members)
  return none

/-- New variables if all of them have types, else references. -/
def destructuring? : Parse (Option (Tree .destructuring)) := do
  match ← attempt (destructuringMembers simpleParameter) with
  | some parameters => return some (.targetParameters parameters)
  | none =>
    match ← attempt (destructuringMembers reference) with
    | some references => return some (.targetReferences references)
    | none => return none

/-- A definition, a destructuring or an expression that begins with a parenthesis. -/
def parenthesizedStatement : Parse Statement := do
  if ← startsVariableDefinition then return .defineVariable (← variableDefinition)
  let m ← mark
  match ← destructuring? with
  | some targets =>
    let _ ← bump
    let value ← lastExpression
    return .destructure (← finish m .tupleDestructuringStatement) none targets value
  | none => expressionStatement

def definitionOrExpression : Parse Statement := do
  if ← startsVariableDefinition then return .defineVariable (← variableDefinition)
  expressionStatement

end BallerinaSyntax.Grammar
