import BallerinaSyntax.Grammar.Climb
import BallerinaSyntax.Grammar.Literal

/-! References to variables: a name or a call, and suffixes applied from left to right. -/

namespace BallerinaSyntax.Grammar

open Parse

def argument : Parse (Tree .argument) := do
  let m ← mark
  if ← accept .dotDotDotToken then
    let value ← expression
    return .restArgument (← finish m .restArgument) value
  if (← atKind .identifier) && (← isKind 1 .equalsToken) then
    let name ← bumpName
    let _ ← bump
    let value ← expression
    return .named (← finish m .namedArgument) name value
  return .positional (← expression)

def argumentList : Parse (Tree (.list .argument)) := do
  let opening ← expect .openParenToken
  let arguments ← listAfter opening .closeParenToken argument
  let _ ← expectClosing opening .closeParenToken "argument list"
  return .ofList arguments

/-- A name and its arguments. -/
def invocation : Parse (Tree .invocation) := do
  let m ← mark
  let name ← nameReference
  let arguments ← argumentList
  return .invocation (← finish m .functionInvocation) name arguments

/-- Whether an action on an endpoint stands here: a name, an arrow, a name and `(`. -/
def isActionInvocation (ahead : Nat) : Parse Bool := do
  if (← kind ahead) != .identifier then return false
  let arrow := ahead + if ← isQualifiedName ahead then 3 else 1
  return (← isKind arrow .rightArrowToken) && (← isName (← kind (arrow + 1))) &&
    (← isKind (arrow + 2) .openParenToken)

/-- Whether the current token names a function that is called here. -/
def isCall : Parse Bool := return (← isName (← kind 0)) && (← isKind 1 .openParenToken)

def referencePrimary : Parse Reference := do
  let m ← mark
  if !(← atKind .identifier) && !(← isCall) then
    errorExpected "variable reference"
    return .missingReference (← placeholder .missingReference)
  let name ← nameReference
  if ← atKind .openParenToken then
    let arguments ← argumentList
    return .functionCall (.invocation (← finish m .functionInvocation) name arguments)
  return .simpleReference (← finish m .simpleVariableReference) name

def referenceOperator? : Parse (Option Operator) := do
  let anyNames := (← scope).options.allowAnyIdentifierNames
  return Operator.reference? (← kind 0) (← kind 1) (← kind 2) anyNames

/-- An index in brackets. -/
def index (construct : String) : Parse Expression := do
  let opening ← bump
  let value ← expression
  let _ ← expectClosing opening .closeBracketToken construct
  return value

def applyReference (m : Mark) (target : Reference) (op : Operator) : Parse Reference := do
  match op.node with
  | .indexReference =>
    let value ← index "index"
    return .indexReference (← finish m .indexReference) target value
  | .methodInvocation =>
    let _ ← bump
    let name ← callableName
    let arguments ← argumentList
    return .methodCall (← finish m .methodInvocation) target name arguments
  | .xmlAttributeReference =>
    let _ ← bump
    let value ← whenever (atKind .openBracketToken) (index "attribute index")
    return .xmlAttributeReference (← finish m .xmlAttributeReference) target value
  | _ =>
    let accessor ← bump
    let field : FieldName ←
      if ← atKind .asteriskToken then pure (.all (← bump)) else pure (.name (← identifier))
    return .fieldReference (← finish m .fieldReference) target accessor field

def referenceRule : OperatorRule .reference where
  primary := referencePrimary
  operator? := referenceOperator?
  apply := applyReference

end BallerinaSyntax.Grammar
