import BallerinaSyntax.Grammar.Query
import BallerinaSyntax.Grammar.Xml

/-! Expressions: primaries, and the operators between and behind them. -/

namespace BallerinaSyntax.Grammar

open Parse

/-! ## References and calls -/

/-- A reference as a value; the mark is where `start` stands, if it does. -/
def referenceExpression (m : Mark) (start : Option Leaf) : Parse Expression := do
  let target ← reference
  return .variable (← finish m .variableReferenceExpression) start target

/-- An action on an endpoint. -/
def actionExpression (m : Mark) (start : Option Leaf) : Parse Expression := do
  let endpoint ← nameReference
  let _ ← bump
  let call ← invocation
  return .action (← finish m .actionInvocation) start endpoint call

def actionOrReference (m : Mark) (start : Option Leaf) : Parse Expression := do
  if ← isActionInvocation 0 then actionExpression m start else referenceExpression m start

/-- A call or an action that runs on its own. -/
def startExpression (m : Mark) : Parse Expression := do
  let start ← bump
  actionOrReference m start

/-! ## Other primaries -/

/-- One expression in parentheses, or a tuple. -/
def parenthesizedExpression (m : Mark) : Parse Expression := do
  let opening ← bump
  let first ← expression
  if !(← atKind .commaToken) then
    let close ← expectClosing opening .closeParenToken "parenthesized expression"
    return .braced (← finishDelimited m .bracedExpression close) first
  let rest ← moreBehind .commaToken expression
  let close ← expectClosing opening .closeParenToken "tuple"
  return .tuple (← finishDelimited m .tupleExpression close) (.ofList (first :: rest))

def typeConversion (m : Mark) : Parse Expression := do
  let _ ← bump
  let type ← typeName
  let conversion ← behind .commaToken invocation
  let _ ← expect .greaterThanToken
  let operand ← expressionAt .unary
  return .typeConversion (← finish m .typeConversionExpression) type conversion operand

def unaryExpression (m : Mark) : Parse Expression := do
  let operator ← bump
  let operand ← expressionAt .unary
  return .unary (← finish m .unaryExpression) operator operand

def awaitExpression (m : Mark) : Parse Expression := do
  let _ ← bump
  let operand ← expressionAt .unary
  return .await (← finish m .awaitExpression) operand

/-- `check` takes all that binds more tightly than the elvis operator. -/
def checkExpression (m : Mark) : Parse Expression := do
  let _ ← bump
  let operand ← expressionAt .matchSuffix
  return .check (← finish m .checkedExpression) operand

def typeInit (m : Mark) : Parse Expression := do
  let _ ← bump
  let type ← if ← atKind .identifier then pure (some (← userDefinedType)) else pure none
  let arguments ← whenever (atKind .openParenToken) argumentList
  return .typeInit (← finish m .typeInitExpression) type arguments

def lambda (m : Mark) : Parse Expression := do
  let _ ← bump
  let parameters ← parameterList
  let returns ← optionalReturn
  let body ← callableBody
  return .lambda (← finish m .lambdaFunction) parameters returns body

/-- A builtin type, without unions and without a question mark. -/
def typeAccess (m : Mark) : Parse Expression := do
  let type ← typeNameAt .array
  return .typeAccess (← finish m .typeAccessExpression) type

def startsLiteral : Parse Bool := do
  let k ← kind 0
  let next ← kind 1
  return startsSimpleLiteral k || (k == .minusToken && isNumber next) ||
    (k == .openParenToken && next == .closeParenToken)

/-- A primary that begins with a keyword. A keyword that names a called function is a
reference. -/
def keywordExpression (m : Mark) : Parse Expression := do
  let k ← kind 0
  if k == .tableKeyword && (← isKind 1 .openBraceToken) then tableLiteral
  else if ← isCall then referenceExpression m none
  else if k == .startKeyword then startExpression m
  else if k.isBuiltinType then typeAccess m
  else
    errorExpected "expression"
    return .missingExpression (← placeholder .missingExpression)

def primaryExpression : Parse Expression := do
  let m ← mark
  if ← startsLiteral then return .literal (← simpleLiteral)
  match ← kind 0 with
  | .identifier => actionOrReference m none
  | .openParenToken => parenthesizedExpression m
  | .openBracketToken => arrayLiteral
  | .openBraceToken => return .record (← recordLiteral)
  | .xmlLiteralStart => xmlLiteral
  | .stringTemplateLiteralStart => stringTemplate
  | .lessThanToken => typeConversion m
  | .plusToken | .minusToken | .exclamationToken | .lengthofKeyword | .untaintKeyword =>
    unaryExpression m
  | .awaitKeyword => awaitExpression m
  | .checkKeyword => checkExpression m
  | .newKeyword => typeInit m
  | .functionKeyword => lambda m
  | .fromKeyword => tableQuery
  | _ => keywordExpression m

/-! ## Operators -/

/-- The operator at the current token; `but` is one only before a brace. -/
def expressionOperator? : Parse (Option Operator) := do
  let k ← kind 0
  if k == .butKeyword && !(← isKind 1 .openBraceToken) then return none
  return Operator.expression? k

def matchArm : Parse (Tree .matchArm) := do
  let m ← mark
  let type ← typeName
  let binding ← optionalIdentifier
  let _ ← expect .equalsGreaterThanToken
  let value ← expression
  return .matchArm (← finish m .matchExpressionClause) type binding value

def matchExpression (m : Mark) (subject : Expression) : Parse Expression := do
  let _ ← bump
  let opening ← bump
  let arms ← listUntil .closeBraceToken matchArm
  let close ← expectClosing opening .closeBraceToken "match expression"
  return .matching (← finishDelimited m .matchExpression close) subject (.ofList arms)

/-- The right operand of an operator. -/
def rightOperand (op : Operator) : Parse Expression := call (.expression op.rightPower)

/-- Between `?` and `:` stands any expression. -/
def ternaryExpression (m : Mark) (condition : Expression) (op : Operator) : Parse Expression := do
  let _ ← bump
  let yes ← expression
  let _ ← expect .colonToken
  let no ← rightOperand op
  return .ternary (← finish m .ternaryExpression) condition yes no

def infixExpression (m : Mark) (left : Expression) (op : Operator) : Parse Expression := do
  let operator ← bump
  let right ← rightOperand op
  let info ← finish m op.node
  return match op.node with
    | .integerRangeExpression => .range info left operator right
    | .elvisExpression => .elvis info left operator right
    | _ => .binary info left operator right

def applyExpression (m : Mark) (left : Expression) (op : Operator) : Parse Expression :=
  match op.node with
  | .matchExpression => matchExpression m left
  | .ternaryExpression => ternaryExpression m left op
  | _ => infixExpression m left op

def expressionRule : OperatorRule .expression where
  primary := primaryExpression
  operator? := expressionOperator?
  apply := applyExpression

end BallerinaSyntax.Grammar
