import BallerinaSyntax.Kind.Basic

/-!
Classes of kinds: which kinds are tokens, literals, builtin types, statements and so on. Most
classes are intervals of the order of declaration; the others are listed.
-/

namespace BallerinaSyntax.Kind

def isToken : Kind → Bool := between .unknown .tripleBacktickInlineCodeEnd

def isNode : Kind → Bool := between .compilationUnit .annotationAttachment

def isKeyword : Kind → Bool := between .importKeyword .nullKeyword

def isPunctuation : Kind → Bool := between .semicolonToken .slashEqualsToken

/-- Literal tokens other than identifiers and the reserved words `true`, `false` and `null`. -/
def isLiteral : Kind → Bool := between .decimalIntegerLiteral .base64BlobLiteral

def isIntegerLiteral : Kind → Bool := between .decimalIntegerLiteral .binaryIntegerLiteral

def isFloatLiteral (k : Kind) : Bool :=
  k == .decimalFloatingPointLiteral || k == .hexFloatingPointLiteral

def isTimeScale : Kind → Bool := between .secondKeyword .yearsKeyword

def isXmlToken : Kind → Bool := between .xmlLiteralStart .expressionEnd

def isDocumentationToken : Kind → Bool :=
  between .documentationTemplateStart .tripleBacktickInlineCodeEnd

/-- Keywords that are type names by themselves. -/
def isBuiltinType : Kind → Bool := between .intKeyword .futureKeyword

/-- Builtin types that accept a constraint in angle brackets. -/
def isConstrainableType (k : Kind) : Bool :=
  [.mapKeyword, .jsonKeyword, .xmlKeyword, .tableKeyword, .streamKeyword, .futureKeyword].contains k

def isCompoundAssignment (k : Kind) : Bool :=
  [.plusEqualsToken, .minusEqualsToken, .asteriskEqualsToken, .slashEqualsToken].contains k

/-- Reserved words that may also name a function or a method. -/
def isNameKeyword (k : Kind) : Bool :=
  [.startKeyword, .foreachKeyword, .continueKeyword, .mapKeyword].contains k

/-- Kinds that stand between the statement kinds but name only a part of a statement. -/
def statementParts : List Kind := [
  .ifClause, .elseIfClause, .elseClause, .matchPatternClause, .intRangeExpression, .joinClause,
  .joinConditions, .timeoutClause, .catchClause, .finallyClause, .transactionProperty,
  .onRetryClause]

def isStatement (k : Kind) : Bool :=
  between .variableDefinitionStatement .missingStatement k && !statementParts.contains k

/-- Kinds of the placeholders that recovery inserts. -/
def isMissing (k : Kind) : Bool :=
  [.missingDefinition, .missingTypeName, .missingReference, .missingExpression,
    .missingStatement].contains k

end BallerinaSyntax.Kind
