import BallerinaSyntax.Kind.Class

/-!
The tokens with which constructs begin, and those at which reading resumes after an error.
-/

namespace BallerinaSyntax.Grammar

/-- Tokens that begin a definition or an import. -/
def topLevelStart : List Kind := [
  .importKeyword, .xmlnsKeyword, .serviceKeyword, .functionKeyword, .typeKeyword,
  .annotationKeyword, .endpointKeyword, .publicKeyword, .nativeKeyword, .atToken,
  .documentationTemplateStart, .deprecatedTemplateStart]

/-- Tokens at which a list of statements resumes; none of them can go on with an expression. -/
def statementSync : List Kind := [
  .semicolonToken, .closeBraceToken, .ifKeyword, .matchKeyword, .foreachKeyword, .whileKeyword,
  .breakKeyword, .forkKeyword, .tryKeyword, .throwKeyword, .returnKeyword, .transactionKeyword,
  .abortKeyword, .lockKeyword, .foreverKeyword, .workerKeyword]

/-- Tokens at which the members of an object resume. -/
def objectMemberSync : List Kind := [
  .closeBraceToken, .publicKeyword, .privateKeyword, .nativeKeyword, .functionKeyword,
  .newKeyword, .atToken, .documentationTemplateStart, .deprecatedTemplateStart]

/-- Tokens at which the members of a service resume. -/
def serviceMemberSync : List Kind := [
  .closeBraceToken, .endpointKeyword, .atToken, .documentationTemplateStart,
  .deprecatedTemplateStart]

/-- Tokens at which the queries of a `forever` block resume. -/
def querySync : List Kind := [.fromKeyword, .closeBraceToken]

def startsSimpleLiteral (k : Kind) : Bool :=
  k.isLiteral || [.trueKeyword, .falseKeyword, .nullKeyword].contains k

def isNumber (k : Kind) : Bool := k.isIntegerLiteral || k.isFloatLiteral

def startsType (k : Kind) : Bool :=
  k.isBuiltinType ||
    [.identifier, .openParenToken, .functionKeyword, .objectKeyword, .recordKeyword].contains k

/-- Tokens that begin an expression, apart from the reserved words that only do so as names of
functions. -/
def startsExpression (k : Kind) : Bool :=
  startsSimpleLiteral k || k.isBuiltinType ||
    [.identifier, .openParenToken, .openBracketToken, .openBraceToken, .lessThanToken, .plusToken,
      .minusToken, .exclamationToken, .lengthofKeyword, .untaintKeyword, .awaitKeyword,
      .checkKeyword, .startKeyword, .newKeyword, .functionKeyword, .fromKeyword,
      .xmlLiteralStart, .stringTemplateLiteralStart].contains k

def startsJoin (k : Kind) : Bool :=
  [.unidirectionalKeyword, .leftKeyword, .rightKeyword, .fullKeyword, .outerKeyword,
    .innerKeyword, .joinKeyword].contains k

/-- What the first token of a statement tells about it. -/
inductive StatementStart where
  | ifElse | matchCases | foreach | whileLoop | continueLoop | breakLoop | forkJoin | tryCatch
  | throwError | returnValue | transaction | abortTransaction | retryTransaction | lock
  | declareNamespace | forever
  /-- `var`: an assignment or a destructuring. -/
  | varKeyword
  /-- A parenthesis: a definition, a destructuring or an expression. -/
  | parenthesis
  /-- A definition if a type name and an identifier follow, else an expression. -/
  | typeOrExpression
  | expression
deriving DecidableEq, Repr

def StatementStart.ofKind? (k : Kind) : Option StatementStart :=
  match k with
  | .ifKeyword => some .ifElse
  | .matchKeyword => some .matchCases
  | .foreachKeyword => some .foreach
  | .whileKeyword => some .whileLoop
  | .continueKeyword => some .continueLoop
  | .breakKeyword => some .breakLoop
  | .forkKeyword => some .forkJoin
  | .tryKeyword => some .tryCatch
  | .throwKeyword => some .throwError
  | .returnKeyword => some .returnValue
  | .transactionKeyword => some .transaction
  | .abortKeyword => some .abortTransaction
  | .retryKeyword => some .retryTransaction
  | .lockKeyword => some .lock
  | .xmlnsKeyword => some .declareNamespace
  | .foreverKeyword => some .forever
  | .varKeyword => some .varKeyword
  | .openParenToken => some .parenthesis
  | k =>
    if startsType k then some .typeOrExpression
    else if startsExpression k then some .expression
    else none

def startsStatement (k : Kind) : Bool := (StatementStart.ofKind? k).isSome

/-- Tokens at which a list of statements goes on after tokens that begin none. -/
def resumesStatement (k : Kind) : Bool := statementSync.contains k || startsStatement k

end BallerinaSyntax.Grammar
