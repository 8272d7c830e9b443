import BallerinaSyntax.Grammar.Goal
import BallerinaSyntax.Grammar.Name
import BallerinaSyntax.Grammar.Start

/-! Simple, array, record and table literals, and ranges of whole numbers. -/

namespace BallerinaSyntax.Grammar

open Parse

def literalKind? (k : Kind) : Option LiteralKind :=
  if k.isIntegerLiteral then some .integer
  else if k.isFloatLiteral then some .float
  else
    match k with
    | .quotedStringLiteral => some .string
    | .base16BlobLiteral | .base64BlobLiteral => some .blob
    | .trueKeyword | .falseKeyword => some .boolean
    | .nullKeyword => some .null
    | _ => none

/-- A literal token, with a minus in front if it is a number, or an empty tuple. -/
def simpleLiteral : Parse Literal := do
  let m ← mark
  if (← atKind .openParenToken) && (← isKind 1 .closeParenToken) then
    let value ← bump
    let _ ← bump
    return { info := ← finish m .simpleLiteral, kind := .nil, sign := none, value := value }
  let sign ←
    if (← atKind .minusToken) && isNumber (← kind 1) then pure (some (← bump)) else pure none
  match literalKind? (← kind 0) with
  | some k =>
    let value ← bump
    return { info := ← finish m .simpleLiteral, kind := k, sign := sign, value := value }
  | none =>
    errorExpected "literal"
    let value ← missingToken .unknown
    let info ← finish m .simpleLiteral
    return {
      info := { info with flags := { info.flags with missing := true } }
      kind := .nil
      sign := sign
      value := value }

def arrayLiteral : Parse Expression := do
  let m ← mark
  let opening ← bump
  let elements ← listUntil .closeBracketToken expression
  let close ← expectClosing opening .closeBracketToken "array literal"
  return .array (← finishDelimited m .arrayLiteral close) (.ofList elements)

/-- A field of a record literal. Its key is an identifier if a colon follows, else an expression,
such as a string literal. -/
def recordField : Parse (Tree .recordField) := do
  let m ← mark
  let key : Tree .recordKey ←
    if (← atKind .identifier) && (← isKind 1 .colonToken) then pure (.keyName (← bumpName))
    else pure (.keyExpression (← expression))
  let _ ← expect .colonToken
  let value ← expression
  return .recordField (← finish m .recordKeyValue) key value

def recordLiteral : Parse (Tree .recordLiteral) := do
  let m ← mark
  let opening ← expect .openBraceToken
  let fields ← listAfter opening .closeBraceToken recordField
  let close ← expectClosing opening .closeBraceToken "record literal"
  return .recordLiteral (← finishDelimited m .recordLiteral close) (.ofList fields)

/-- A record literal, if a brace is next. -/
def optionalRecord : Parse (Tree (.option .recordLiteral)) :=
  whenever (atKind .openBraceToken) recordLiteral

def tableLiteral : Parse Expression := do
  let m ← mark
  let _ ← bump
  let record ← recordLiteral
  return .table (← finish m .tableLiteral) record

def rangeOpen : List Kind := [.openBracketToken, .openParenToken]

def rangeClose : List Kind := [.closeBracketToken, .closeParenToken]

/-- A range with a bracket or a parenthesis on each side; its end may be left out. -/
def intRange : Parse (Tree .intRange) := do
  let m ← mark
  let opening ← expectAny rangeOpen.contains "'[' or '('"
  let start ← expressionAt .logicalOr
  let _ ← expect .dotDotToken
  let stop ← whenever (return !(← atAny rangeClose)) (expressionAt .logicalOr)
  let closing ← expectAny rangeClose.contains "']' or ')'"
  return .intRange (← finishDelimited m .intRangeExpression closing) opening start stop closing

end BallerinaSyntax.Grammar
