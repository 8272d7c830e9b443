import BallerinaSyntax.Grammar.Climb
import BallerinaSyntax.Grammar.Parameter

/-! Type names, with the bodies of object and record types. -/

namespace BallerinaSyntax.Grammar

open Parse

/-! ## Fields -/

/-- A field of which the type has been read. -/
def fieldFrom (m : Mark) (metadata : Metadata) (type : TypeName) : Parse (Tree .field) := do
  let name ← identifier
  let default ← behind .equalsToken expression
  let _ ← expect .semicolonToken
  return .field (← finish m .fieldDefinition) metadata type name default

def field : Parse (Tree .field) := do
  let m ← mark
  let metadata ← metadata
  let type ← typeName
  fieldFrom m metadata type

/-- Reports a part of a type that may be written only once. -/
def reportDuplicateBlock (info : NodeInfo) (what : String) : Parse Unit := do
  report info.tokens.start (← located info.range .duplicateBlock [what])

/-! ## Objects -/

structure ObjectMembers where
  publicFields : Option (Tree .fieldBlock) := none
  privateFields : Option (Tree .fieldBlock) := none
  initializer : Option (Tree .objectInitializer) := none
  functions : Array (Tree .objectFunction) := #[]

/-- A parameter of an initializer. A lone name binds the field of that name. -/
def objectParameter : Parse (Tree .objectParameter) := do
  let m ← mark
  let annotations ← attachments
  let bindsField := (← atKind .identifier) &&
    [.commaToken, .closeParenToken, .equalsToken].contains (← kind 1)
  let type ← whenever (return !bindsField) typeName
  let rest ← if bindsField then pure none else optional .dotDotDotToken
  let name ← identifier
  let default ← behind .equalsToken expression
  return .objectParameter (← finish m .objectParameter) annotations type rest name default

def objectInitializer (m : Mark) (metadata : Metadata) (modifiers : Modifiers) :
    Parse (NodeInfo × Tree .objectInitializer) := do
  let _ ← bump
  let list ← mark
  let opening ← expect .openParenToken
  let parameters ← listAfter opening .closeParenToken objectParameter
  let close ← expectClosing opening .closeParenToken "parameter list"
  let listInfo ← finishDelimited list .objectParameterList close
  let body ← callableBody
  let info ← finishModified m .objectInitializer modifiers
  return (info, .objectInitializer info metadata
    (.objectParameterList listInfo (.ofList parameters)) body)

/-- Fields under a visibility. -/
def fieldBlock : Parse (NodeInfo × Tree .fieldBlock) := do
  let m ← mark
  let keyword ← bump
  let opening ← bump
  let fields ← many do
    if ← atListEnd .closeBraceToken then return none
    return some (← progressing "a field" field)
  let close ← expectClosing opening .closeBraceToken "field block"
  let info ← finishDelimited m .objectFieldBlock close
  let info := { info with modifiers := .ofKeyword keyword.kind }
  return (info, .fieldBlock info (.ofList fields))

/-- An initializer or a function, with what is written before it. -/
def objectMember (members : ObjectMembers) : Parse ObjectMembers := do
  let m ← mark
  let metadata ← metadata
  let modifiers ← modifiers
  match ← kind 0 with
  | .newKeyword =>
    let (info, initializer) ← objectInitializer m metadata modifiers
    if members.initializer.isSome then
      reportDuplicateBlock info "initializer"
      return members
    return { members with initializer := some initializer }
  | .functionKeyword =>
    let _ ← bump
    let signature ← signature
    let body ← optionalBody
    let info ← finishModified m .objectFunctionDefinition modifiers
    return { members with
      functions := members.functions.push (.objectFunction info metadata signature body) }
  | _ =>
    errorExpected "object member"
    let _ ← skipUntil objectMemberSync.contains "an object member"
    return members

/-- A field block or another member. -/
def objectPart (members : ObjectMembers) : Parse ObjectMembers := do
  let k ← kind 0
  if k == .publicKeyword && (← isKind 1 .openBraceToken) then
    let (info, block) ← fieldBlock
    if members.publicFields.isSome then
      reportDuplicateBlock info "public"
      return members
    return { members with publicFields := some block }
  if k == .privateKeyword && (← isKind 1 .openBraceToken) then
    let (info, block) ← fieldBlock
    if members.privateFields.isSome then
      reportDuplicateBlock info "private"
      return members
    return { members with privateFields := some block }
  objectMember members

def objectMembers : Parse ObjectMembers :=
  loop (fun (members : ObjectMembers) => do
    if ← atListEnd .closeBraceToken then return .stop members
    return .again (← progressing "an object member" (objectPart members))) {}

def objectType (m : Mark) : Parse TypeName := do
  let _ ← bump
  let opening ← expect .openBraceToken
  let members ←
    if opening.missing then pure {} else withRecovery objectMemberSync objectMembers
  let close ← expectClosing opening .closeBraceToken "object type"
  return .objectType (← finishDelimited m .objectTypeName close) (.ofOption members.publicFields)
    (.ofOption members.privateFields) (.ofOption members.initializer)
    (.ofList members.functions.toList)

/-! ## Records -/

structure RecordMembers where
  fields : Array (Tree .field) := #[]
  rest : Option (Tree .restField) := none

/-- A field, or a rest field if dots follow the type. -/
def recordMember (members : RecordMembers) : Parse RecordMembers := do
  let m ← mark
  let metadata ← metadata
  let type ← typeName
  if ← accept .dotDotDotToken then
    let _ ← expect .semicolonToken
    let info ← finish m .recordRestField
    if members.rest.isSome then
      reportDuplicateBlock info "rest field"
      return members
    return { members with rest := some (.restField info type) }
  return { members with fields := members.fields.push (← fieldFrom m metadata type) }

def recordMembers : Parse RecordMembers :=
  loop (fun (members : RecordMembers) => do
    if ← atListEnd .closeBraceToken then return .stop members
    return .again (← progressing "a field" (recordMember members))) {}

def recordType (m : Mark) : Parse TypeName := do
  let _ ← bump
  let opening ← expect .openBraceToken
  let members ← if opening.missing then pure {} else recordMembers
  let close ← expectClosing opening .closeBraceToken "record type"
  return .recordType (← finishDelimited m .recordTypeName close) (.ofList members.fields.toList)
    (.ofOption members.rest)

/-! ## Other types -/

def namespaceConstraint : Parse XmlNamespaceConstraint := do
  let m ← mark
  let uri ←
    if ← accept .openBraceToken then
      let uri ← expect .quotedStringLiteral
      let _ ← expect .closeBraceToken
      pure (some uri)
    else pure none
  let localName ← identifier
  return { info := ← finish m .xmlNamespaceConstraint, uri := uri, localName := localName }

/-- A builtin type with a constraint in angle brackets. -/
def constrainedType (m : Mark) : Parse TypeName := do
  let keyword ← bump
  let _ ← bump
  let constraint : Tree .typeConstraint ←
    if keyword.kind == .xmlKeyword then pure (.namespaceConstraint (← namespaceConstraint))
    else pure (.typeConstraint (← typeName))
  let _ ← expect .greaterThanToken
  return .constrainedType (← finish m .constrainedTypeName) keyword constraint

/-- The empty tuple, a type in parentheses, or a tuple type. -/
def parenthesizedType (m : Mark) : Parse TypeName := do
  let opening ← bump
  if ← accept .closeParenToken then return .nilType (← finish m .nilTypeName)
  let first ← typeName
  if !(← atKind .commaToken) then
    let close ← expectClosing opening .closeParenToken "type"
    return .groupType (← finishDelimited m .groupTypeName close) first
  let rest ← moreBehind .commaToken typeName
  let close ← expectClosing opening .closeParenToken "tuple type"
  return .tupleType (← finishDelimited m .tupleTypeName close) (.ofList (first :: rest))

def functionTypeParameter : Parse (Tree .functionTypeParameter) := do
  let m ← mark
  let annotations ← attachments
  let type ← typeName
  let name ← optionalIdentifier
  return .functionTypeParameter (← finish m .functionTypeParameter) annotations type name

def functionType (m : Mark) : Parse TypeName := do
  let _ ← bump
  let opening ← expect .openParenToken
  let parameters ← listAfter opening .closeParenToken functionTypeParameter
  let _ ← expectClosing opening .closeParenToken "parameter list"
  let returns ← optionalReturn
  return .functionType (← finish m .functionTypeName) (.ofList parameters) returns

def typePrimary : Parse TypeName := do
  let m ← mark
  let k ← kind 0
  if k.isConstrainableType && (← isKind 1 .lessThanToken) then constrainedType m
  else if k.isBuiltinType then
    let keyword ← bump
    return .builtinType (← finish m .builtinTypeName) keyword
  else
    match k with
    | .identifier => return .userDefinedType (← userDefinedType)
    | .openParenToken => parenthesizedType m
    | .functionKeyword => functionType m
    | .objectKeyword => objectType m
    | .recordKeyword => recordType m
    | _ =>
      errorExpected "type name"
      return .missingType (← placeholder .missingTypeName)

/-- The suffix at the current token. A bracket is one only as `[]` or with a whole number in it,
a bar only before another type. -/
def typeOperator? : Parse (Option Operator) := do
  match ← kind 0 with
  | .openBracketToken =>
    let isDimension := (← isKind 1 .closeBracketToken) ||
      ((← kind 1).isIntegerLiteral && (← isKind 2 .closeBracketToken))
    return if isDimension then Operator.typeName? .openBracketToken else none
  | .barToken => return if startsType (← kind 1) then Operator.typeName? .barToken else none
  | k => return Operator.typeName? k

def arrayDimension : Parse ArrayDimension := do
  let m ← mark
  let _ ← bump
  let size ← if (← kind 0).isIntegerLiteral then pure (some (← bump)) else pure none
  let _ ← expect .closeBracketToken
  return { info := ← finish m .arrayDimension, size := size }

def applyType (m : Mark) (left : TypeName) (op : Operator) : Parse TypeName := do
  match op.node with
  | .arrayTypeName =>
    let dimensions ← many do
      if (← typeOperator?).map Operator.node == some .arrayTypeName then
        return some (← arrayDimension)
      else return none
    return .arrayType (← finish m .arrayTypeName) left dimensions
  | .nullableTypeName =>
    let _ ← bump
    return .nullableType (← finish m .nullableTypeName) left
  | _ =>
    let members ← many do
      if !(← isUnwinding) && (← atKind .barToken) && startsType (← kind 1) then
        let _ ← bump
        return some (← typeNameAt .nullable)
      else return none
    return .unionType (← finish m .unionTypeName) (.ofList (left :: members))

def typeRule : OperatorRule .typeName where
  primary := typePrimary
  operator? := typeOperator?
  apply := applyType

end BallerinaSyntax.Grammar
