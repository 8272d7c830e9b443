import BallerinaSyntax.Grammar.Attachment

/-! Parameters, return types and signatures of functions. -/

namespace BallerinaSyntax.Grammar

open Parse

/-- A type and a name, without annotations. -/
def simpleParameter : Parse (Tree .simpleParameter) := do
  let m ← mark
  let type ← typeName
  let name ← identifier
  return .simpleParameter (← finish m .simpleParameter) .nil type name

/-- A rest parameter if dots follow the type, else a simple one. -/
def typedParameter (m : Mark) (annotations : Tree (.list .attachment)) :
    Parse (Tree .parameter) := do
  let type ← typeName
  if ← accept .dotDotDotToken then
    let name ← identifier
    return .restParameter (← finish m .restParameter) annotations type name
  let name ← identifier
  return .simple (.simpleParameter (← finish m .simpleParameter) annotations type name)

/-- The members of a tuple parameter, as an attempt: they have to end with a parenthesis. -/
def tupleMembers : Parse (Option (List (Tree .simpleParameter))) := do
  let _ ← bump
  let members ← commaList simpleParameter
  if ← accept .closeParenToken then return some members else return none

def isRestParameter : Tree .parameter → Bool
  | .restParameter .. => true
  | _ => false

/-- A simple, tuple or rest parameter; all but the last may have a default. -/
def parameter : Parse (Tree .parameter) := do
  let m ← mark
  let annotations ← attachments
  let members ← if ← atKind .openParenToken then attempt tupleMembers else pure none
  let read : Tree .parameter ←
    match members with
    | some members =>
      pure (.tupleParameter (← finish m .tupleParameter) annotations (.ofList members))
    | none => typedParameter m annotations
  if isRestParameter read then return read
  if ← accept .equalsToken then
    let default ← expression
    return .defaultable (← finish m .defaultableParameter) read default
  return read

def parameterList : Parse (Tree .parameterList) := do
  let m ← mark
  let opening ← expect .openParenToken
  let parameters ← listAfter opening .closeParenToken parameter
  let close ← expectClosing opening .closeParenToken "parameter list"
  return .parameterList (← finishDelimited m .formalParameterList close) (.ofList parameters)

def returnParameter : Parse (Tree .returnParameter) := do
  let m ← mark
  let _ ← bump
  let annotations ← attachments
  let type ← typeName
  return .returnParameter (← finish m .returnParameter) annotations type

def optionalReturn : Parse (Tree (.option .returnParameter)) :=
  whenever (atKind .returnsKeyword) returnParameter

/-- The name of a function, its parameters and what it returns. -/
def signature : Parse (Tree .signature) := do
  let m ← mark
  let name ← callableName
  let parameters ← parameterList
  let returns ← optionalReturn
  return .signature (← finish m .callableUnitSignature) name parameters returns

/-- A body, or a semicolon where a function is only declared. -/
def optionalBody : Parse (Tree (.option .callableBody)) :=
  whenever (return !(← accept .semicolonToken)) callableBody

def modifierKeywords : List Kind := [.publicKeyword, .privateKeyword, .nativeKeyword]

def modifiers : Parse Modifiers := do
  let keywords ← many do
    if ← atAny modifierKeywords then return some (← bump) else return none
  return keywords.foldl (fun all k => all.union (.ofKeyword k.kind)) {}

end BallerinaSyntax.Grammar
