import BallerinaSyntax.Grammar.Assignment
import BallerinaSyntax.Grammar.Callable

/-! Services: what they are bound to, and the members of their bodies. -/

namespace BallerinaSyntax.Grammar

open Parse

/-- Where a definition begins, and what is written before its keyword. -/
structure Heading where
  mark : Mark
  metadata : Metadata
  modifiers : Modifiers

def heading : Parse Heading := do
  let m ← mark
  let metadata ← metadata
  let modifiers ← modifiers
  return ⟨m, metadata, modifiers⟩

/-- The node of the definition that has this heading. -/
def Heading.finish (h : Heading) (k : Kind) : Parse NodeInfo := finishModified h.mark k h.modifiers

/-! ## Resources -/

/-- A list that may begin with the endpoint that receives the call. -/
def resourceParameters (opening : Leaf) :
    Parse (Option Identifier × List (Tree .parameter)) := do
  if opening.missing then return (none, [])
  if ← accept .endpointKeyword then
    let caller ← identifier
    let parameters ← if ← accept .commaToken then commaList parameter else pure []
    return (some caller, parameters)
  return (none, ← listUntil .closeParenToken parameter)

def resourceParameterList : Parse ResourceParameterList := do
  let m ← mark
  let opening ← expect .openParenToken
  let (caller, parameters) ← resourceParameters opening
  let close ← expectClosing opening .closeParenToken "parameter list"
  return {
    info := ← finishDelimited m .resourceParameterList close
    caller := caller
    parameters := parameters }

def resource (m : Mark) (metadata : Metadata) : Parse ResourceDefinition := do
  let name ← identifier
  let parameters ← resourceParameterList
  let body ← callableBody
  return {
    info := ← finish m .resourceDefinition
    metadata := metadata
    name := name
    parameters := parameters
    body := body }

/-! ## Bodies -/

structure ServiceMembers where
  endpoints : Array (Tree .endpoint) := #[]
  variableMembers : Array (Tree .variableDefinition) := #[]
  resources : Array ResourceDefinition := #[]

/-- Whether documentation or a deprecation notice is among what is written before a member. -/
def isDocumented (metadata : Metadata) : Bool :=
  metadata.documentation?.isSome || metadata.deprecation?.isSome

def attachedAnnotations : Metadata → Tree (.list .attachment)
  | .metadata _ _ annotations => annotations

/-- An endpoint, a resource or a variable. Of what is written before it, an endpoint keeps the
annotations and a variable nothing. -/
def serviceMember (members : ServiceMembers) : Parse ServiceMembers := do
  let m ← mark
  let metadata ← metadata
  let k ← kind 0
  if k == .endpointKeyword then
    if isDocumented metadata then errorExpected "resource definition"
    let endpoint ← endpoint m (attachedAnnotations metadata)
    return { members with endpoints := members.endpoints.push endpoint }
  if k == .identifier && (← isKind 1 .openParenToken) then
    return { members with resources := members.resources.push (← resource m metadata) }
  if startsType k then
    if !metadata.isEmptyMetadata then errorExpected "resource definition"
    return { members with variableMembers := members.variableMembers.push (← variableDefinition) }
  errorExpected "service member"
  let _ ← skipUntil serviceMemberSync.contains "a service member"
  return members

def serviceMembers : Parse ServiceMembers :=
  withRecovery serviceMemberSync <| loop (fun (members : ServiceMembers) => do
    if ← atListEnd .closeBraceToken then return .stop members
    return .again (← progressing "a service member" (serviceMember members))) {}

def serviceBody : Parse ServiceBody := do
  let m ← mark
  let opening ← expect .openBraceToken
  let members ← if opening.missing then pure {} else serviceMembers
  let close ← expectClosing opening .closeBraceToken "service body"
  return {
    info := ← finishDelimited m .serviceBody close
    endpoints := members.endpoints.toList
    variableMembers := members.variableMembers.toList
    resources := members.resources.toList }

/-! ## Services -/

def serviceBinding : Parse ServiceBinding := do
  let m ← mark
  let _ ← bump
  let record ←
    if ← atKind .openBraceToken then pure (some (← recordLiteral)) else pure none
  let endpoints ← if record.isSome then pure [] else commaList nameReference
  return {
    info := ← finish m .serviceEndpointAttachments
    endpoints := endpoints
    record := record }

/-- The type of endpoint that a service listens on, in angle brackets. -/
def serviceEndpointType : Parse (Option NameReference) := do
  if ← accept .lessThanToken then
    let type ← nameReference
    let _ ← expect .greaterThanToken
    return some type
  return none

def service (h : Heading) : Parse ServiceDefinition := do
  let _ ← bump
  let endpointType ← serviceEndpointType
  let name ← identifier
  let binding ← if ← atKind .bindKeyword then pure (some (← serviceBinding)) else pure none
  let body ← serviceBody
  return {
    info := ← h.finish .serviceDefinition
    metadata := h.metadata
    endpointType := endpointType
    name := name
    binding := binding
    body := body }

end BallerinaSyntax.Grammar
