import BallerinaSyntax.Grammar.Import
import BallerinaSyntax.Grammar.Service

/-!
Compilation units and their definitions. An error inside a definition ends at the latest where
the next one begins.
-/

namespace BallerinaSyntax.Grammar

open Parse

/-! ## Definitions -/

def function (h : Heading) : Parse FunctionDefinition := do
  let _ ← bump
  let receiver ← identifierBefore .colonColonToken
  let signature ← signature
  let body ← optionalBody
  return {
    info := ← h.finish .functionDefinition
    metadata := h.metadata
    receiver := receiver
    signature := signature
    body := body.toOption }

def finiteTypeUnit : Parse FiniteTypeUnit := do
  let k ← kind 0
  if startsSimpleLiteral k || (k == .minusToken && isNumber (← kind 1)) then
    return .literal (← simpleLiteral)
  return .type (← typeNameAt .nullable)

def finiteType : Parse FiniteType := do
  let m ← mark
  let units ← separatedBy .barToken finiteTypeUnit
  return { info := ← finish m .finiteType, units := units }

def typeDefinition (h : Heading) : Parse TypeDefinition := do
  let _ ← bump
  let name ← identifier
  let finite ← finiteType
  let _ ← expect .semicolonToken
  return {
    info := ← h.finish .typeDefinition
    metadata := h.metadata
    name := name
    finiteType := finite }

/-- The constructs to which annotations may be attached. -/
def attachPointKeywords : List Kind := [
  .serviceKeyword, .resourceKeyword, .functionKeyword, .objectKeyword, .typeKeyword,
  .endpointKeyword, .parameterKeyword, .annotationKeyword]

def attachPoints : Parse (List Leaf) := do
  if ← accept .lessThanToken then
    let points ← listUntil .greaterThanToken
      (expectAny attachPointKeywords.contains "attachment point")
    let _ ← expect .greaterThanToken
    return points
  return []

def annotationType (h : Heading) : Parse AnnotationDefinition := do
  let _ ← bump
  let points ← attachPoints
  let name ← identifier
  let type ← whenever (return startsType (← kind 0)) typeName
  let _ ← expect .semicolonToken
  return {
    info := ← h.finish .annotationDefinition
    metadata := h.metadata
    attachPoints := points
    name := name
    type := type.toOption }

def globalEndpoint (h : Heading) : Parse GlobalEndpointDefinition := do
  let m ← mark
  let endpoint ← endpoint m .nil
  return {
    info := ← h.finish .globalEndpointDefinition
    metadata := h.metadata
    endpoint := endpoint }

def globalVariable (h : Heading) : Parse GlobalVariableDefinition := do
  let type ← typeName
  let name ← identifier
  let initializer ← behind .equalsToken expression
  let _ ← expect .semicolonToken
  return {
    info := ← h.finish .globalVariableDefinition
    metadata := h.metadata
    type := type
    name := name
    initializer := initializer.toOption }

/-- What begins like no definition, up to where one may begin. -/
def missingDefinition (h : Heading) : Parse Definition := do
  errorNoViableAlternative "definition"
  let _ ← skipUntil topLevelStart.contains "a definition"
  let info ← finish h.mark .missingDefinition
  return .missing { info with flags := { info.flags with missing := true, hasError := true } }

/-- The word `function` begins a function, or with a parenthesis behind it a function type. -/
def definition : Parse Definition := do
  let h ← heading
  match ← kind 0 with
  | .serviceKeyword => return .service (← service h)
  | .typeKeyword => return .type (← typeDefinition h)
  | .annotationKeyword => return .annotationType (← annotationType h)
  | .endpointKeyword => return .endpoint (← globalEndpoint h)
  | k =>
    if k == .functionKeyword && !(← isKind 1 .openParenToken) then
      return .function (← function h)
    if startsType k then return .variable (← globalVariable h)
    missingDefinition h

/-! ## Units -/

structure UnitItems where
  imports : Array ImportItem := #[]
  definitions : Array Definition := #[]

/-- Reports an import or a namespace behind a definition. -/
def requireFirst (items : UnitItems) (what : String) : Parse Unit := do
  if !items.definitions.isEmpty then errorHere .mustPrecedeDefinitions [what]

def unitItem (items : UnitItems) : Parse UnitItems := do
  match ← kind 0 with
  | .importKeyword =>
    requireFirst items "Import declarations"
    return { items with imports := items.imports.push (.package (← importDeclaration)) }
  | .xmlnsKeyword =>
    requireFirst items "Namespace declarations"
    return { items with imports := items.imports.push (.xmlNamespace (← namespaceDeclaration)) }
  | _ => return { items with definitions := items.definitions.push (← definition) }

/-- All items up to the end of the file. What unwound an item ends here. -/
def unitItems : Parse UnitItems :=
  loop (fun (items : UnitItems) => do
    if ← isUnwinding then resynchronize topLevelStart
    if ← atEnd then return .stop items
    return .again (← progressing "a definition" (unitItem items))) {}

def compilationUnit : Parse CompilationUnit := do
  let m ← mark
  let items ← unitItems
  let endOfFile ← bumpEndOfFile
  return {
    info := ← finish m .compilationUnit
    imports := items.imports.toList
    definitions := items.definitions.toList
    endOfFile := endOfFile }

end BallerinaSyntax.Grammar
