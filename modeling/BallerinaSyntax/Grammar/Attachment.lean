import BallerinaSyntax.Grammar.Literal

/-! What is written before a construct: documentation, deprecation notices and annotations. -/

namespace BallerinaSyntax.Grammar

open Parse

/-! ## Documentation -/

/-- The kinds of the code and of its end between this many backticks. -/
def inlineCodeKinds : Nat → Kind × Kind
  | 1 => (.singleBacktickInlineCode, .singleBacktickInlineCodeEnd)
  | 2 => (.doubleBacktickInlineCode, .doubleBacktickInlineCodeEnd)
  | _ => (.tripleBacktickInlineCode, .tripleBacktickInlineCodeEnd)

def inlineCode (backticks : Nat) : Parse InlineCode := do
  let (code, stop) := inlineCodeKinds backticks
  let m ← mark
  let _ ← bump
  let code ← optional code
  let _ ← expect stop
  return { info := ← finish m .inlineCode, backticks := backticks, code := code }

def documentationPart? : Parse (Option DocumentationPart) := do
  match ← kind 0 with
  | .documentationTemplateText | .deprecatedTemplateText => return some (.text (← bump))
  | .singleBacktickInlineCodeStart => return some (.code (← inlineCode 1))
  | .doubleBacktickInlineCodeStart => return some (.code (← inlineCode 2))
  | .tripleBacktickInlineCodeStart => return some (.code (← inlineCode 3))
  | _ => return none

/-- Text and inline code, if there is any. -/
def documentationText : Parse (Option DocumentationText) := do
  let m ← mark
  let parts ← many documentationPart?
  if parts.isEmpty then return none
  return some { info := ← finish m .documentationText, parts := parts }

def documentationAttribute : Parse DocumentationAttribute := do
  let m ← mark
  let marker ← bump
  let name ← optionalIdentifier
  let _ ← expect .documentationTemplateAttributeEnd
  let description ← documentationText
  return {
    info := ← finish m .documentationAttribute
    marker := marker
    name := name
    description := description }

def documentation : Parse Documentation := do
  let m ← mark
  let opening ← bump
  let text ← documentationText
  let attributes ← many do
    if ← atKind .documentationTemplateAttributeStart then
      return some (← documentationAttribute)
    else return none
  let close ← expectClosing opening .documentationTemplateEnd "documentation"
  return {
    info := ← finishDelimited m .documentationAttachment close
    text := text
    attributes := attributes }

def deprecation : Parse Deprecation := do
  let m ← mark
  let opening ← bump
  let text ← documentationText
  let close ← expectClosing opening .deprecatedTemplateEnd "deprecation notice"
  return { info := ← finishDelimited m .deprecatedAttachment close, text := text }

/-! ## Annotations -/

def attachment : Parse (Tree .attachment) := do
  let m ← mark
  let _ ← bump
  let name ← nameReference
  let value ← optionalRecord
  return .attachment (← finish m .annotationAttachment) name value

def attachments : Parse (Tree (.list .attachment)) := do
  let items ← many do
    if ← goesOn .atToken then return some (← attachment) else return none
  return .ofList items

/-! ## Metadata -/

/-- Reports a second attachment of a kind of which one is allowed, and points to the first. -/
def reportDuplicate (first second : NodeInfo) (what : String) : Parse Unit := do
  let related ← located first.range .firstAttachmentHere [what]
  let d ← located second.range .duplicateAttachment [what]
  report second.tokens.start (d.withRelated related)

/-- Attachments in the order in which they were read. -/
structure Attachments where
  documentation : Array Documentation := #[]
  deprecated : Array Deprecation := #[]
  annotations : Array (Tree .attachment) := #[]

def Attachments.toMetadata (a : Attachments) : Metadata :=
  .metadata a.documentation.toList a.deprecated.toList (.ofList a.annotations.toList)

/-- Attachments in any order. All of them are kept, also those that are one too many. -/
def metadata : Parse Metadata := do
  let next (a : Attachments) : Parse (Turn Attachments Attachments) :=
    return if ← isUnwinding then .stop a else .again a
  let read ← loop (fun (a : Attachments) => do
    match ← kind 0 with
    | .documentationTemplateStart =>
      let doc ← documentation
      if let some first := a.documentation[0]? then
        reportDuplicate first.info doc.info "documentation"
      next { a with documentation := a.documentation.push doc }
    | .deprecatedTemplateStart =>
      let notice ← deprecation
      if let some first := a.deprecated[0]? then
        reportDuplicate first.info notice.info "deprecation"
      next { a with deprecated := a.deprecated.push notice }
    | .atToken => next { a with annotations := a.annotations.push (← attachment) }
    | _ => return .stop a) {}
  return read.toMetadata

end BallerinaSyntax.Grammar
