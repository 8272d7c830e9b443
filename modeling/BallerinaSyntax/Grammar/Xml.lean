import BallerinaSyntax.Grammar.Goal

/-!
XML literals and string templates. Text is interleaved with expressions: every token of template
text ends with the opening of an expression, and at most one plain text comes last.
-/

namespace BallerinaSyntax.Grammar

open Parse

/-! ## Text -/

/-- A token of kind `template`, an expression, and the end of the interpolation. -/
def interpolation : Parse (Tree .textSegment) := do
  let m ← mark
  let opening ← bump
  let value ← expression
  let closing ← expect .expressionEnd
  return .interpolation (← finish m .templateInterpolation) opening value closing

/-- Interpolations, each behind a token of kind `template`, and a last token of kind `text`. -/
def interpolatedText (template text : Kind) (textRequired : Bool) :
    Parse (Tree .interpolatedText) := do
  let m ← mark
  let holes ← many do
    if ← goesOn template then return some (← interpolation) else return none
  let last ←
    if ← atKind text then pure [Tree.plainText (← bump)]
    else if textRequired then
      let _ ← expect text
      pure []
    else pure []
  return .interpolatedText (← finish m .interpolatedText) (.ofList (holes ++ last))

def missingText : Parse (Tree .interpolatedText) :=
  return .interpolatedText (← placeholder .interpolatedText) .nil

def stringTemplate : Parse Expression := do
  let m ← mark
  let opening ← bump
  let content ← interpolatedText .stringTemplateExpressionStart .stringTemplateText false
  let close ← expectClosing opening .stringTemplateLiteralEnd "string template"
  return .stringTemplate (← finishDelimited m .stringTemplateLiteral close) content

def xmlText : Parse (Tree .interpolatedText) := interpolatedText .xmlTemplateText .xmlText false

/-- A comment; the token of its text carries its end. -/
def xmlComment : Parse (Tree .xmlComment) := do
  let m ← mark
  let _ ← bump
  let text ← interpolatedText .xmlCommentTemplateText .xmlCommentText true
  return .xmlComment (← finish m .xmlComment) text

def xmlInstruction : Parse (Tree .xmlInstruction) := do
  let m ← mark
  let target ← bump
  let text ← interpolatedText .xmlPiTemplateText .xmlPiText true
  return .xmlInstruction (← finish m .xmlProcessingInstruction) target text

/-! ## Tags -/

/-- A name with or without a namespace, or an expression in place of it. -/
def xmlQualifiedName : Parse (Tree .xmlQualifiedName) := do
  let m ← mark
  if ← accept .xmlTagExpressionStart then
    let value ← expression
    let _ ← expect .expressionEnd
    return .xmlNameInterpolation (← finish m .xmlNameInterpolation) value
  let space ←
    if (← atKind .xmlQName) && (← isKind 1 .xmlQNameSeparator) then
      let space ← bump
      let _ ← bump
      pure (some space)
    else pure none
  let localName ← expect .xmlQName
  return .xmlName { info := ← finish m .xmlQualifiedName, space := space, localName := localName }

/-- The kinds of the template text, the text and the end behind a quotation mark. -/
def quotedKinds? : Kind → Option (Kind × Kind × Kind)
  | .xmlDoubleQuote =>
    some (.xmlDoubleQuotedTemplateString, .xmlDoubleQuotedString, .xmlDoubleQuoteEnd)
  | .xmlSingleQuote =>
    some (.xmlSingleQuotedTemplateString, .xmlSingleQuotedString, .xmlSingleQuoteEnd)
  | _ => none

def xmlQuotedString : Parse (Tree .xmlQuotedString) := do
  let m ← mark
  match quotedKinds? (← kind 0) with
  | some (template, text, stop) =>
    let opening ← bump
    let content ← interpolatedText template text false
    let close ← expectClosing opening stop "attribute value"
    return .xmlQuotedString (← finishDelimited m .xmlQuotedString close) content
  | none =>
    errorExpected "quoted attribute value"
    let content ← missingText
    return .xmlQuotedString (← finish m .xmlQuotedString) content

def xmlAttribute : Parse (Tree .xmlAttribute) := do
  let m ← mark
  let name ← xmlQualifiedName
  let _ ← expect .xmlTagEquals
  let value ← xmlQuotedString
  return .xmlAttribute (← finish m .xmlAttribute) name value

/-! ## Elements -/

/-- Whether the content of an element stops here. -/
def endsXmlContent (k : Kind) : Bool :=
  [.xmlTagOpenSlash, .xmlLiteralEnd, .endOfFileToken].contains k

/-- One item of the content of an element, or nothing for a token that is none. -/
def xmlContentItem : Parse (Option (Tree .xmlContent)) := do
  match ← kind 0 with
  | .xmlText | .xmlTemplateText => return some (.contentText (← xmlText))
  | .xmlTagOpen =>
    return some (← nested (return .contentElement (← xmlElement))
      (return .contentText (← missingText)))
  | .xmlCdata => return some (.contentCdata (← bump))
  | .xmlPi => return some (.contentInstruction (← xmlInstruction))
  | .xmlCommentStart => return some (.contentComment (← xmlComment))
  | _ =>
    bumpUnexpected "XML content"
    return none

def xmlContent : Parse (Tree (.list .xmlContent)) := do
  let read ← loop (fun (read : Array (Tree .xmlContent)) => do
    if (← isUnwinding) || endsXmlContent (← kind 0) then return .stop read
    match ← xmlContentItem with
    | some item => return .again (read.push item)
    | none => return .again read) #[]
  return .ofList read.toList

def xmlCloseTag : Parse (Tree .xmlCloseTag) := do
  let m ← mark
  let _ ← bump
  let name ← xmlQualifiedName
  let _ ← expect .xmlTagClose
  return .xmlCloseTag (← finish m .xmlCloseTag) name

/-- An element. The name in its close tag may differ from the one in its start tag. -/
def xmlElementBody : Parse (Tree .xmlElement) := do
  let m ← mark
  let opening ← bump
  let name ← xmlQualifiedName
  let attributes ← many do
    if !(← isUnwinding) && (← atAny [.xmlQName, .xmlTagExpressionStart]) then
      return some (← xmlAttribute)
    else return none
  if ← accept .xmlTagSlashClose then
    let tag := .xmlStartTag (← finish m .xmlEmptyTag) name (.ofList attributes)
    return .xmlElement (← finish m .xmlElement) tag .nil .absent
  let _ ← expect .xmlTagClose
  let tag := .xmlStartTag (← finish m .xmlStartTag) name (.ofList attributes)
  let content ← xmlContent
  if ← atKind .xmlTagOpenSlash then
    let closeTag ← xmlCloseTag
    return .xmlElement (← finish m .xmlElement) tag content (.present closeTag)
  reportUnterminated opening .xmlTagOpenSlash "XML element"
  return .xmlElement (← finish m .xmlElement) tag content .absent

def xmlItem : Parse (Tree .xmlItem) := do
  match ← kind 0 with
  | .xmlTagOpen => return .itemElement (← xmlElement)
  | .xmlPi => return .itemInstruction (← xmlInstruction)
  | .xmlCommentStart => return .itemComment (← xmlComment)
  | .xmlCdata => return .itemCdata (← bump)
  | .xmlText | .xmlTemplateText => return .itemText (← xmlText)
  | _ =>
    errorExpected "XML element, text, comment or processing instruction"
    return .itemText (← missingText)

def xmlLiteral : Parse Expression := do
  let m ← mark
  let opening ← bump
  let item ← xmlItem
  let close ← expectClosing opening .xmlLiteralEnd "XML literal"
  return .xml (← finishDelimited m .xmlLiteral close) item

end BallerinaSyntax.Grammar
