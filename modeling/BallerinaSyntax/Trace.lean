import BallerinaSyntax.Outline.Basic
import BallerinaSyntax.ParseTree

/-!
Traces: the walk of a tree as lines of text, one for each event. What is announced is shown with
what can be asked about it.
-/

namespace BallerinaSyntax

/-- What a part that is announced is called. -/
def Hook.name : Hook → String
  | .unit _ => "unit"
  | .definition _ => "definition"
  | .statement _ => "statement"
  | .block _ => "block"
  | .expression _ => "expression"
  | .typeName _ => "type"
  | .reference _ => "reference"
  | .parameter _ => "parameter"
  | .metadata _ => "metadata"
  | .attachment _ => "annotation"
  | .xmlElement _ => "xml"
  | .streamingQuery _ => "query"

/-- The text of something that may not be there. -/
def textOrDash {α : Type} [ToString α] : Option α → String
  | some a => toString a
  | none => "-"

namespace Tree

def kindText {c : Category} (t : Tree c) : String := textOrDash (t.info?.map NodeInfo.kind)

end Tree

/-- A line without blanks at its end. -/
def trimmedLine (line : String) : String :=
  String.ofList (line.toList.reverse.dropWhile (· == ' ')).reverse

namespace ParseTree

def statementDetails (s : Statement) : String :=
  s!"{s.kindText} missing={s.isMissingStatement}" ++
    match s.definedName? with
    | some i => " name=" ++ i.name
    | none => ""

/-- The text of a literal is that of its token, which a minus does not belong to. -/
def expressionDetails (t : ParseTree) (e : Expression) : String :=
  let reference := textOrDash (e.asReference?.map Tree.kindText)
  s!"{e.kindText} operator={textOrDash e.binaryOperator?} reference={reference}" ++
    match e.literal? with
    | some l => " text=" ++ t.tokenText l.value
    | none => ""

def metadataDetails (m : Metadata) : String :=
  let documentation := textOrDash (m.documentation?.map fun d => d.info.tokens)
  let deprecation := textOrDash (m.deprecation?.map fun d => d.info.tokens)
  s!"empty={m.isEmptyMetadata} doc={documentation} deprecated={deprecation}"

/-- What is shown of a part when it is announced. -/
def hookDetails (t : ParseTree) : Hook → String
  | .unit _ | .streamingQuery _ => ""
  | .definition d => s!"{d.info.kind} error={d.info.hasError}"
  | .statement s => statementDetails s
  | .block b => toString b.statementCount
  | .expression e => t.expressionDetails e
  | .typeName type => type.kindText
  | .reference r => r.kindText
  | .parameter p => p.kindText
  | .metadata m => metadataDetails m
  | .attachment a => a.attachmentName.name
  | .xmlElement e => s!"empty={e.isEmptyElement}"

def eventLine (t : ParseTree) : Event → String
  | .enter info => "+" ++ info.text
  | .leave info => "-" ++ info.kind.name
  | .announce hook => trimmedLine (hook.name ++ " " ++ t.hookDetails hook)

/-- The walk, without what lies in the parts that are named. -/
def trace (t : ParseTree) (turnedAway : List String) : List String :=
  (Visits.events (fun hook => turnedAway.contains hook.name) t.root.walk).map t.eventLine

end ParseTree

end BallerinaSyntax
