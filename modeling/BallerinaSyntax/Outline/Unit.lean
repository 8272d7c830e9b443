import BallerinaSyntax.Outline.Tree
import BallerinaSyntax.Tree.Unit

/-! Outlines of definitions and of whole units. -/

namespace BallerinaSyntax

def ImportItem.outline : ImportItem → Outline
  | .package d => .choice "Import" d.outline
  | .xmlNamespace d => .choice "Namespace" d.outline

def ServiceBinding.outline (b : ServiceBinding) : Outline :=
  .node b.info [("endpoints", .list NameReference.outline b.endpoints),
    ("record", .optional Tree.outline b.record)]

def ResourceParameterList.outline (p : ResourceParameterList) : Outline :=
  .node p.info [("caller", .optional .named p.caller),
    ("parameters", .list Tree.outline p.parameters)]

def ResourceDefinition.outline (r : ResourceDefinition) : Outline :=
  .node r.info [("metadata", r.metadata.outline), ("name", .named r.name),
    ("parameters", r.parameters.outline), ("body", r.body.outline)]

def ServiceBody.outline (b : ServiceBody) : Outline :=
  .node b.info [("endpoints", .list Tree.outline b.endpoints),
    ("variables", .list Tree.outline b.variableMembers),
    ("resources", .list ResourceDefinition.outline b.resources)]

def FiniteTypeUnit.outline : FiniteTypeUnit → Outline
  | .literal l => .choice "Literal" l.outline
  | .type t => .choice "Type" t.outline

def FiniteType.outline (t : FiniteType) : Outline :=
  .node t.info [("units", .list FiniteTypeUnit.outline t.units)]

def Definition.outline : Definition → Outline
  | .service d => .choice "Service" (.node d.info [("metadata", d.metadata.outline),
      ("endpoint_type", .optional NameReference.outline d.endpointType), ("name", .named d.name),
      ("bind", .optional ServiceBinding.outline d.binding), ("body", d.body.outline)])
  | .function d => .choice "Function" (.node d.info [("metadata", d.metadata.outline),
      ("receiver", .optional .named d.receiver), ("signature", d.signature.outline),
      ("body", .optional Tree.outline d.body)])
  | .type d => .choice "Type" (.node d.info [("metadata", d.metadata.outline),
      ("name", .named d.name), ("finite_type", d.finiteType.outline)])
  | .annotationType d => .choice "Annotation" (.node d.info [("metadata", d.metadata.outline),
      ("attach_points", .list .leaf d.attachPoints), ("name", .named d.name),
      ("type_name", .optional Tree.outline d.type)])
  | .variable d => .choice "GlobalVariable" (.node d.info [("metadata", d.metadata.outline),
      ("type_name", d.type.outline), ("name", .named d.name),
      ("initializer", .optional Tree.outline d.initializer)])
  | .endpoint d => .choice "GlobalEndpoint" (.node d.info [("metadata", d.metadata.outline),
      ("endpoint", d.endpoint.outline)])
  | .missing info => .choice "Missing" (.placeholder info)

def CompilationUnit.outline (u : CompilationUnit) : Outline :=
  .node u.info [("imports", .list ImportItem.outline u.imports),
    ("definitions", .list Definition.outline u.definitions), ("end_of_file", .leaf u.endOfFile)]

end BallerinaSyntax
