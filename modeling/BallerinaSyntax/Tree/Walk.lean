import BallerinaSyntax.Forest
import BallerinaSyntax.Tree.Unit

/-!
Walking a tree. A walk enters and leaves every node, and before it goes into a part of one of a
few categories it announces that part, so that whoever watches can turn it away. The walk of a
tree is a forest of nodes and announcements; its events are read off that forest.
-/

namespace BallerinaSyntax

/-- A part of the tree that is announced before the walk goes into it. -/
inductive Hook where
  | unit (unit : CompilationUnit)
  | definition (definition : Definition)
  | statement (statement : Statement)
  | block (block : Block)
  | expression (expression : Expression)
  | typeName (type : TypeName)
  | reference (reference : Reference)
  | parameter (parameter : Tree .parameter)
  | metadata (metadata : Metadata)
  | attachment (attachment : Tree .attachment)
  | xmlElement (element : Tree .xmlElement)
  | streamingQuery (query : Tree .streamingQuery)

inductive Visit where
  | node (info : NodeInfo)
  | hook (hook : Hook)

abbrev Visits := Forest Visit

namespace Visits

def node (info : NodeInfo) (children : Visits) : Visits := Forest.tree (.node info) children

def leaf (info : NodeInfo) : Visits := Forest.leaf (.node info)

def leaves (infos : List NodeInfo) : Visits := Forest.leaves (infos.map .node)

def announce (hook : Hook) (children : Visits) : Visits := Forest.tree (.hook hook) children

end Visits

open Visits (node leaf leaves announce)

/-! ## Parts without rules of their own -/

def UserDefinedType.visits (t : UserDefinedType) : Visits := node t.info (leaf t.name.info)

def DocumentationText.visits (t : DocumentationText) : Visits :=
  node t.info (leaves (t.parts.filterMap code?))
where
  code? : DocumentationPart → Option NodeInfo
    | .text _ => none
    | .code c => some c.info

def DocumentationAttribute.visits (a : DocumentationAttribute) : Visits :=
  node a.info (.concat DocumentationText.visits a.description.toList)

def Documentation.visits (d : Documentation) : Visits :=
  node d.info (.concat DocumentationText.visits d.text.toList ++
    .concat DocumentationAttribute.visits d.attributes)

def Deprecation.visits (d : Deprecation) : Visits :=
  node d.info (.concat DocumentationText.visits d.text.toList)

/-! ## Trees -/

/-- How a tree is announced, if its category is. -/
def Hook.of? : (c : Category) → Tree c → Option Hook
  | .statement, t => some (.statement t)
  | .block, t => some (.block t)
  | .expression, t => some (.expression t)
  | .typeName, t => some (.typeName t)
  | .reference, t => some (.reference t)
  | .parameter, t => some (.parameter t)
  | .metadata, t => some (.metadata t)
  | .attachment, t => some (.attachment t)
  | .xmlElement, t => some (.xmlElement t)
  | .streamingQuery, t => some (.streamingQuery t)
  | _, _ => none

namespace Tree

/-- Puts the visits of a tree behind its announcement. -/
def hooked {c : Category} (t : Tree c) (visits : Visits) : Visits :=
  match Hook.of? c t with
  | some h => announce h visits
  | none => visits

/-- What the walk meets inside a tree, without its announcement. -/
def visits {c : Category} : Tree c → Visits
  | .nil => .nil
  | .cons t u => hooked t (visits t) ++ visits u
  | .absent => .nil
  | .present t => hooked t (visits t)
  | .attachment info t u => node info (leaf t.info ++ visits u)
  | .metadata t u v => .concat Documentation.visits t ++ .concat Deprecation.visits u ++ visits v
  | .endpoint info t u _ v => node info (visits t ++ leaf u.info ++ visits v)
  | .endpointRecord t => visits t
  | .endpointReference t => hooked t (visits t)
  | .callableBody info t u v => node info (visits t ++ visits u ++ visits v)
  | .worker info _ t => node info (hooked t (visits t))
  | .signature info _ t u => node info (visits t ++ visits u)
  | .parameterList info t => node info (visits t)
  | .simple t => visits t
  | .tupleParameter info t u => node info (visits t ++ visits u)
  | .defaultable info t u => node info (hooked t (visits t) ++ hooked u (visits u))
  | .restParameter info t u _ => node info (visits t ++ hooked u (visits u))
  | .simpleParameter info t u _ => node info (visits t ++ hooked u (visits u))
  | .returnParameter info t u => node info (visits t ++ hooked u (visits u))
  | .builtinType info _ => leaf info
  | .constrainedType info _ t => node info (visits t)
  | .userDefinedType t => t.visits
  | .functionType info t u => node info (visits t ++ visits u)
  | .nilType info => leaf info
  | .arrayType info t u => node info (hooked t (visits t) ++ leaves (u.map ArrayDimension.info))
  | .unionType info t => node info (visits t)
  | .nullableType info t => node info (hooked t (visits t))
  | .groupType info t => node info (hooked t (visits t))
  | .tupleType info t => node info (visits t)
  | .objectType info t u v w => node info (visits t ++ visits u ++ visits v ++ visits w)
  | .recordType info t u => node info (visits t ++ visits u)
  | .missingType info => leaf info
  | .typeConstraint t => hooked t (visits t)
  | .namespaceConstraint t => leaf t.info
  | .functionTypeParameter info t u _ => node info (visits t ++ hooked u (visits u))
  | .fieldBlock info t => node info (visits t)
  | .field info t u _ v => node info (hooked t (visits t) ++ hooked u (visits u) ++ visits v)
  | .restField info t => node info (hooked t (visits t))
  | .objectInitializer info t u v => node info (hooked t (visits t) ++ visits u ++ visits v)
  | .objectParameterList info t => node info (visits t)
  | .objectParameter info t u _ _ v => node info (visits t ++ visits u ++ visits v)
  | .objectFunction info t u v => node info (hooked t (visits t) ++ visits u ++ visits v)
  | .simpleReference info t => node info (leaf t.info)
  | .functionCall t => visits t
  | .indexReference info t u => node info (hooked t (visits t) ++ hooked u (visits u))
  | .fieldReference info t .. => node info (hooked t (visits t))
  | .xmlAttributeReference info t u => node info (hooked t (visits t) ++ visits u)
  | .methodCall info t _ u => node info (hooked t (visits t) ++ visits u)
  | .missingReference info => leaf info
  | .invocation info t u => node info (leaf t.info ++ visits u)
  | .positional t => hooked t (visits t)
  | .named info _ t => node info (hooked t (visits t))
  | .restArgument info t => node info (hooked t (visits t))
  | .literal t => leaf t.info
  | .array info t => node info (visits t)
  | .record t => visits t
  | .table info t => node info (visits t)
  | .xml info t => node info (visits t)
  | .stringTemplate info t => node info (visits t)
  | .variable info _ t => node info (hooked t (visits t))
  | .action info _ t u => node info (leaf t.info ++ visits u)
  | .lambda info t u v => node info (visits t ++ visits u ++ visits v)
  | .typeInit info t u => node info (.concat UserDefinedType.visits t.toList ++ visits u)
  | .tableQuery info t u v w x =>
    node info (visits t ++ visits u ++ visits v ++ visits w ++
      leaves (x.toList.map LimitClause.info))
  | .typeConversion info t u v =>
    node info (hooked t (visits t) ++ visits u ++ hooked v (visits v))
  | .unary info _ t => node info (hooked t (visits t))
  | .braced info t => node info (hooked t (visits t))
  | .tuple info t => node info (visits t)
  | .await info t => node info (hooked t (visits t))
  | .check info t => node info (hooked t (visits t))
  | .binary info t _ u => node info (hooked t (visits t) ++ hooked u (visits u))
  | .range info t _ u => node info (hooked t (visits t) ++ hooked u (visits u))
  | .elvis info t _ u => node info (hooked t (visits t) ++ hooked u (visits u))
  | .ternary info t u v =>
    node info (hooked t (visits t) ++ hooked u (visits u) ++ hooked v (visits v))
  | .matching info t u => node info (hooked t (visits t) ++ visits u)
  | .typeAccess info t => node info (hooked t (visits t))
  | .missingExpression info => leaf info
  | .recordLiteral info t => node info (visits t)
  | .recordField info t u => node info (visits t ++ hooked u (visits u))
  | .keyName _ => .nil
  | .keyExpression t => hooked t (visits t)
  | .matchArm info t _ u => node info (hooked t (visits t) ++ hooked u (visits u))
  | .block info t => node info (visits t)
  | .variableDefinition info t _ u => node info (hooked t (visits t) ++ visits u)
  | .defineVariable t => visits t
  | .assign info _ t u => node info (hooked t (visits t) ++ hooked u (visits u))
  | .compoundAssign info t _ u => node info (hooked t (visits t) ++ hooked u (visits u))
  | .destructure info _ t u => node info (visits t ++ hooked u (visits u))
  | .ifElse info t u v => node info (visits t ++ visits u ++ visits v)
  | .matchStatement info t u => node info (hooked t (visits t) ++ visits u)
  | .foreach info t u v => node info (visits t ++ visits u ++ hooked v (visits v))
  | .whileLoop info t u => node info (hooked t (visits t) ++ hooked u (visits u))
  | .continueLoop info => leaf info
  | .breakLoop info => leaf info
  | .forkJoin info t u v => node info (visits t ++ visits u ++ visits v)
  | .tryCatch info t u v => node info (hooked t (visits t) ++ visits u ++ visits v)
  | .throwError info t => node info (hooked t (visits t))
  | .returnValue info t => node info (visits t)
  | .workerSend info t _ u => node info (hooked t (visits t) ++ visits u)
  | .workerReceive info t _ u => node info (hooked t (visits t) ++ visits u)
  | .evaluate info t => node info (hooked t (visits t))
  | .transaction info t u v => node info (visits t ++ hooked u (visits u) ++ visits v)
  | .abortTransaction info => leaf info
  | .retryTransaction info => leaf info
  | .lock info t => node info (hooked t (visits t))
  | .declareNamespace t => leaf t.info
  | .forever info t => node info (visits t)
  | .missingStatement info => leaf info
  | .targetReferences t => visits t
  | .targetParameters t => visits t
  | .ifClause info t u => node info (hooked t (visits t) ++ hooked u (visits u))
  | .elseClause info t => node info (hooked t (visits t))
  | .matchClause info t _ u => node info (hooked t (visits t) ++ visits u)
  | .matchStatementBody t => hooked t (visits t)
  | .matchBlockBody t => hooked t (visits t)
  | .iterableExpression t => hooked t (visits t)
  | .iterableRange t => visits t
  | .intRange info _ t u _ => node info (hooked t (visits t) ++ visits u)
  | .joinClause info t u _ v =>
    node info (leaves (t.toList.map JoinConditions.info) ++ hooked u (visits u) ++
      hooked v (visits v))
  | .timeoutClause info t u _ v =>
    node info (hooked t (visits t) ++ hooked u (visits u) ++ hooked v (visits v))
  | .catchClause info t _ u => node info (hooked t (visits t) ++ hooked u (visits u))
  | .finallyClause info t => node info (hooked t (visits t))
  | .transactionProperty info _ t => node info (hooked t (visits t))
  | .onRetryClause info t => node info (hooked t (visits t))
  | .itemElement t => hooked t (visits t)
  | .itemInstruction t => visits t
  | .itemComment t => visits t
  | .itemText t => visits t
  | .itemCdata _ => .nil
  | .xmlElement info t u v => node info (visits t ++ visits u ++ visits v)
  | .xmlStartTag info t u => node info (visits t ++ visits u)
  | .xmlCloseTag info t => node info (visits t)
  | .xmlAttribute info t u => node info (visits t ++ visits u)
  | .xmlName t => leaf t.info
  | .xmlNameInterpolation info t => node info (hooked t (visits t))
  | .xmlQuotedString info t => node info (visits t)
  | .contentText t => visits t
  | .contentElement t => hooked t (visits t)
  | .contentCdata _ => .nil
  | .contentInstruction t => visits t
  | .contentComment t => visits t
  | .xmlComment info t => node info (visits t)
  | .xmlInstruction info _ t => node info (visits t)
  | .interpolatedText info t => node info (visits t)
  | .plainText _ => .nil
  | .interpolation info _ t _ => node info (hooked t (visits t))
  | .streamingQuery info t u v w x =>
    node info (visits t ++ visits u ++ visits v ++ leaves (w.toList.map OutputRateLimit.info) ++
      visits x)
  | .querySourceInput t u => visits t ++ visits u
  | .querySourcePattern t => visits t
  | .streamingInput info t u v w x y _ =>
    node info (hooked t (visits t) ++ visits u ++ visits v ++ visits w ++ visits x ++ visits y)
  | .joinInput info _ t u v => node info (leaf t.info ++ visits u ++ hooked v (visits v))
  | .patternClause info _ t u => node info (visits t ++ leaves (u.toList.map WithinClause.info))
  | .followedBy info t u => node info (visits t ++ visits u)
  | .groupedPattern info t => node info (visits t)
  | .negatedPattern info t u v _ =>
    node info (visits t ++ visits u ++ leaves (v.toList.map Literal.info))
  | .logicalPattern info t _ u => node info (visits t ++ visits u)
  | .edgePattern t => visits t
  | .patternEdge info t u v _ => node info (hooked t (visits t) ++ visits u ++ visits v)
  | .whereClause info t => node info (hooked t (visits t))
  | .windowClause info t => node info (visits t)
  | .selectClause info _ t u v => node info (visits t ++ visits u ++ visits v)
  | .selectItem info t _ => node info (hooked t (visits t))
  | .groupByClause info t => node info (visits t)
  | .havingClause info t => node info (hooked t (visits t))
  | .orderByClause info t => node info (visits t)
  | .orderByItem info t _ => node info (hooked t (visits t))
  | .streamingAction info t u => node info (visits t ++ hooked u (visits u))

/-- The walk of a tree. -/
def walk {c : Category} (t : Tree c) : Visits := hooked t t.visits

end Tree

/-! ## Units -/

def ServiceBinding.visits (b : ServiceBinding) : Visits :=
  node b.info (leaves (b.endpoints.map NameReference.info) ++ .concat Tree.walk b.record.toList)

def ResourceParameterList.visits (p : ResourceParameterList) : Visits :=
  node p.info (.concat Tree.walk p.parameters)

def ResourceDefinition.visits (r : ResourceDefinition) : Visits :=
  node r.info (r.metadata.walk ++ r.parameters.visits ++ r.body.walk)

def ServiceBody.visits (b : ServiceBody) : Visits :=
  node b.info (.concat Tree.walk b.endpoints ++ .concat Tree.walk b.variableMembers ++
    .concat ResourceDefinition.visits b.resources)

def FiniteTypeUnit.visits : FiniteTypeUnit → Visits
  | .literal l => leaf l.info
  | .type t => t.walk

def FiniteType.visits (t : FiniteType) : Visits :=
  node t.info (.concat FiniteTypeUnit.visits t.units)

namespace Definition

/-- What the walk meets inside a definition, without its announcement. -/
def visits : Definition → Visits
  | .service d => node d.info (d.metadata.walk ++
      leaves (d.endpointType.toList.map NameReference.info) ++
      .concat ServiceBinding.visits d.binding.toList ++ d.body.visits)
  | .function d => node d.info (d.metadata.walk ++ d.signature.walk ++
      .concat Tree.walk d.body.toList)
  | .type d => node d.info (d.metadata.walk ++ d.finiteType.visits)
  | .annotationType d => node d.info (d.metadata.walk ++ .concat Tree.walk d.type.toList)
  | .variable d => node d.info (d.metadata.walk ++ d.type.walk ++
      .concat Tree.walk d.initializer.toList)
  | .endpoint d => node d.info (d.metadata.walk ++ d.endpoint.walk)
  | .missing info => leaf info

def walk (d : Definition) : Visits := announce (.definition d) d.visits

end Definition

def ImportItem.visits : ImportItem → Visits
  | .package d => node d.info (leaf d.package.info)
  | .xmlNamespace d => leaf d.info

namespace CompilationUnit

def visits (u : CompilationUnit) : Visits :=
  node u.info (.concat ImportItem.visits u.imports ++ .concat Definition.walk u.definitions)

def walk (u : CompilationUnit) : Visits := announce (.unit u) u.visits

end CompilationUnit

/-! ## Events -/

inductive Event where
  | enter (info : NodeInfo)
  | leave (info : NodeInfo)
  | announce (hook : Hook)

namespace Visits

/-- The events of a walk in which the parts that `prune` holds of are turned away. -/
def events (prune : Hook → Bool) : Visits → List Event
  | .nil => []
  | .cons (.node info) children rest =>
    .enter info :: (events prune children ++ .leave info :: events prune rest)
  | .cons (.hook h) children rest =>
    .announce h :: ((if prune h then [] else events prune children) ++ events prune rest)

/-- The nodes of a walk; what was announced stands in the place of its announcement. -/
def nodes : Visits → Forest NodeInfo
  | .nil => .nil
  | .cons (.node info) children rest => .cons info (nodes children) (nodes rest)
  | .cons (.hook _) children rest => nodes children ++ nodes rest

end Visits

end BallerinaSyntax
