import BallerinaSyntax.ParseTree

/-!
What a tree holds, without regard to its rules: its nodes, and in each node the tokens and the
names that it stores itself. A rule without a node of its own stores in the node around it. The
parts of a node stand in the order in which they are read, except that what is collected by kind
(metadata, the members of objects and services) stands by kind.
-/

namespace BallerinaSyntax

inductive Part where
  | node (info : NodeInfo)
  | token (leaf : Leaf)
  | name (identifier : Identifier)
deriving DecidableEq, Repr

abbrev Parts := Forest Part

namespace Parts

def node (info : NodeInfo) (inside : Parts) : Parts := Forest.tree (.node info) inside

end Parts

/-- What can be taken apart. -/
class HasParts (α : Type) where
  parts : α → Parts

export HasParts (parts)

open Parts (node)

variable {α β : Type}

/-! ## Tokens, names and collections -/

instance : HasParts Leaf := ⟨fun leaf => Forest.leaf (.token leaf)⟩

instance : HasParts Identifier := ⟨fun i => Forest.leaf (.name i)⟩

/-- A node by itself. -/
instance : HasParts NodeInfo := ⟨fun info => node info .nil⟩

instance [HasParts α] : HasParts (Option α) := ⟨fun o => o.elim .nil parts⟩

instance [HasParts α] : HasParts (List α) := ⟨Forest.concat parts⟩

instance [HasParts α] : HasParts (Array α) := ⟨fun xs => parts xs.toList⟩

/-! ## Parts without rules of their own -/

instance : HasParts NameReference where
  parts | ⟨info, package, name⟩ => node info (parts package ++ parts name)

instance : HasParts Literal where
  parts | ⟨info, _, sign, value⟩ => node info (parts sign ++ parts value)

instance : HasParts PackageName where
  parts | ⟨info, segments, version⟩ => node info (parts segments ++ parts version)

instance : HasParts ImportDeclaration where
  parts
    | ⟨info, organization, package, asName⟩ =>
      node info (parts organization ++ parts package ++ parts asName)

instance : HasParts NamespaceDeclaration where
  parts | ⟨info, uri, asName⟩ => node info (parts uri ++ parts asName)

instance : HasParts UserDefinedType where
  parts | ⟨info, name⟩ => node info (parts name)

instance : HasParts XmlNamespaceConstraint where
  parts | ⟨info, uri, localName⟩ => node info (parts uri ++ parts localName)

instance : HasParts ArrayDimension where
  parts | ⟨info, size⟩ => node info (parts size)

instance : HasParts FieldName where
  parts
    | .name n => parts n
    | .all star => parts star

instance : HasParts WorkerTarget where
  parts
    | .worker n => parts n
    | .fork keyword => parts keyword

instance : HasParts JoinConditions where
  parts | ⟨info, _, count, workers⟩ => node info (parts count ++ parts workers)

instance : HasParts XmlName where
  parts | ⟨info, space, localName⟩ => node info (parts space ++ parts localName)

instance : HasParts JoinType where
  parts | ⟨info, _⟩ => node info .nil

instance : HasParts WithinClause where
  parts | ⟨info, duration, timeScale⟩ => node info (parts duration ++ parts timeScale)

instance : HasParts LimitClause where
  parts | ⟨info, count⟩ => node info (parts count)

instance : HasParts OutputRateLimit where
  parts
    | ⟨info, selector, snapshot, amount, unit⟩ =>
      node info (parts snapshot ++ parts selector ++ parts amount ++ parts unit)

instance : HasParts InlineCode where
  parts | ⟨info, _, code⟩ => node info (parts code)

instance : HasParts DocumentationPart where
  parts
    | .text token => parts token
    | .code c => parts c

instance : HasParts DocumentationText where
  parts | ⟨info, texts⟩ => node info (parts texts)

instance : HasParts DocumentationAttribute where
  parts
    | ⟨info, marker, name, description⟩ =>
      node info (parts marker ++ parts name ++ parts description)

instance : HasParts Documentation where
  parts | ⟨info, text, attributes⟩ => node info (parts text ++ parts attributes)

instance : HasParts Deprecation where
  parts | ⟨info, text⟩ => node info (parts text)

/-! ## Trees -/

namespace Tree

/-- What a tree holds. -/
def parts {c : Category} : Tree c → Parts
  | .nil => .nil
  | .cons t u => t.parts ++ u.parts
  | .absent => .nil
  | .present t => t.parts
  | .attachment info t u => node info (HasParts.parts t ++ u.parts)
  | .metadata t u v => HasParts.parts t ++ HasParts.parts u ++ v.parts
  | .endpoint info t u n v =>
    node info (t.parts ++ HasParts.parts u ++ HasParts.parts n ++ v.parts)
  | .endpointRecord t => t.parts
  | .endpointReference t => t.parts
  | .callableBody info t u v => node info (t.parts ++ u.parts ++ v.parts)
  | .worker info n t => node info (HasParts.parts n ++ t.parts)
  | .signature info n t u => node info (HasParts.parts n ++ t.parts ++ u.parts)
  | .parameterList info t => node info t.parts
  | .simple t => t.parts
  | .tupleParameter info t u => node info (t.parts ++ u.parts)
  | .defaultable info t u => node info (t.parts ++ u.parts)
  | .restParameter info t u n => node info (t.parts ++ u.parts ++ HasParts.parts n)
  | .simpleParameter info t u n => node info (t.parts ++ u.parts ++ HasParts.parts n)
  | .returnParameter info t u => node info (t.parts ++ u.parts)
  | .builtinType info k => node info (HasParts.parts k)
  | .constrainedType info k t => node info (HasParts.parts k ++ t.parts)
  | .userDefinedType t => HasParts.parts t
  | .functionType info t u => node info (t.parts ++ u.parts)
  | .nilType info => node info .nil
  | .arrayType info t u => node info (t.parts ++ HasParts.parts u)
  | .unionType info t => node info t.parts
  | .nullableType info t => node info t.parts
  | .groupType info t => node info t.parts
  | .tupleType info t => node info t.parts
  | .objectType info t u v w => node info (t.parts ++ u.parts ++ v.parts ++ w.parts)
  | .recordType info t u => node info (t.parts ++ u.parts)
  | .missingType info => node info .nil
  | .typeConstraint t => t.parts
  | .namespaceConstraint t => HasParts.parts t
  | .functionTypeParameter info t u n => node info (t.parts ++ u.parts ++ HasParts.parts n)
  | .fieldBlock info t => node info t.parts
  | .field info t u n v => node info (t.parts ++ u.parts ++ HasParts.parts n ++ v.parts)
  | .restField info t => node info t.parts
  | .objectInitializer info t u v => node info (t.parts ++ u.parts ++ v.parts)
  | .objectParameterList info t => node info t.parts
  | .objectParameter info t u k n v =>
    node info (t.parts ++ u.parts ++ HasParts.parts k ++ HasParts.parts n ++ v.parts)
  | .objectFunction info t u v => node info (t.parts ++ u.parts ++ v.parts)
  | .simpleReference info t => node info (HasParts.parts t)
  | .functionCall t => t.parts
  | .indexReference info t u => node info (t.parts ++ u.parts)
  | .fieldReference info t k n => node info (t.parts ++ HasParts.parts k ++ HasParts.parts n)
  | .xmlAttributeReference info t u => node info (t.parts ++ u.parts)
  | .methodCall info t n u => node info (t.parts ++ HasParts.parts n ++ u.parts)
  | .missingReference info => node info .nil
  | .invocation info t u => node info (HasParts.parts t ++ u.parts)
  | .positional t => t.parts
  | .named info n t => node info (HasParts.parts n ++ t.parts)
  | .restArgument info t => node info t.parts
  | .literal t => HasParts.parts t
  | .array info t => node info t.parts
  | .record t => t.parts
  | .table info t => node info t.parts
  | .xml info t => node info t.parts
  | .stringTemplate info t => node info t.parts
  | .variable info k t => node info (HasParts.parts k ++ t.parts)
  | .action info k t u => node info (HasParts.parts k ++ HasParts.parts t ++ u.parts)
  | .lambda info t u v => node info (t.parts ++ u.parts ++ v.parts)
  | .typeInit info t u => node info (HasParts.parts t ++ u.parts)
  | .tableQuery info t u v w x =>
    node info (t.parts ++ u.parts ++ v.parts ++ w.parts ++ HasParts.parts x)
  | .typeConversion info t u v => node info (t.parts ++ u.parts ++ v.parts)
  | .unary info k t => node info (HasParts.parts k ++ t.parts)
  | .braced info t => node info t.parts
  | .tuple info t => node info t.parts
  | .await info t => node info t.parts
  | .check info t => node info t.parts
  | .binary info t k u => node info (t.parts ++ HasParts.parts k ++ u.parts)
  | .range info t k u => node info (t.parts ++ HasParts.parts k ++ u.parts)
  | .elvis info t k u => node info (t.parts ++ HasParts.parts k ++ u.parts)
  | .ternary info t u v => node info (t.parts ++ u.parts ++ v.parts)
  | .matching info t u => node info (t.parts ++ u.parts)
  | .typeAccess info t => node info t.parts
  | .missingExpression info => node info .nil
  | .recordLiteral info t => node info t.parts
  | .recordField info t u => node info (t.parts ++ u.parts)
  | .keyName n => HasParts.parts n
  | .keyExpression t => t.parts
  | .matchArm info t n u => node info (t.parts ++ HasParts.parts n ++ u.parts)
  | .block info t => node info t.parts
  | .variableDefinition info t n u => node info (t.parts ++ HasParts.parts n ++ u.parts)
  | .defineVariable t => t.parts
  | .assign info k t u => node info (HasParts.parts k ++ t.parts ++ u.parts)
  | .compoundAssign info t k u => node info (t.parts ++ HasParts.parts k ++ u.parts)
  | .destructure info k t u => node info (HasParts.parts k ++ t.parts ++ u.parts)
  | .ifElse info t u v => node info (t.parts ++ u.parts ++ v.parts)
  | .matchStatement info t u => node info (t.parts ++ u.parts)
  | .foreach info t u v => node info (t.parts ++ u.parts ++ v.parts)
  | .whileLoop info t u => node info (t.parts ++ u.parts)
  | .continueLoop info => node info .nil
  | .breakLoop info => node info .nil
  | .forkJoin info t u v => node info (t.parts ++ u.parts ++ v.parts)
  | .tryCatch info t u v => node info (t.parts ++ u.parts ++ v.parts)
  | .throwError info t => node info t.parts
  | .returnValue info t => node info t.parts
  | .workerSend info t k u => node info (t.parts ++ HasParts.parts k ++ u.parts)
  | .workerReceive info t n u => node info (t.parts ++ HasParts.parts n ++ u.parts)
  | .evaluate info t => node info t.parts
  | .transaction info t u v => node info (t.parts ++ u.parts ++ v.parts)
  | .abortTransaction info => node info .nil
  | .retryTransaction info => node info .nil
  | .lock info t => node info t.parts
  | .declareNamespace t => HasParts.parts t
  | .forever info t => node info t.parts
  | .missingStatement info => node info .nil
  | .targetReferences t => t.parts
  | .targetParameters t => t.parts
  | .ifClause info t u => node info (t.parts ++ u.parts)
  | .elseClause info t => node info t.parts
  | .matchClause info t n u => node info (t.parts ++ HasParts.parts n ++ u.parts)
  | .matchStatementBody t => t.parts
  | .matchBlockBody t => t.parts
  | .iterableExpression t => t.parts
  | .iterableRange t => t.parts
  | .intRange info k t u l =>
    node info (HasParts.parts k ++ t.parts ++ u.parts ++ HasParts.parts l)
  | .joinClause info t u n v =>
    node info (HasParts.parts t ++ u.parts ++ HasParts.parts n ++ v.parts)
  | .timeoutClause info t u n v => node info (t.parts ++ u.parts ++ HasParts.parts n ++ v.parts)
  | .catchClause info t n u => node info (t.parts ++ HasParts.parts n ++ u.parts)
  | .finallyClause info t => node info t.parts
  | .transactionProperty info k t => node info (HasParts.parts k ++ t.parts)
  | .onRetryClause info t => node info t.parts
  | .itemElement t => t.parts
  | .itemInstruction t => t.parts
  | .itemComment t => t.parts
  | .itemText t => t.parts
  | .itemCdata k => HasParts.parts k
  | .xmlElement info t u v => node info (t.parts ++ u.parts ++ v.parts)
  | .xmlStartTag info t u => node info (t.parts ++ u.parts)
  | .xmlCloseTag info t => node info t.parts
  | .xmlAttribute info t u => node info (t.parts ++ u.parts)
  | .xmlName t => HasParts.parts t
  | .xmlNameInterpolation info t => node info t.parts
  | .xmlQuotedString info t => node info t.parts
  | .contentText t => t.parts
  | .contentElement t => t.parts
  | .contentCdata k => HasParts.parts k
  | .contentInstruction t => t.parts
  | .contentComment t => t.parts
  | .xmlComment info t => node info t.parts
  | .xmlInstruction info k t => node info (HasParts.parts k ++ t.parts)
  | .interpolatedText info t => node info t.parts
  | .plainText k => HasParts.parts k
  | .interpolation info k t l => node info (HasParts.parts k ++ t.parts ++ HasParts.parts l)
  | .streamingQuery info t u v w x =>
    node info (t.parts ++ u.parts ++ v.parts ++ HasParts.parts w ++ x.parts)
  | .querySourceInput t u => t.parts ++ u.parts
  | .querySourcePattern t => t.parts
  | .streamingInput info t u v w x y n =>
    node info (t.parts ++ u.parts ++ v.parts ++ w.parts ++ x.parts ++ y.parts ++ HasParts.parts n)
  | .joinInput info k t u v =>
    node info (HasParts.parts k ++ HasParts.parts t ++ u.parts ++ v.parts)
  | .patternClause info k t u => node info (HasParts.parts k ++ t.parts ++ HasParts.parts u)
  | .followedBy info t u => node info (t.parts ++ u.parts)
  | .groupedPattern info t => node info t.parts
  | .negatedPattern info t u v k =>
    node info (t.parts ++ u.parts ++ HasParts.parts v ++ HasParts.parts k)
  | .logicalPattern info t k u => node info (t.parts ++ HasParts.parts k ++ u.parts)
  | .edgePattern t => t.parts
  | .patternEdge info t u v n => node info (t.parts ++ u.parts ++ v.parts ++ HasParts.parts n)
  | .whereClause info t => node info t.parts
  | .windowClause info t => node info t.parts
  | .selectClause info k t u v => node info (HasParts.parts k ++ t.parts ++ u.parts ++ v.parts)
  | .selectItem info t n => node info (t.parts ++ HasParts.parts n)
  | .groupByClause info t => node info t.parts
  | .havingClause info t => node info t.parts
  | .orderByClause info t => node info t.parts
  | .orderByItem info t k => node info (t.parts ++ HasParts.parts k)
  | .streamingAction info t u => node info (t.parts ++ u.parts)

instance {c : Category} : HasParts (Tree c) := ⟨Tree.parts⟩

end Tree

/-! ## Units -/

instance : HasParts ImportItem where
  parts
    | .package d => parts d
    | .xmlNamespace d => parts d

instance : HasParts ServiceBinding where
  parts | ⟨info, endpoints, record⟩ => node info (parts endpoints ++ parts record)

instance : HasParts ResourceParameterList where
  parts | ⟨info, caller, parameters⟩ => node info (parts caller ++ parts parameters)

instance : HasParts ResourceDefinition where
  parts
    | ⟨info, metadata, name, parameters, body⟩ =>
      node info (parts metadata ++ parts name ++ parts parameters ++ parts body)

instance : HasParts ServiceBody where
  parts
    | ⟨info, endpoints, variableMembers, resources⟩ =>
      node info (parts endpoints ++ parts variableMembers ++ parts resources)

instance : HasParts ServiceDefinition where
  parts
    | ⟨info, metadata, endpointType, name, binding, body⟩ =>
      node info (parts metadata ++ parts endpointType ++ parts name ++ parts binding ++ parts body)

instance : HasParts FunctionDefinition where
  parts
    | ⟨info, metadata, receiver, signature, body⟩ =>
      node info (parts metadata ++ parts receiver ++ parts signature ++ parts body)

instance : HasParts FiniteTypeUnit where
  parts
    | .literal l => parts l
    | .type t => parts t

instance : HasParts FiniteType where
  parts | ⟨info, units⟩ => node info (parts units)

instance : HasParts TypeDefinition where
  parts
    | ⟨info, metadata, name, finiteType⟩ =>
      node info (parts metadata ++ parts name ++ parts finiteType)

instance : HasParts AnnotationDefinition where
  parts
    | ⟨info, metadata, attachPoints, name, type⟩ =>
      node info (parts metadata ++ parts attachPoints ++ parts name ++ parts type)

instance : HasParts GlobalVariableDefinition where
  parts
    | ⟨info, metadata, type, name, initializer⟩ =>
      node info (parts metadata ++ parts type ++ parts name ++ parts initializer)

instance : HasParts GlobalEndpointDefinition where
  parts | ⟨info, metadata, endpoint⟩ => node info (parts metadata ++ parts endpoint)

instance : HasParts Definition where
  parts
    | .service d => parts d
    | .function d => parts d
    | .type d => parts d
    | .annotationType d => parts d
    | .variable d => parts d
    | .endpoint d => parts d
    | .missing info => node info .nil

instance : HasParts CompilationUnit where
  parts
    | ⟨info, imports, definitions, endOfFile⟩ =>
      node info (parts imports ++ parts definitions ++ parts endOfFile)

end BallerinaSyntax
