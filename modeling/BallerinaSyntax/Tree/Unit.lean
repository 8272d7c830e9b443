import BallerinaSyntax.Tree.Info

/-! Compilation units: imports, then definitions, then the end of the input. -/

namespace BallerinaSyntax

inductive ImportItem where
  | package (declaration : ImportDeclaration)
  | xmlNamespace (declaration : NamespaceDeclaration)
deriving DecidableEq, Repr, Inhabited

/-- What a service is bound to: endpoints by name, or a record. -/
structure ServiceBinding where
  info : NodeInfo
  endpoints : List NameReference
  record : Option (Tree .recordLiteral)

structure ResourceParameterList where
  info : NodeInfo
  /-- The endpoint that receives the call. -/
  caller : Option Identifier
  parameters : List (Tree .parameter)

structure ResourceDefinition where
  info : NodeInfo
  metadata : Metadata
  name : Identifier
  parameters : ResourceParameterList
  body : Tree .callableBody

structure ServiceBody where
  info : NodeInfo
  endpoints : List (Tree .endpoint)
  variableMembers : List (Tree .variableDefinition)
  resources : List ResourceDefinition

structure ServiceDefinition where
  info : NodeInfo
  metadata : Metadata
  endpointType : Option NameReference
  name : Identifier
  binding : Option ServiceBinding
  body : ServiceBody

structure FunctionDefinition where
  info : NodeInfo
  metadata : Metadata
  /-- The object type that a function defined outside of it belongs to. -/
  receiver : Option Identifier
  signature : Tree .signature
  body : Option (Tree .callableBody)

inductive FiniteTypeUnit where
  | literal (value : Literal)
  | type (type : TypeName)

/-- Literal values and type names, separated by bars. -/
structure FiniteType where
  info : NodeInfo
  units : List FiniteTypeUnit

structure TypeDefinition where
  info : NodeInfo
  metadata : Metadata
  name : Identifier
  finiteType : FiniteType

structure AnnotationDefinition where
  info : NodeInfo
  metadata : Metadata
  /-- The keywords of the constructs to which it may be attached. -/
  attachPoints : List Leaf
  name : Identifier
  type : Option TypeName

structure GlobalVariableDefinition where
  info : NodeInfo
  metadata : Metadata
  type : TypeName
  name : Identifier
  initializer : Option Expression

structure GlobalEndpointDefinition where
  info : NodeInfo
  metadata : Metadata
  endpoint : Tree .endpoint

inductive Definition where
  | service (definition : ServiceDefinition)
  | function (definition : FunctionDefinition)
  | type (definition : TypeDefinition)
  | annotationType (definition : AnnotationDefinition)
  | variable (definition : GlobalVariableDefinition)
  | endpoint (definition : GlobalEndpointDefinition)
  | missing (info : NodeInfo)

def Definition.info : Definition → NodeInfo
  | .service d => d.info
  | .function d => d.info
  | .type d => d.info
  | .annotationType d => d.info
  | .variable d => d.info
  | .endpoint d => d.info
  | .missing info => info

def ImportItem.info : ImportItem → NodeInfo
  | .package d => d.info
  | .xmlNamespace d => d.info

structure CompilationUnit where
  info : NodeInfo
  imports : List ImportItem
  definitions : List Definition
  endOfFile : Leaf

namespace Tree

/-! ## Questions about a tree -/

/-- The reference that an expression consists of, unless it is started asynchronously. -/
def asReference? : Expression → Option Reference
  | .variable _ none r => some r
  | _ => none

/-- The operator of a binary, range or elvis expression. -/
def binaryOperator? : Expression → Option Kind
  | .binary _ _ op _ | .range _ _ op _ | .elvis _ _ op _ => some op.kind
  | _ => none

def literal? : Expression → Option Literal
  | .literal l => some l
  | _ => none

def isMissingStatement : Statement → Bool
  | .missingStatement _ => true
  | _ => false

/-- The name that a statement defines. -/
def definedName? : Statement → Option Identifier
  | .defineVariable (.variableDefinition _ _ name _) => some name
  | _ => none

def statementCount : Block → Nat
  | .block _ statements => statements.toList.length

def isEmptyMetadata : Metadata → Bool
  | .metadata documentation deprecated annotations =>
    documentation.isEmpty && deprecated.isEmpty && annotations.toList.isEmpty

/-- The documentation in force: the first one. -/
def documentation? : Metadata → Option Documentation
  | .metadata documentation _ _ => documentation.head?

/-- The deprecation notice in force: the first one. -/
def deprecation? : Metadata → Option Deprecation
  | .metadata _ deprecated _ => deprecated.head?

def attachmentName : Tree .attachment → Identifier
  | .attachment _ name _ => name.name

/-- Whether an element is written as one empty tag. -/
def isEmptyElement : Tree .xmlElement → Bool
  | .xmlElement _ (.xmlStartTag info ..) _ _ => info.kind == .xmlEmptyTag

end Tree

end BallerinaSyntax
