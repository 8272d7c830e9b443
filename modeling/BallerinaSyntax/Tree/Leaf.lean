import BallerinaSyntax.NodeInfo

/-!
The parts of a tree that hold no other nodes, or only nodes of their own small kind: tokens,
names, literals, documentation, and clauses that consist of tokens alone.
-/

namespace BallerinaSyntax

/-- A token that a node holds directly. -/
structure Leaf where
  kind : Kind
  /-- Its place in the token buffer; for a missing token, the place where it was expected. -/
  index : Nat
  range : ByteRange
  /-- Made up by recovery. -/
  missing : Bool := false
deriving DecidableEq, Repr, Inhabited

/-- What stands in a tree for the text of a name: the text itself, or its handle in a table that is
shared with other units. -/
inductive Symbol where
  | text (s : String)
  | handle (n : Nat)
deriving DecidableEq, Repr, Inhabited

instance : Coe String Symbol := ⟨.text⟩

structure Identifier where
  token : Leaf
  /-- The name; that of a missing token is empty. -/
  symbol : Symbol
deriving DecidableEq, Repr, Inhabited

/-- The text of a name, if it stands in the tree; behind a handle only the table knows it. -/
def Identifier.name (i : Identifier) : String :=
  match i.symbol with
  | .text s => s
  | .handle _ => ""

/-- A name, or a package and a name joined by a colon. -/
structure NameReference where
  info : NodeInfo
  package : Option Identifier
  name : Identifier
deriving DecidableEq, Repr, Inhabited

inductive LiteralKind where
  | integer | float | string | boolean | null
  /-- The empty tuple. -/
  | nil
  | blob
deriving DecidableEq, Repr, Inhabited

structure Literal where
  info : NodeInfo
  kind : LiteralKind
  /-- The minus in front of a number. -/
  sign : Option Leaf
  /-- The token of the literal; the opening one of an empty tuple. -/
  value : Leaf
deriving DecidableEq, Repr, Inhabited

structure PackageName where
  info : NodeInfo
  segments : List Identifier
  version : Option Leaf
deriving DecidableEq, Repr, Inhabited

structure ImportDeclaration where
  info : NodeInfo
  organization : Option Identifier
  package : PackageName
  asName : Option Identifier
deriving DecidableEq, Repr, Inhabited

structure NamespaceDeclaration where
  info : NodeInfo
  uri : Leaf
  asName : Option Identifier
deriving DecidableEq, Repr, Inhabited

/-! ## Types and references -/

structure UserDefinedType where
  info : NodeInfo
  name : NameReference
deriving DecidableEq, Repr, Inhabited

structure XmlNamespaceConstraint where
  info : NodeInfo
  uri : Option Leaf
  localName : Identifier
deriving DecidableEq, Repr, Inhabited

structure ArrayDimension where
  info : NodeInfo
  size : Option Leaf
deriving DecidableEq, Repr, Inhabited

/-- What stands behind the accessor of a field reference. -/
inductive FieldName where
  | name (name : Identifier)
  | all (star : Leaf)
deriving DecidableEq, Repr, Inhabited

/-! ## Statements -/

inductive WorkerTarget where
  | worker (name : Identifier)
  | fork (keyword : Leaf)
deriving DecidableEq, Repr, Inhabited

inductive JoinConditionKind where
  | some | all
deriving DecidableEq, Repr, Inhabited

structure JoinConditions where
  info : NodeInfo
  kind : JoinConditionKind
  count : Option Leaf
  workers : List Identifier
deriving DecidableEq, Repr, Inhabited

/-! ## XML -/

/-- A local name, with or without a namespace before it. -/
structure XmlName where
  info : NodeInfo
  space : Option Leaf
  localName : Leaf
deriving DecidableEq, Repr, Inhabited

/-! ## Queries -/

inductive JoinKind where
  | inner | outer | leftOuter | rightOuter | fullOuter
deriving DecidableEq, Repr, Inhabited

structure JoinType where
  info : NodeInfo
  kind : JoinKind
deriving DecidableEq, Repr, Inhabited

structure WithinClause where
  info : NodeInfo
  duration : Leaf
  timeScale : Leaf
deriving DecidableEq, Repr, Inhabited

structure LimitClause where
  info : NodeInfo
  count : Leaf
deriving DecidableEq, Repr, Inhabited

structure OutputRateLimit where
  info : NodeInfo
  selector : Option Leaf
  snapshot : Option Leaf
  amount : Leaf
  /-- A time scale or `events`. -/
  unit : Leaf
deriving DecidableEq, Repr, Inhabited

/-! ## Documentation -/

/-- Code between one, two or three backticks on each side. -/
structure InlineCode where
  info : NodeInfo
  backticks : Nat
  code : Option Leaf
deriving DecidableEq, Repr, Inhabited

inductive DocumentationPart where
  | text (token : Leaf)
  | code (code : InlineCode)
deriving DecidableEq, Repr, Inhabited

structure DocumentationText where
  info : NodeInfo
  parts : List DocumentationPart
deriving DecidableEq, Repr, Inhabited

structure DocumentationAttribute where
  info : NodeInfo
  marker : Leaf
  name : Option Identifier
  description : Option DocumentationText
deriving DecidableEq, Repr, Inhabited

structure Documentation where
  info : NodeInfo
  text : Option DocumentationText
  attributes : List DocumentationAttribute
deriving DecidableEq, Repr, Inhabited

structure Deprecation where
  info : NodeInfo
  text : Option DocumentationText
deriving DecidableEq, Repr, Inhabited

end BallerinaSyntax
