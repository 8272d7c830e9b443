import BallerinaSyntax.Kind.Name
import BallerinaSyntax.Tree.Leaf

/-!
Outlines. An outline shows a tree without its rules: every node with its parts under their names,
every choice under the name of what was chosen, down to the tokens that the nodes hold.
-/

namespace BallerinaSyntax

/-- An outline, or a row of outlines: of the items of a list, or of the parts of a node. -/
inductive Outline where
  /-- An optional part that is not there. -/
  | nothing
  /-- The end of a row. -/
  | nil
  | item (head tail : Outline)
  | part (name : String) (value rest : Outline)
  | word (text : String)
  | number (n : Nat)
  | leaf (token : Leaf)
  | named (name : Identifier)
  /-- A node without parts, which recovery put in. -/
  | placeholder (info : NodeInfo)
  | branch (info : NodeInfo) (parts : Outline)
  /-- Parts that belong to the node around them. -/
  | group (parts : Outline)
  | choice (name : String) (value : Outline)
deriving Repr, Inhabited

namespace Outline

variable {α : Type}

def parts : List (String × Outline) → Outline
  | [] => nil
  | (name, value) :: rest => part name value (parts rest)

def node (info : NodeInfo) (ps : List (String × Outline)) : Outline := branch info (parts ps)

def record (ps : List (String × Outline)) : Outline := group (parts ps)

def optional (f : α → Outline) : Option α → Outline
  | none => nothing
  | some a => f a

def list (f : α → Outline) : List α → Outline
  | [] => nil
  | a :: rest => item (f a) (list f rest)

end Outline

/-! ## The text of nodes and tokens -/

/-- The names of the flags that are set, with bars between them, behind their label. -/
def labelled (label : String) (flags : List (String × Bool)) : String :=
  match flags.filter Prod.snd with
  | [] => ""
  | given => " " ++ label ++ "=" ++ "|".intercalate (given.map Prod.fst)

/-- The kind, the bytes, the tokens, and whichever flags and modifiers there are. -/
def NodeInfo.text (n : NodeInfo) : String :=
  s!"{n.kind} {n.range} {n.tokens}" ++
    labelled "flags" [("HAS_ERROR", n.flags.hasError), ("MISSING", n.flags.missing),
      ("UNTERMINATED", n.flags.unterminated)] ++
    labelled "modifiers" [("PUBLIC", n.modifiers.isPublic), ("PRIVATE", n.modifiers.isPrivate),
      ("NATIVE", n.modifiers.isNative)]

def Leaf.text (l : Leaf) : String :=
  s!"{l.kind} {l.range} #{l.index}" ++ if l.missing then " missing" else ""

/-! ## Outlines of small parts -/

def NameReference.outline (r : NameReference) : Outline :=
  .node r.info [("package", .optional .named r.package), ("name", .named r.name)]

def LiteralKind.outline : LiteralKind → Outline
  | .integer => .word "Integer"
  | .float => .word "Float"
  | .string => .word "String"
  | .boolean => .word "Boolean"
  | .null => .word "Null"
  | .nil => .word "Nil"
  | .blob => .word "Blob"

def Literal.outline (l : Literal) : Outline :=
  .node l.info [("kind", l.kind.outline), ("sign", .optional .leaf l.sign),
    ("value", .leaf l.value)]

def PackageName.outline (p : PackageName) : Outline :=
  .node p.info [("segments", .list .named p.segments), ("version", .optional .leaf p.version)]

def ImportDeclaration.outline (d : ImportDeclaration) : Outline :=
  .node d.info [("org_name", .optional .named d.organization), ("package", d.package.outline),
    ("alias", .optional .named d.asName)]

def NamespaceDeclaration.outline (d : NamespaceDeclaration) : Outline :=
  .node d.info [("uri", .leaf d.uri), ("prefix", .optional .named d.asName)]

def UserDefinedType.outline (t : UserDefinedType) : Outline :=
  .node t.info [("name", t.name.outline)]

def XmlNamespaceConstraint.outline (c : XmlNamespaceConstraint) : Outline :=
  .node c.info [("namespace", .optional .leaf c.uri), ("local_name", .named c.localName)]

def ArrayDimension.outline (d : ArrayDimension) : Outline :=
  .node d.info [("size", .optional .leaf d.size)]

def FieldName.outline : FieldName → Outline
  | .name i => .choice "Name" (.named i)
  | .all star => .choice "All" (.leaf star)

def WorkerTarget.outline : WorkerTarget → Outline
  | .worker i => .choice "Worker" (.named i)
  | .fork keyword => .choice "Fork" (.leaf keyword)

def JoinConditionKind.outline : JoinConditionKind → Outline
  | .some => .word "Some"
  | .all => .word "All"

def JoinConditions.outline (c : JoinConditions) : Outline :=
  .node c.info [("kind", c.kind.outline), ("count", .optional .leaf c.count),
    ("workers", .list .named c.workers)]

def XmlName.outline (n : XmlName) : Outline :=
  .node n.info [("prefix", .optional .leaf n.space), ("local", .leaf n.localName)]

def JoinKind.outline : JoinKind → Outline
  | .inner => .word "Inner"
  | .outer => .word "Outer"
  | .leftOuter => .word "LeftOuter"
  | .rightOuter => .word "RightOuter"
  | .fullOuter => .word "FullOuter"

def JoinType.outline (t : JoinType) : Outline := .node t.info [("kind", t.kind.outline)]

def WithinClause.outline (c : WithinClause) : Outline :=
  .node c.info [("duration", .leaf c.duration), ("time_scale", .leaf c.timeScale)]

def LimitClause.outline (c : LimitClause) : Outline := .node c.info [("count", .leaf c.count)]

def OutputRateLimit.outline (c : OutputRateLimit) : Outline :=
  .node c.info [("selector", .optional .leaf c.selector), ("snapshot", .optional .leaf c.snapshot),
    ("amount", .leaf c.amount), ("unit", .leaf c.unit)]

def InlineCode.outline (c : InlineCode) : Outline :=
  .node c.info [("backticks", .number c.backticks), ("code", .optional .leaf c.code)]

def DocumentationPart.outline : DocumentationPart → Outline
  | .text token => .choice "Text" (.leaf token)
  | .code c => .choice "InlineCode" c.outline

def DocumentationText.outline (t : DocumentationText) : Outline :=
  .node t.info [("parts", .list DocumentationPart.outline t.parts)]

def DocumentationAttribute.outline (a : DocumentationAttribute) : Outline :=
  .node a.info [("marker", .leaf a.marker), ("name", .optional .named a.name),
    ("description", .optional DocumentationText.outline a.description)]

def Documentation.outline (d : Documentation) : Outline :=
  .node d.info [("text", .optional DocumentationText.outline d.text),
    ("attributes", .list DocumentationAttribute.outline d.attributes)]

def Deprecation.outline (d : Deprecation) : Outline :=
  .node d.info [("text", .optional DocumentationText.outline d.text)]

end BallerinaSyntax
