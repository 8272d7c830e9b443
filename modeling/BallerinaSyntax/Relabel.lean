import BallerinaSyntax.Grammar.Rule

/-!
How a tree reads in another unit. The tokens that a tree was read from may stand further behind
there, and they may have other texts and offsets: then byte ranges and names do not count. Names may
also be other symbols there, as when they become handles in a table. Two results of reading are alike
if they come to the same after such a relabelling.
-/

namespace BallerinaSyntax

/-- How the tokens of one unit appear in another one. -/
structure Relabelling where
  /-- How much further behind the tokens stand. -/
  shift : Nat := 0
  /-- How many more errors were counted before them. -/
  errors : Nat := 0
  /-- Whether byte ranges are those of the tokens; else they are left out. -/
  verbatim : Bool := true
  /-- What becomes of names. -/
  rename : Symbol → Symbol := id

/-- What can be read in another unit. -/
class Relabels (α : Type) where
  relabel : Relabelling → α → α

export Relabels (relabel)

variable {α β : Type}

/-! ## Values that name no tokens -/

/-- A type whose values are the same in every unit. -/
class Plain (α : Type) extends Relabels α where
  relabel_eq : ∀ ρ (a : α), relabel ρ a = a

instance : Plain Unit := { relabel := fun _ a => a, relabel_eq := fun _ _ => rfl }

instance : Plain Bool := { relabel := fun _ a => a, relabel_eq := fun _ _ => rfl }

instance : Plain Nat := { relabel := fun _ a => a, relabel_eq := fun _ _ => rfl }

instance : Plain Modifiers := { relabel := fun _ a => a, relabel_eq := fun _ _ => rfl }

instance : Plain JoinKind := { relabel := fun _ a => a, relabel_eq := fun _ _ => rfl }

/-! ## Collections -/

instance [Relabels α] : Relabels (Option α) where
  relabel ρ
    | none => none
    | some a => some (relabel ρ a)

instance [Relabels α] : Relabels (List α) := ⟨fun ρ => List.map (relabel ρ)⟩

instance [Relabels α] : Relabels (Array α) := ⟨fun ρ => Array.map (relabel ρ)⟩

instance [Relabels α] [Relabels β] : Relabels (α × β) where
  relabel ρ
    | (a, b) => (relabel ρ a, relabel ρ b)

instance [Relabels α] [Relabels β] : Relabels (Parse.Turn α β) where
  relabel ρ
    | .again a => .again (relabel ρ a)
    | .stop b => .stop (relabel ρ b)

/-! ## Places, tokens and names -/

instance : Relabels ByteRange := ⟨fun ρ range => if ρ.verbatim then range else .empty 0⟩

instance : Relabels TokenRange := ⟨fun ρ range => ⟨range.start + ρ.shift, range.stop + ρ.shift⟩⟩

instance : Relabels Mark := ⟨fun ρ m => ⟨m.index + ρ.shift, m.errors + ρ.errors⟩⟩

instance : Relabels NodeInfo where
  relabel ρ
    | ⟨kind, range, tokens, flags, modifiers⟩ =>
      ⟨kind, relabel ρ range, relabel ρ tokens, flags, modifiers⟩

instance : Relabels Leaf where
  relabel ρ
    | ⟨kind, index, range, missing⟩ => ⟨kind, index + ρ.shift, relabel ρ range, missing⟩

instance : Relabels Symbol := ⟨fun ρ symbol => ρ.rename symbol⟩

instance : Relabels Identifier where
  relabel ρ
    | ⟨token, symbol⟩ => ⟨relabel ρ token, relabel ρ symbol⟩

/-! ## Parts without rules of their own -/

instance : Relabels NameReference where
  relabel ρ
    | ⟨info, package, name⟩ => ⟨relabel ρ info, relabel ρ package, relabel ρ name⟩

instance : Relabels Literal where
  relabel ρ
    | ⟨info, kind, sign, value⟩ => ⟨relabel ρ info, kind, relabel ρ sign, relabel ρ value⟩

instance : Relabels PackageName where
  relabel ρ
    | ⟨info, segments, version⟩ => ⟨relabel ρ info, relabel ρ segments, relabel ρ version⟩

instance : Relabels ImportDeclaration where
  relabel ρ
    | ⟨info, organization, package, asName⟩ =>
      ⟨relabel ρ info, relabel ρ organization, relabel ρ package, relabel ρ asName⟩

instance : Relabels NamespaceDeclaration where
  relabel ρ
    | ⟨info, uri, asName⟩ => ⟨relabel ρ info, relabel ρ uri, relabel ρ asName⟩

instance : Relabels UserDefinedType where
  relabel ρ
    | ⟨info, name⟩ => ⟨relabel ρ info, relabel ρ name⟩

instance : Relabels XmlNamespaceConstraint where
  relabel ρ
    | ⟨info, uri, localName⟩ => ⟨relabel ρ info, relabel ρ uri, relabel ρ localName⟩

instance : Relabels ArrayDimension where
  relabel ρ
    | ⟨info, size⟩ => ⟨relabel ρ info, relabel ρ size⟩

instance : Relabels FieldName where
  relabel ρ
    | .name name => .name (relabel ρ name)
    | .all star => .all (relabel ρ star)

instance : Relabels WorkerTarget where
  relabel ρ
    | .worker name => .worker (relabel ρ name)
    | .fork keyword => .fork (relabel ρ keyword)

instance : Relabels JoinConditions where
  relabel ρ
    | ⟨info, kind, count, workers⟩ => ⟨relabel ρ info, kind, relabel ρ count, relabel ρ workers⟩

instance : Relabels XmlName where
  relabel ρ
    | ⟨info, space, localName⟩ => ⟨relabel ρ info, relabel ρ space, relabel ρ localName⟩

instance : Relabels JoinType where
  relabel ρ
    | ⟨info, kind⟩ => ⟨relabel ρ info, kind⟩

instance : Relabels WithinClause where
  relabel ρ
    | ⟨info, duration, timeScale⟩ => ⟨relabel ρ info, relabel ρ duration, relabel ρ timeScale⟩

instance : Relabels LimitClause where
  relabel ρ
    | ⟨info, count⟩ => ⟨relabel ρ info, relabel ρ count⟩

instance : Relabels OutputRateLimit where
  relabel ρ
    | ⟨info, selector, snapshot, amount, unit⟩ =>
      ⟨relabel ρ info, relabel ρ selector, relabel ρ snapshot, relabel ρ amount, relabel ρ unit⟩

instance : Relabels InlineCode where
  relabel ρ
    | ⟨info, backticks, code⟩ => ⟨relabel ρ info, backticks, relabel ρ code⟩

instance : Relabels DocumentationPart where
  relabel ρ
    | .text token => .text (relabel ρ token)
    | .code code => .code (relabel ρ code)

instance : Relabels DocumentationText where
  relabel ρ
    | ⟨info, parts⟩ => ⟨relabel ρ info, relabel ρ parts⟩

instance : Relabels DocumentationAttribute where
  relabel ρ
    | ⟨info, marker, name, description⟩ =>
      ⟨relabel ρ info, relabel ρ marker, relabel ρ name, relabel ρ description⟩

instance : Relabels Documentation where
  relabel ρ
    | ⟨info, text, attributes⟩ => ⟨relabel ρ info, relabel ρ text, relabel ρ attributes⟩

instance : Relabels Deprecation where
  relabel ρ
    | ⟨info, text⟩ => ⟨relabel ρ info, relabel ρ text⟩

/-! ## Trees -/

/-- The tree as it reads in the other unit. -/
def Tree.relabelled {c : Category} (ρ : Relabelling) : Tree c → Tree c
  | .nil => .nil
  | .cons t u => .cons (t.relabelled ρ) (u.relabelled ρ)
  | .absent => .absent
  | .present t => .present (t.relabelled ρ)
  -- attachments and callables
  | .attachment info a t => .attachment (relabel ρ info) (relabel ρ a) (t.relabelled ρ)
  | .metadata a b t => .metadata (relabel ρ a) (relabel ρ b) (t.relabelled ρ)
  | .endpoint info t a b u =>
    .endpoint (relabel ρ info) (t.relabelled ρ) (relabel ρ a) (relabel ρ b) (u.relabelled ρ)
  | .endpointRecord t => .endpointRecord (t.relabelled ρ)
  | .endpointReference t => .endpointReference (t.relabelled ρ)
  | .callableBody info t u v =>
    .callableBody (relabel ρ info) (t.relabelled ρ) (u.relabelled ρ) (v.relabelled ρ)
  | .worker info a t => .worker (relabel ρ info) (relabel ρ a) (t.relabelled ρ)
  | .signature info a t u =>
    .signature (relabel ρ info) (relabel ρ a) (t.relabelled ρ) (u.relabelled ρ)
  | .parameterList info t => .parameterList (relabel ρ info) (t.relabelled ρ)
  | .simple t => .simple (t.relabelled ρ)
  | .tupleParameter info t u => .tupleParameter (relabel ρ info) (t.relabelled ρ) (u.relabelled ρ)
  | .defaultable info t u => .defaultable (relabel ρ info) (t.relabelled ρ) (u.relabelled ρ)
  | .restParameter info t u a =>
    .restParameter (relabel ρ info) (t.relabelled ρ) (u.relabelled ρ) (relabel ρ a)
  | .simpleParameter info t u a =>
    .simpleParameter (relabel ρ info) (t.relabelled ρ) (u.relabelled ρ) (relabel ρ a)
  | .returnParameter info t u => .returnParameter (relabel ρ info) (t.relabelled ρ) (u.relabelled ρ)
  -- types
  | .builtinType info a => .builtinType (relabel ρ info) (relabel ρ a)
  | .constrainedType info a t => .constrainedType (relabel ρ info) (relabel ρ a) (t.relabelled ρ)
  | .userDefinedType a => .userDefinedType (relabel ρ a)
  | .functionType info t u => .functionType (relabel ρ info) (t.relabelled ρ) (u.relabelled ρ)
  | .nilType info => .nilType (relabel ρ info)
  | .arrayType info t a => .arrayType (relabel ρ info) (t.relabelled ρ) (relabel ρ a)
  | .unionType info t => .unionType (relabel ρ info) (t.relabelled ρ)
  | .nullableType info t => .nullableType (relabel ρ info) (t.relabelled ρ)
  | .groupType info t => .groupType (relabel ρ info) (t.relabelled ρ)
  | .tupleType info t => .tupleType (relabel ρ info) (t.relabelled ρ)
  | .objectType info t u v w =>
    .objectType (relabel ρ info) (t.relabelled ρ) (u.relabelled ρ) (v.relabelled ρ) (w.relabelled ρ)
  | .recordType info t u => .recordType (relabel ρ info) (t.relabelled ρ) (u.relabelled ρ)
  | .missingType info => .missingType (relabel ρ info)
  | .typeConstraint t => .typeConstraint (t.relabelled ρ)
  | .namespaceConstraint a => .namespaceConstraint (relabel ρ a)
  | .functionTypeParameter info t u a =>
    .functionTypeParameter (relabel ρ info) (t.relabelled ρ) (u.relabelled ρ) (relabel ρ a)
  | .fieldBlock info t => .fieldBlock (relabel ρ info) (t.relabelled ρ)
  | .field info t u a v =>
    .field (relabel ρ info) (t.relabelled ρ) (u.relabelled ρ) (relabel ρ a) (v.relabelled ρ)
  | .restField info t => .restField (relabel ρ info) (t.relabelled ρ)
  | .objectInitializer info t u v =>
    .objectInitializer (relabel ρ info) (t.relabelled ρ) (u.relabelled ρ) (v.relabelled ρ)
  | .objectParameterList info t => .objectParameterList (relabel ρ info) (t.relabelled ρ)
  | .objectParameter info t u a b v =>
    .objectParameter (relabel ρ info) (t.relabelled ρ) (u.relabelled ρ) (relabel ρ a) (relabel ρ b)
      (v.relabelled ρ)
  | .objectFunction info t u v =>
    .objectFunction (relabel ρ info) (t.relabelled ρ) (u.relabelled ρ) (v.relabelled ρ)
  -- references
  | .simpleReference info a => .simpleReference (relabel ρ info) (relabel ρ a)
  | .functionCall t => .functionCall (t.relabelled ρ)
  | .indexReference info t u => .indexReference (relabel ρ info) (t.relabelled ρ) (u.relabelled ρ)
  | .fieldReference info t a b =>
    .fieldReference (relabel ρ info) (t.relabelled ρ) (relabel ρ a) (relabel ρ b)
  | .xmlAttributeReference info t u =>
    .xmlAttributeReference (relabel ρ info) (t.relabelled ρ) (u.relabelled ρ)
  | .methodCall info t a u =>
    .methodCall (relabel ρ info) (t.relabelled ρ) (relabel ρ a) (u.relabelled ρ)
  | .missingReference info => .missingReference (relabel ρ info)
  | .invocation info a t => .invocation (relabel ρ info) (relabel ρ a) (t.relabelled ρ)
  | .positional t => .positional (t.relabelled ρ)
  | .named info a t => .named (relabel ρ info) (relabel ρ a) (t.relabelled ρ)
  | .restArgument info t => .restArgument (relabel ρ info) (t.relabelled ρ)
  -- expressions
  | .literal a => .literal (relabel ρ a)
  | .array info t => .array (relabel ρ info) (t.relabelled ρ)
  | .record t => .record (t.relabelled ρ)
  | .table info t => .table (relabel ρ info) (t.relabelled ρ)
  | .xml info t => .xml (relabel ρ info) (t.relabelled ρ)
  | .stringTemplate info t => .stringTemplate (relabel ρ info) (t.relabelled ρ)
  | .variable info a t => .variable (relabel ρ info) (relabel ρ a) (t.relabelled ρ)
  | .action info a b t => .action (relabel ρ info) (relabel ρ a) (relabel ρ b) (t.relabelled ρ)
  | .lambda info t u v =>
    .lambda (relabel ρ info) (t.relabelled ρ) (u.relabelled ρ) (v.relabelled ρ)
  | .typeInit info a t => .typeInit (relabel ρ info) (relabel ρ a) (t.relabelled ρ)
  | .tableQuery info t u v w a =>
    .tableQuery (relabel ρ info) (t.relabelled ρ) (u.relabelled ρ) (v.relabelled ρ) (w.relabelled ρ)
      (relabel ρ a)
  | .typeConversion info t u v =>
    .typeConversion (relabel ρ info) (t.relabelled ρ) (u.relabelled ρ) (v.relabelled ρ)
  | .unary info a t => .unary (relabel ρ info) (relabel ρ a) (t.relabelled ρ)
  | .braced info t => .braced (relabel ρ info) (t.relabelled ρ)
  | .tuple info t => .tuple (relabel ρ info) (t.relabelled ρ)
  | .await info t => .await (relabel ρ info) (t.relabelled ρ)
  | .check info t => .check (relabel ρ info) (t.relabelled ρ)
  | .binary info t a u => .binary (relabel ρ info) (t.relabelled ρ) (relabel ρ a) (u.relabelled ρ)
  | .range info t a u => .range (relabel ρ info) (t.relabelled ρ) (relabel ρ a) (u.relabelled ρ)
  | .elvis info t a u => .elvis (relabel ρ info) (t.relabelled ρ) (relabel ρ a) (u.relabelled ρ)
  | .ternary info t u v =>
    .ternary (relabel ρ info) (t.relabelled ρ) (u.relabelled ρ) (v.relabelled ρ)
  | .matching info t u => .matching (relabel ρ info) (t.relabelled ρ) (u.relabelled ρ)
  | .typeAccess info t => .typeAccess (relabel ρ info) (t.relabelled ρ)
  | .missingExpression info => .missingExpression (relabel ρ info)
  | .recordLiteral info t => .recordLiteral (relabel ρ info) (t.relabelled ρ)
  | .recordField info t u => .recordField (relabel ρ info) (t.relabelled ρ) (u.relabelled ρ)
  | .keyName a => .keyName (relabel ρ a)
  | .keyExpression t => .keyExpression (t.relabelled ρ)
  | .matchArm info t a u =>
    .matchArm (relabel ρ info) (t.relabelled ρ) (relabel ρ a) (u.relabelled ρ)
  -- statements
  | .block info t => .block (relabel ρ info) (t.relabelled ρ)
  | .variableDefinition info t a u =>
    .variableDefinition (relabel ρ info) (t.relabelled ρ) (relabel ρ a) (u.relabelled ρ)
  | .defineVariable t => .defineVariable (t.relabelled ρ)
  | .assign info a t u => .assign (relabel ρ info) (relabel ρ a) (t.relabelled ρ) (u.relabelled ρ)
  | .compoundAssign info t a u =>
    .compoundAssign (relabel ρ info) (t.relabelled ρ) (relabel ρ a) (u.relabelled ρ)
  | .destructure info a t u =>
    .destructure (relabel ρ info) (relabel ρ a) (t.relabelled ρ) (u.relabelled ρ)
  | .ifElse info t u v =>
    .ifElse (relabel ρ info) (t.relabelled ρ) (u.relabelled ρ) (v.relabelled ρ)
  | .matchStatement info t u => .matchStatement (relabel ρ info) (t.relabelled ρ) (u.relabelled ρ)
  | .foreach info t u v =>
    .foreach (relabel ρ info) (t.relabelled ρ) (u.relabelled ρ) (v.relabelled ρ)
  | .whileLoop info t u => .whileLoop (relabel ρ info) (t.relabelled ρ) (u.relabelled ρ)
  | .continueLoop info => .continueLoop (relabel ρ info)
  | .breakLoop info => .breakLoop (relabel ρ info)
  | .forkJoin info t u v =>
    .forkJoin (relabel ρ info) (t.relabelled ρ) (u.relabelled ρ) (v.relabelled ρ)
  | .tryCatch info t u v =>
    .tryCatch (relabel ρ info) (t.relabelled ρ) (u.relabelled ρ) (v.relabelled ρ)
  | .throwError info t => .throwError (relabel ρ info) (t.relabelled ρ)
  | .returnValue info t => .returnValue (relabel ρ info) (t.relabelled ρ)
  | .workerSend info t a u =>
    .workerSend (relabel ρ info) (t.relabelled ρ) (relabel ρ a) (u.relabelled ρ)
  | .workerReceive info t a u =>
    .workerReceive (relabel ρ info) (t.relabelled ρ) (relabel ρ a) (u.relabelled ρ)
  | .evaluate info t => .evaluate (relabel ρ info) (t.relabelled ρ)
  | .transaction info t u v =>
    .transaction (relabel ρ info) (t.relabelled ρ) (u.relabelled ρ) (v.relabelled ρ)
  | .abortTransaction info => .abortTransaction (relabel ρ info)
  | .retryTransaction info => .retryTransaction (relabel ρ info)
  | .lock info t => .lock (relabel ρ info) (t.relabelled ρ)
  | .declareNamespace a => .declareNamespace (relabel ρ a)
  | .forever info t => .forever (relabel ρ info) (t.relabelled ρ)
  | .missingStatement info => .missingStatement (relabel ρ info)
  | .targetReferences t => .targetReferences (t.relabelled ρ)
  | .targetParameters t => .targetParameters (t.relabelled ρ)
  | .ifClause info t u => .ifClause (relabel ρ info) (t.relabelled ρ) (u.relabelled ρ)
  | .elseClause info t => .elseClause (relabel ρ info) (t.relabelled ρ)
  | .matchClause info t a u =>
    .matchClause (relabel ρ info) (t.relabelled ρ) (relabel ρ a) (u.relabelled ρ)
  | .matchStatementBody t => .matchStatementBody (t.relabelled ρ)
  | .matchBlockBody t => .matchBlockBody (t.relabelled ρ)
  | .iterableExpression t => .iterableExpression (t.relabelled ρ)
  | .iterableRange t => .iterableRange (t.relabelled ρ)
  | .intRange info a t u b =>
    .intRange (relabel ρ info) (relabel ρ a) (t.relabelled ρ) (u.relabelled ρ) (relabel ρ b)
  | .joinClause info a t b u =>
    .joinClause (relabel ρ info) (relabel ρ a) (t.relabelled ρ) (relabel ρ b) (u.relabelled ρ)
  | .timeoutClause info t u a v =>
    .timeoutClause (relabel ρ info) (t.relabelled ρ) (u.relabelled ρ) (relabel ρ a) (v.relabelled ρ)
  | .catchClause info t a u =>
    .catchClause (relabel ρ info) (t.relabelled ρ) (relabel ρ a) (u.relabelled ρ)
  | .finallyClause info t => .finallyClause (relabel ρ info) (t.relabelled ρ)
  | .transactionProperty info a t =>
    .transactionProperty (relabel ρ info) (relabel ρ a) (t.relabelled ρ)
  | .onRetryClause info t => .onRetryClause (relabel ρ info) (t.relabelled ρ)
  -- XML and templates
  | .itemElement t => .itemElement (t.relabelled ρ)
  | .itemInstruction t => .itemInstruction (t.relabelled ρ)
  | .itemComment t => .itemComment (t.relabelled ρ)
  | .itemText t => .itemText (t.relabelled ρ)
  | .itemCdata a => .itemCdata (relabel ρ a)
  | .xmlElement info t u v =>
    .xmlElement (relabel ρ info) (t.relabelled ρ) (u.relabelled ρ) (v.relabelled ρ)
  | .xmlStartTag info t u => .xmlStartTag (relabel ρ info) (t.relabelled ρ) (u.relabelled ρ)
  | .xmlCloseTag info t => .xmlCloseTag (relabel ρ info) (t.relabelled ρ)
  | .xmlAttribute info t u => .xmlAttribute (relabel ρ info) (t.relabelled ρ) (u.relabelled ρ)
  | .xmlName a => .xmlName (relabel ρ a)
  | .xmlNameInterpolation info t => .xmlNameInterpolation (relabel ρ info) (t.relabelled ρ)
  | .xmlQuotedString info t => .xmlQuotedString (relabel ρ info) (t.relabelled ρ)
  | .contentText t => .contentText (t.relabelled ρ)
  | .contentElement t => .contentElement (t.relabelled ρ)
  | .contentCdata a => .contentCdata (relabel ρ a)
  | .contentInstruction t => .contentInstruction (t.relabelled ρ)
  | .contentComment t => .contentComment (t.relabelled ρ)
  | .xmlComment info t => .xmlComment (relabel ρ info) (t.relabelled ρ)
  | .xmlInstruction info a t => .xmlInstruction (relabel ρ info) (relabel ρ a) (t.relabelled ρ)
  | .interpolatedText info t => .interpolatedText (relabel ρ info) (t.relabelled ρ)
  | .plainText a => .plainText (relabel ρ a)
  | .interpolation info a t b =>
    .interpolation (relabel ρ info) (relabel ρ a) (t.relabelled ρ) (relabel ρ b)
  -- queries
  | .streamingQuery info t u v a w =>
    .streamingQuery (relabel ρ info) (t.relabelled ρ) (u.relabelled ρ) (v.relabelled ρ)
      (relabel ρ a) (w.relabelled ρ)
  | .querySourceInput t u => .querySourceInput (t.relabelled ρ) (u.relabelled ρ)
  | .querySourcePattern t => .querySourcePattern (t.relabelled ρ)
  | .streamingInput info t u v w x y a =>
    .streamingInput (relabel ρ info) (t.relabelled ρ) (u.relabelled ρ) (v.relabelled ρ)
      (w.relabelled ρ) (x.relabelled ρ) (y.relabelled ρ) (relabel ρ a)
  | .joinInput info a b t u =>
    .joinInput (relabel ρ info) (relabel ρ a) (relabel ρ b) (t.relabelled ρ) (u.relabelled ρ)
  | .patternClause info a t b =>
    .patternClause (relabel ρ info) (relabel ρ a) (t.relabelled ρ) (relabel ρ b)
  | .followedBy info t u => .followedBy (relabel ρ info) (t.relabelled ρ) (u.relabelled ρ)
  | .groupedPattern info t => .groupedPattern (relabel ρ info) (t.relabelled ρ)
  | .negatedPattern info t u a b =>
    .negatedPattern (relabel ρ info) (t.relabelled ρ) (u.relabelled ρ) (relabel ρ a) (relabel ρ b)
  | .logicalPattern info t a u =>
    .logicalPattern (relabel ρ info) (t.relabelled ρ) (relabel ρ a) (u.relabelled ρ)
  | .edgePattern t => .edgePattern (t.relabelled ρ)
  | .patternEdge info t u v a =>
    .patternEdge (relabel ρ info) (t.relabelled ρ) (u.relabelled ρ) (v.relabelled ρ) (relabel ρ a)
  | .whereClause info t => .whereClause (relabel ρ info) (t.relabelled ρ)
  | .windowClause info t => .windowClause (relabel ρ info) (t.relabelled ρ)
  | .selectClause info a t u v =>
    .selectClause (relabel ρ info) (relabel ρ a) (t.relabelled ρ) (u.relabelled ρ) (v.relabelled ρ)
  | .selectItem info t a => .selectItem (relabel ρ info) (t.relabelled ρ) (relabel ρ a)
  | .groupByClause info t => .groupByClause (relabel ρ info) (t.relabelled ρ)
  | .havingClause info t => .havingClause (relabel ρ info) (t.relabelled ρ)
  | .orderByClause info t => .orderByClause (relabel ρ info) (t.relabelled ρ)
  | .orderByItem info t a => .orderByItem (relabel ρ info) (t.relabelled ρ) (relabel ρ a)
  | .streamingAction info t u => .streamingAction (relabel ρ info) (t.relabelled ρ) (u.relabelled ρ)

instance {c : Category} : Relabels (Tree c) := ⟨Tree.relabelled⟩

/-! ## Definitions and units -/

instance : Relabels ImportItem where
  relabel ρ
    | .package declaration => .package (relabel ρ declaration)
    | .xmlNamespace declaration => .xmlNamespace (relabel ρ declaration)

instance : Relabels ServiceBinding where
  relabel ρ
    | ⟨info, endpoints, record⟩ => ⟨relabel ρ info, relabel ρ endpoints, relabel ρ record⟩

instance : Relabels ResourceParameterList where
  relabel ρ
    | ⟨info, caller, parameters⟩ => ⟨relabel ρ info, relabel ρ caller, relabel ρ parameters⟩

instance : Relabels ResourceDefinition where
  relabel ρ
    | ⟨info, metadata, name, parameters, body⟩ =>
      ⟨relabel ρ info, relabel ρ metadata, relabel ρ name, relabel ρ parameters, relabel ρ body⟩

instance : Relabels ServiceBody where
  relabel ρ
    | ⟨info, endpoints, variableMembers, resources⟩ =>
      ⟨relabel ρ info, relabel ρ endpoints, relabel ρ variableMembers, relabel ρ resources⟩

instance : Relabels ServiceDefinition where
  relabel ρ
    | ⟨info, metadata, endpointType, name, binding, body⟩ =>
      ⟨relabel ρ info, relabel ρ metadata, relabel ρ endpointType, relabel ρ name,
        relabel ρ binding, relabel ρ body⟩

instance : Relabels FunctionDefinition where
  relabel ρ
    | ⟨info, metadata, receiver, signature, body⟩ =>
      ⟨relabel ρ info, relabel ρ metadata, relabel ρ receiver, relabel ρ signature, relabel ρ body⟩

instance : Relabels FiniteTypeUnit where
  relabel ρ
    | .literal value => .literal (relabel ρ value)
    | .type type => .type (relabel ρ type)

instance : Relabels FiniteType where
  relabel ρ
    | ⟨info, units⟩ => ⟨relabel ρ info, relabel ρ units⟩

instance : Relabels TypeDefinition where
  relabel ρ
    | ⟨info, metadata, name, finiteType⟩ =>
      ⟨relabel ρ info, relabel ρ metadata, relabel ρ name, relabel ρ finiteType⟩

instance : Relabels AnnotationDefinition where
  relabel ρ
    | ⟨info, metadata, attachPoints, name, type⟩ =>
      ⟨relabel ρ info, relabel ρ metadata, relabel ρ attachPoints, relabel ρ name, relabel ρ type⟩

instance : Relabels GlobalVariableDefinition where
  relabel ρ
    | ⟨info, metadata, type, name, initializer⟩ =>
      ⟨relabel ρ info, relabel ρ metadata, relabel ρ type, relabel ρ name, relabel ρ initializer⟩

instance : Relabels GlobalEndpointDefinition where
  relabel ρ
    | ⟨info, metadata, endpoint⟩ => ⟨relabel ρ info, relabel ρ metadata, relabel ρ endpoint⟩

instance : Relabels Definition where
  relabel ρ
    | .service definition => .service (relabel ρ definition)
    | .function definition => .function (relabel ρ definition)
    | .type definition => .type (relabel ρ definition)
    | .annotationType definition => .annotationType (relabel ρ definition)
    | .variable definition => .variable (relabel ρ definition)
    | .endpoint definition => .endpoint (relabel ρ definition)
    | .missing info => .missing (relabel ρ info)

instance : Relabels CompilationUnit where
  relabel ρ
    | ⟨info, imports, definitions, endOfFile⟩ =>
      ⟨relabel ρ info, relabel ρ imports, relabel ρ definitions, relabel ρ endOfFile⟩

/-! ## What is collected on the way -/

namespace Grammar

instance : Relabels Attachments where
  relabel ρ
    | ⟨documentation, deprecated, annotations⟩ =>
      ⟨relabel ρ documentation, relabel ρ deprecated, relabel ρ annotations⟩

instance : Relabels ObjectMembers where
  relabel ρ
    | ⟨publicFields, privateFields, initializer, functions⟩ =>
      ⟨relabel ρ publicFields, relabel ρ privateFields, relabel ρ initializer, relabel ρ functions⟩

instance : Relabels RecordMembers where
  relabel ρ
    | ⟨fields, rest⟩ => ⟨relabel ρ fields, relabel ρ rest⟩

instance : Relabels ServiceMembers where
  relabel ρ
    | ⟨endpoints, variableMembers, resources⟩ =>
      ⟨relabel ρ endpoints, relabel ρ variableMembers, relabel ρ resources⟩

instance : Relabels Heading where
  relabel ρ
    | ⟨mark, metadata, modifiers⟩ => ⟨relabel ρ mark, relabel ρ metadata, modifiers⟩

instance : Relabels UnitItems where
  relabel ρ
    | ⟨imports, definitions⟩ => ⟨relabel ρ imports, relabel ρ definitions⟩

end Grammar

/-! ## Relabelling what is built from parts -/

section

variable {ρ : Relabelling} [Relabels α]

theorem relabel_append (as bs : List α) : relabel ρ (as ++ bs) = relabel ρ as ++ relabel ρ bs :=
  List.map_append

theorem relabel_empty : relabel ρ (#[] : Array α) = #[] := Array.map_empty

theorem relabel_push (as : Array α) (a : α) :
    relabel ρ (as.push a) = (relabel ρ as).push (relabel ρ a) := Array.map_push

theorem relabel_toList (as : Array α) : relabel ρ as.toList = (relabel ρ as).toList :=
  Array.toList_map.symm

theorem relabel_getElem? (as : Array α) (i : Nat) : relabel ρ as[i]? = (relabel ρ as)[i]? := by
  refine Eq.trans ?_ Array.getElem?_map.symm
  cases as[i]? <;> rfl

theorem relabel_ofList {c : Category} (ts : List (Tree c)) :
    relabel ρ (Tree.ofList ts) = Tree.ofList (relabel ρ ts) := by
  induction ts with
  | nil => rfl
  | cons t ts ih => exact congrArg (Tree.cons _) ih

theorem relabel_ofOption {c : Category} (t : Option (Tree c)) :
    relabel ρ (Tree.ofOption t) = Tree.ofOption (relabel ρ t) := by
  cases t <;> rfl

theorem relabel_toOption {c : Category} (t : Tree (.option c)) :
    relabel ρ t.toOption = (relabel ρ t).toOption := by
  cases t <;> rfl

end

end BallerinaSyntax
