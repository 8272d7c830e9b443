import BallerinaSyntax.Relabel
import Mathlib.Tactic.TermCongr

/-! A relabelling that moves nothing and leaves nothing out changes nothing. -/

namespace BallerinaSyntax

/-- A type whose values are the same where no token is moved. -/
class Unmoved (α : Type) [Relabels α] : Prop where
  relabel_self : ∀ a : α, relabel {} a = a

export Unmoved (relabel_self)

attribute [simp] relabel_self

variable {α β : Type}

/-! ## Collections -/

instance [Plain α] : Unmoved α := ⟨Plain.relabel_eq _⟩

instance [Relabels α] [Unmoved α] : Unmoved (Option α) where
  relabel_self
    | none => rfl
    | some a => congrArg some (relabel_self a)

instance [Relabels α] [Unmoved α] : Unmoved (List α) where
  relabel_self as := (List.map_congr_left fun a _ => relabel_self a).trans (List.map_id' as)

/-! ## Places, tokens and names -/

instance : Unmoved ByteRange := ⟨fun _ => rfl⟩

instance : Unmoved TokenRange := ⟨fun _ => rfl⟩

instance : Unmoved NodeInfo := ⟨fun _ => rfl⟩

instance : Unmoved Leaf := ⟨fun _ => rfl⟩

instance : Unmoved Symbol := ⟨fun _ => rfl⟩

instance : Unmoved Identifier := ⟨fun _ => rfl⟩

/-! ## Parts without rules of their own -/

instance : Unmoved NameReference :=
  ⟨fun a => congr(NameReference.mk $(relabel_self a.1) $(relabel_self a.2) $(relabel_self a.3))⟩

instance : Unmoved Literal :=
  ⟨fun a => congr(Literal.mk $(relabel_self a.1) a.2 $(relabel_self a.3) $(relabel_self a.4))⟩

instance : Unmoved PackageName :=
  ⟨fun a => congr(PackageName.mk $(relabel_self a.1) $(relabel_self a.2) $(relabel_self a.3))⟩

instance : Unmoved ImportDeclaration :=
  ⟨fun a => congr(ImportDeclaration.mk $(relabel_self a.1) $(relabel_self a.2) $(relabel_self a.3)
    $(relabel_self a.4))⟩

instance : Unmoved NamespaceDeclaration :=
  ⟨fun a => congr(NamespaceDeclaration.mk $(relabel_self a.1) $(relabel_self a.2)
    $(relabel_self a.3))⟩

instance : Unmoved UserDefinedType :=
  ⟨fun a => congr(UserDefinedType.mk $(relabel_self a.1) $(relabel_self a.2))⟩

instance : Unmoved XmlNamespaceConstraint :=
  ⟨fun a => congr(XmlNamespaceConstraint.mk $(relabel_self a.1) $(relabel_self a.2)
    $(relabel_self a.3))⟩

instance : Unmoved ArrayDimension :=
  ⟨fun a => congr(ArrayDimension.mk $(relabel_self a.1) $(relabel_self a.2))⟩

instance : Unmoved FieldName :=
  ⟨fun a => by cases a <;> exact congrArg _ (relabel_self _)⟩

instance : Unmoved WorkerTarget :=
  ⟨fun a => by cases a <;> exact congrArg _ (relabel_self _)⟩

instance : Unmoved JoinConditions :=
  ⟨fun a => congr(JoinConditions.mk $(relabel_self a.1) a.2 $(relabel_self a.3)
    $(relabel_self a.4))⟩

instance : Unmoved XmlName :=
  ⟨fun a => congr(XmlName.mk $(relabel_self a.1) $(relabel_self a.2) $(relabel_self a.3))⟩

instance : Unmoved JoinType :=
  ⟨fun a => congr(JoinType.mk $(relabel_self a.1) a.2)⟩

instance : Unmoved WithinClause :=
  ⟨fun a => congr(WithinClause.mk $(relabel_self a.1) $(relabel_self a.2) $(relabel_self a.3))⟩

instance : Unmoved LimitClause :=
  ⟨fun a => congr(LimitClause.mk $(relabel_self a.1) $(relabel_self a.2))⟩

instance : Unmoved OutputRateLimit :=
  ⟨fun a => congr(OutputRateLimit.mk $(relabel_self a.1) $(relabel_self a.2) $(relabel_self a.3)
    $(relabel_self a.4) $(relabel_self a.5))⟩

instance : Unmoved InlineCode :=
  ⟨fun a => congr(InlineCode.mk $(relabel_self a.1) a.2 $(relabel_self a.3))⟩

instance : Unmoved DocumentationPart :=
  ⟨fun a => by cases a <;> exact congrArg _ (relabel_self _)⟩

instance : Unmoved DocumentationText :=
  ⟨fun a => congr(DocumentationText.mk $(relabel_self a.1) $(relabel_self a.2))⟩

instance : Unmoved DocumentationAttribute :=
  ⟨fun a => congr(DocumentationAttribute.mk $(relabel_self a.1) $(relabel_self a.2)
    $(relabel_self a.3) $(relabel_self a.4))⟩

instance : Unmoved Documentation :=
  ⟨fun a => congr(Documentation.mk $(relabel_self a.1) $(relabel_self a.2) $(relabel_self a.3))⟩

instance : Unmoved Deprecation :=
  ⟨fun a => congr(Deprecation.mk $(relabel_self a.1) $(relabel_self a.2))⟩

/-! ## Trees -/

theorem Tree.relabelled_self {c : Category} (t : Tree c) : t.relabelled {} = t := by
  induction t <;> first | rfl | (dsimp only [Tree.relabelled]; congr <;> exact relabel_self _)

instance {c : Category} : Unmoved (Tree c) := ⟨Tree.relabelled_self⟩

/-! ## Definitions and units -/

instance : Unmoved ImportItem :=
  ⟨fun a => by cases a <;> exact congrArg _ (relabel_self _)⟩

instance : Unmoved ServiceBinding :=
  ⟨fun a => congr(ServiceBinding.mk $(relabel_self a.1) $(relabel_self a.2) $(relabel_self a.3))⟩

instance : Unmoved ResourceParameterList :=
  ⟨fun a => congr(ResourceParameterList.mk $(relabel_self a.1) $(relabel_self a.2)
    $(relabel_self a.3))⟩

instance : Unmoved ResourceDefinition :=
  ⟨fun a => congr(ResourceDefinition.mk $(relabel_self a.1) $(relabel_self a.2) $(relabel_self a.3)
    $(relabel_self a.4) $(relabel_self a.5))⟩

instance : Unmoved ServiceBody :=
  ⟨fun a => congr(ServiceBody.mk $(relabel_self a.1) $(relabel_self a.2) $(relabel_self a.3)
    $(relabel_self a.4))⟩

instance : Unmoved ServiceDefinition :=
  ⟨fun a => congr(ServiceDefinition.mk $(relabel_self a.1) $(relabel_self a.2) $(relabel_self a.3)
    $(relabel_self a.4) $(relabel_self a.5) $(relabel_self a.6))⟩

instance : Unmoved FunctionDefinition :=
  ⟨fun a => congr(FunctionDefinition.mk $(relabel_self a.1) $(relabel_self a.2) $(relabel_self a.3)
    $(relabel_self a.4) $(relabel_self a.5))⟩

instance : Unmoved FiniteTypeUnit :=
  ⟨fun a => by cases a <;> exact congrArg _ (relabel_self _)⟩

instance : Unmoved FiniteType :=
  ⟨fun a => congr(FiniteType.mk $(relabel_self a.1) $(relabel_self a.2))⟩

instance : Unmoved TypeDefinition :=
  ⟨fun a => congr(TypeDefinition.mk $(relabel_self a.1) $(relabel_self a.2) $(relabel_self a.3)
    $(relabel_self a.4))⟩

instance : Unmoved AnnotationDefinition :=
  ⟨fun a => congr(AnnotationDefinition.mk $(relabel_self a.1) $(relabel_self a.2)
    $(relabel_self a.3) $(relabel_self a.4) $(relabel_self a.5))⟩

instance : Unmoved GlobalVariableDefinition :=
  ⟨fun a => congr(GlobalVariableDefinition.mk $(relabel_self a.1) $(relabel_self a.2)
    $(relabel_self a.3) $(relabel_self a.4) $(relabel_self a.5))⟩

instance : Unmoved GlobalEndpointDefinition :=
  ⟨fun a => congr(GlobalEndpointDefinition.mk $(relabel_self a.1) $(relabel_self a.2)
    $(relabel_self a.3))⟩

instance : Unmoved Definition :=
  ⟨fun a => by cases a <;> exact congrArg _ (relabel_self _)⟩

instance : Unmoved CompilationUnit :=
  ⟨fun a => congr(CompilationUnit.mk $(relabel_self a.1) $(relabel_self a.2) $(relabel_self a.3)
    $(relabel_self a.4))⟩

end BallerinaSyntax
