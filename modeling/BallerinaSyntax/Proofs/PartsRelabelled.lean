import BallerinaSyntax.Proofs.Parts
import BallerinaSyntax.Relabel

/-! What a relabelled tree holds is what the tree holds, relabelled. -/

namespace BallerinaSyntax

open Parts (node)

variable {α β : Type}

/-! ## Forests -/

namespace Forest

/-- The same forest with other labels. -/
def map (f : α → β) : Forest α → Forest β
  | nil => nil
  | cons label children rest => cons (f label) (children.map f) (rest.map f)

@[simp] theorem map_nil (f : α → β) : (nil : Forest α).map f = nil := rfl

@[simp] theorem map_append (f : α → β) (g h : Forest α) : (g ++ h).map f = g.map f ++ h.map f := by
  induction g with
  | nil => rfl
  | cons label children rest _ ih => exact congrArg (cons (f label) (children.map f)) ih

end Forest

instance : Relabels Part where
  relabel ρ
    | .node info => .node (relabel ρ info)
    | .token leaf => .token (relabel ρ leaf)
    | .name i => .name (relabel ρ i)

@[simp] theorem map_node (ρ : Relabelling) (info : NodeInfo) (inside : Parts) :
    (node info inside).map (relabel ρ) = node (relabel ρ info) (inside.map (relabel ρ)) := rfl

/-- A type of which the parts are relabelled with the values. -/
class Parted (α : Type) [HasParts α] [Relabels α] : Prop where
  parts_relabel : ∀ (ρ : Relabelling) (a : α), parts (relabel ρ a) = (parts a).map (relabel ρ)

export Parted (parts_relabel)

attribute [simp] parts_relabel

/-! ## Tokens, names and collections -/

instance : Parted Leaf := ⟨fun _ _ => rfl⟩

instance : Parted Identifier := ⟨fun _ _ => rfl⟩

instance : Parted NodeInfo := ⟨fun _ _ => rfl⟩

instance [HasParts α] [Relabels α] [Parted α] : Parted (Option α) where
  parts_relabel ρ
    | none => rfl
    | some a => parts_relabel ρ a

instance [HasParts α] [Relabels α] [Parted α] : Parted (List α) where
  parts_relabel ρ as := by
    induction as with
    | nil => rfl
    | cons a as ih =>
      change parts (relabel ρ a) ++ parts (relabel ρ as) = (parts a ++ parts as).map (relabel ρ)
      rw [ih, parts_relabel, Forest.map_append]

/-! ## Parts without rules of their own -/

instance : Parted NameReference := ⟨fun _ _ => congrArg (node _) (by simp)⟩

instance : Parted Literal := ⟨fun _ _ => congrArg (node _) (by simp)⟩

instance : Parted PackageName := ⟨fun _ _ => congrArg (node _) (by simp)⟩

instance : Parted ImportDeclaration := ⟨fun _ _ => congrArg (node _) (by simp)⟩

instance : Parted NamespaceDeclaration := ⟨fun _ _ => congrArg (node _) (by simp)⟩

instance : Parted UserDefinedType := ⟨fun _ _ => congrArg (node _) (by simp)⟩

instance : Parted XmlNamespaceConstraint := ⟨fun _ _ => congrArg (node _) (by simp)⟩

instance : Parted ArrayDimension := ⟨fun _ _ => congrArg (node _) (by simp)⟩

instance : Parted FieldName := ⟨fun _ a => by cases a <;> rfl⟩

instance : Parted WorkerTarget := ⟨fun _ a => by cases a <;> rfl⟩

instance : Parted JoinConditions := ⟨fun _ _ => congrArg (node _) (by simp)⟩

instance : Parted XmlName := ⟨fun _ _ => congrArg (node _) (by simp)⟩

instance : Parted JoinType := ⟨fun _ _ => congrArg (node _) (by simp)⟩

instance : Parted WithinClause := ⟨fun _ _ => congrArg (node _) (by simp)⟩

instance : Parted LimitClause := ⟨fun _ _ => congrArg (node _) (by simp)⟩

instance : Parted OutputRateLimit := ⟨fun _ _ => congrArg (node _) (by simp)⟩

instance : Parted InlineCode := ⟨fun _ _ => congrArg (node _) (by simp)⟩

instance : Parted DocumentationPart where
  parts_relabel ρ
    | .text _ => rfl
    | .code code => parts_relabel ρ code

instance : Parted DocumentationText := ⟨fun _ _ => congrArg (node _) (by simp)⟩

instance : Parted DocumentationAttribute := ⟨fun _ _ => congrArg (node _) (by simp)⟩

instance : Parted Documentation := ⟨fun _ _ => congrArg (node _) (by simp)⟩

instance : Parted Deprecation := ⟨fun _ _ => congrArg (node _) (by simp)⟩

/-! ## Trees -/

theorem Tree.parts_relabelled {c : Category} (ρ : Relabelling) (t : Tree c) :
    (t.relabelled ρ).parts = t.parts.map (relabel ρ) := by
  induction t <;> dsimp only [Tree.relabelled, Tree.parts]
  -- A rule has a node of its own, or it is its only part, or it stands beside others.
  all_goals
    first
    | (refine congrArg (node _) ?_
       simp only [Forest.map_append, parts_relabel, *])
    | assumption
    | rfl
    | simp only [Forest.map_append, parts_relabel, *]

instance {c : Category} : Parted (Tree c) := ⟨Tree.parts_relabelled⟩

/-! ## Definitions and units -/

instance : Parted ImportItem where
  parts_relabel ρ
    | .package declaration => parts_relabel ρ declaration
    | .xmlNamespace declaration => parts_relabel ρ declaration

instance : Parted ServiceBinding := ⟨fun _ _ => congrArg (node _) (by simp)⟩

instance : Parted ResourceParameterList := ⟨fun _ _ => congrArg (node _) (by simp)⟩

instance : Parted ResourceDefinition := ⟨fun _ _ => congrArg (node _) (by simp)⟩

instance : Parted ServiceBody := ⟨fun _ _ => congrArg (node _) (by simp)⟩

instance : Parted ServiceDefinition := ⟨fun _ _ => congrArg (node _) (by simp)⟩

instance : Parted FunctionDefinition := ⟨fun _ _ => congrArg (node _) (by simp)⟩

instance : Parted FiniteTypeUnit where
  parts_relabel ρ
    | .literal value => parts_relabel ρ value
    | .type type => parts_relabel ρ type

instance : Parted FiniteType := ⟨fun _ _ => congrArg (node _) (by simp)⟩

instance : Parted TypeDefinition := ⟨fun _ _ => congrArg (node _) (by simp)⟩

instance : Parted AnnotationDefinition := ⟨fun _ _ => congrArg (node _) (by simp)⟩

instance : Parted GlobalVariableDefinition := ⟨fun _ _ => congrArg (node _) (by simp)⟩

instance : Parted GlobalEndpointDefinition := ⟨fun _ _ => congrArg (node _) (by simp)⟩

instance : Parted Definition where
  parts_relabel ρ
    | .service definition => parts_relabel ρ definition
    | .function definition => parts_relabel ρ definition
    | .type definition => parts_relabel ρ definition
    | .annotationType definition => parts_relabel ρ definition
    | .variable definition => parts_relabel ρ definition
    | .endpoint definition => parts_relabel ρ definition
    | .missing _ => rfl

instance : Parted CompilationUnit := ⟨fun _ _ => congrArg (node _) (by simp)⟩

end BallerinaSyntax
