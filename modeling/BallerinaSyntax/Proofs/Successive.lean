import BallerinaSyntax.Relabel
import Mathlib.Tactic.TermCongr

/-! A tree that is relabelled twice is one that is relabelled once, by as much as both together. -/

namespace BallerinaSyntax

/-- One relabelling behind another one. -/
def Relabelling.after (σ ρ : Relabelling) : Relabelling where
  shift := ρ.shift + σ.shift
  errors := ρ.errors + σ.errors
  verbatim := ρ.verbatim && σ.verbatim
  rename := σ.rename ∘ ρ.rename

/-- A type whose values can be relabelled in one step or in two. -/
class Successive (α : Type) [Relabels α] : Prop where
  relabel_relabel : ∀ (ρ σ : Relabelling) (a : α), relabel σ (relabel ρ a) = relabel (σ.after ρ) a

export Successive (relabel_relabel)

variable {α β : Type}

/-! ## Collections -/

instance [Plain α] : Successive α where
  relabel_relabel ρ σ a := by simp only [Plain.relabel_eq]

instance [Relabels α] [Successive α] : Successive (Option α) where
  relabel_relabel ρ σ
    | none => rfl
    | some a => congrArg some (relabel_relabel ρ σ a)

instance [Relabels α] [Successive α] : Successive (List α) where
  relabel_relabel ρ σ _ := List.map_map.trans (List.map_congr_left fun a _ => relabel_relabel ρ σ a)

/-! ## Places, tokens and names -/

theorem ite_and_eq {a b : Bool} {x y : α} :
    (if b then (if a then x else y) else y) = if a && b then x else y := by
  cases a <;> cases b <;> rfl

instance : Successive ByteRange := ⟨fun _ _ _ => ite_and_eq⟩

instance : Successive TokenRange :=
  ⟨fun _ _ _ => congr(TokenRange.mk $(Nat.add_assoc ..) $(Nat.add_assoc ..))⟩

instance : Successive NodeInfo :=
  ⟨fun ρ σ a => congr(NodeInfo.mk a.1 $(relabel_relabel ρ σ a.2) $(relabel_relabel ρ σ a.3) a.4 a.5)⟩

instance : Successive Leaf :=
  ⟨fun ρ σ a => congr(Leaf.mk a.1 $(Nat.add_assoc ..) $(relabel_relabel ρ σ a.3) a.4)⟩

instance : Successive Symbol := ⟨fun _ _ _ => rfl⟩

instance : Successive Identifier :=
  ⟨fun ρ σ a => congr(Identifier.mk $(relabel_relabel ρ σ a.1) $(relabel_relabel ρ σ a.2))⟩

/-! ## Parts without rules of their own -/

instance : Successive NameReference :=
  ⟨fun ρ σ a => congr(NameReference.mk $(relabel_relabel ρ σ a.1) $(relabel_relabel ρ σ a.2)
    $(relabel_relabel ρ σ a.3))⟩

instance : Successive Literal :=
  ⟨fun ρ σ a => congr(Literal.mk $(relabel_relabel ρ σ a.1) a.2 $(relabel_relabel ρ σ a.3)
    $(relabel_relabel ρ σ a.4))⟩

instance : Successive NamespaceDeclaration :=
  ⟨fun ρ σ a => congr(NamespaceDeclaration.mk $(relabel_relabel ρ σ a.1) $(relabel_relabel ρ σ a.2)
    $(relabel_relabel ρ σ a.3))⟩

instance : Successive UserDefinedType :=
  ⟨fun ρ σ a => congr(UserDefinedType.mk $(relabel_relabel ρ σ a.1) $(relabel_relabel ρ σ a.2))⟩

instance : Successive XmlNamespaceConstraint :=
  ⟨fun ρ σ a => congr(XmlNamespaceConstraint.mk $(relabel_relabel ρ σ a.1) $(relabel_relabel ρ σ a.2)
    $(relabel_relabel ρ σ a.3))⟩

instance : Successive ArrayDimension :=
  ⟨fun ρ σ a => congr(ArrayDimension.mk $(relabel_relabel ρ σ a.1) $(relabel_relabel ρ σ a.2))⟩

instance : Successive FieldName :=
  ⟨fun ρ σ a => by cases a <;> exact congrArg _ (relabel_relabel ρ σ _)⟩

instance : Successive WorkerTarget :=
  ⟨fun ρ σ a => by cases a <;> exact congrArg _ (relabel_relabel ρ σ _)⟩

instance : Successive JoinConditions :=
  ⟨fun ρ σ a => congr(JoinConditions.mk $(relabel_relabel ρ σ a.1) a.2 $(relabel_relabel ρ σ a.3)
    $(relabel_relabel ρ σ a.4))⟩

instance : Successive XmlName :=
  ⟨fun ρ σ a => congr(XmlName.mk $(relabel_relabel ρ σ a.1) $(relabel_relabel ρ σ a.2)
    $(relabel_relabel ρ σ a.3))⟩

instance : Successive JoinType :=
  ⟨fun ρ σ a => congr(JoinType.mk $(relabel_relabel ρ σ a.1) a.2)⟩

instance : Successive WithinClause :=
  ⟨fun ρ σ a => congr(WithinClause.mk $(relabel_relabel ρ σ a.1) $(relabel_relabel ρ σ a.2)
    $(relabel_relabel ρ σ a.3))⟩

instance : Successive LimitClause :=
  ⟨fun ρ σ a => congr(LimitClause.mk $(relabel_relabel ρ σ a.1) $(relabel_relabel ρ σ a.2))⟩

instance : Successive OutputRateLimit :=
  ⟨fun ρ σ a => congr(OutputRateLimit.mk $(relabel_relabel ρ σ a.1) $(relabel_relabel ρ σ a.2) $(relabel_relabel ρ σ a.3)
    $(relabel_relabel ρ σ a.4) $(relabel_relabel ρ σ a.5))⟩

instance : Successive InlineCode :=
  ⟨fun ρ σ a => congr(InlineCode.mk $(relabel_relabel ρ σ a.1) a.2 $(relabel_relabel ρ σ a.3))⟩

instance : Successive DocumentationPart :=
  ⟨fun ρ σ a => by cases a <;> exact congrArg _ (relabel_relabel ρ σ _)⟩

instance : Successive DocumentationText :=
  ⟨fun ρ σ a => congr(DocumentationText.mk $(relabel_relabel ρ σ a.1) $(relabel_relabel ρ σ a.2))⟩

instance : Successive DocumentationAttribute :=
  ⟨fun ρ σ a => congr(DocumentationAttribute.mk $(relabel_relabel ρ σ a.1) $(relabel_relabel ρ σ a.2)
    $(relabel_relabel ρ σ a.3) $(relabel_relabel ρ σ a.4))⟩

instance : Successive Documentation :=
  ⟨fun ρ σ a => congr(Documentation.mk $(relabel_relabel ρ σ a.1) $(relabel_relabel ρ σ a.2)
    $(relabel_relabel ρ σ a.3))⟩

instance : Successive Deprecation :=
  ⟨fun ρ σ a => congr(Deprecation.mk $(relabel_relabel ρ σ a.1) $(relabel_relabel ρ σ a.2))⟩

/-! ## Trees -/

theorem Tree.relabelled_relabelled {c : Category} (ρ σ : Relabelling) (t : Tree c) :
    (t.relabelled ρ).relabelled σ = t.relabelled (σ.after ρ) := by
  induction t <;>
    first | rfl | (dsimp only [Tree.relabelled]; congr 1 <;> exact relabel_relabel ρ σ _)

instance {c : Category} : Successive (Tree c) := ⟨Tree.relabelled_relabelled⟩

end BallerinaSyntax
