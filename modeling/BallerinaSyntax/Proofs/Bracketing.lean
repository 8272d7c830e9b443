import BallerinaSyntax.Outline.Unit
import BallerinaSyntax.Proofs.Nodes

/-!
Walks are complete. The outline of a unit shows every node under the names of the parts that lead
to it; a walk that nothing is turned away from enters and leaves exactly these nodes, each one
inside the node around it.
-/

namespace BallerinaSyntax

/-! ## Brackets -/

/-- The events of a walk over some nodes: each node is entered, then what is in it, and left. -/
def Forest.brackets : Forest NodeInfo → List Event
  | .nil => []
  | .cons info inside rest => .enter info :: (inside.brackets ++ .leave info :: rest.brackets)

/-- Each node with the nodes around it, from the innermost one, in the order of a walk. -/
def Forest.placed (around : List NodeInfo) : Forest NodeInfo → List (List NodeInfo × NodeInfo)
  | .nil => []
  | .cons info inside rest =>
    (around, info) :: (inside.placed (info :: around) ++ rest.placed around)

namespace Event

/-- Whether a node is entered or left. -/
def isStep : Event → Bool
  | enter _ | leave _ => true
  | announce _ => false

@[simp] theorem isStep_enter (info : NodeInfo) : (enter info).isStep = true := rfl

@[simp] theorem isStep_leave (info : NodeInfo) : (leave info).isStep = true := rfl

@[simp] theorem isStep_announce (hook : Hook) : (announce hook).isStep = false := rfl

/--
What a walk enters, each node with those that are open by then. There is no answer if a node is
left that is not the innermost open one, or if one stays open.
-/
def entered : List NodeInfo → List Event → Option (List (List NodeInfo × NodeInfo))
  | [], [] => some []
  | _ :: _, [] => none
  | open', enter info :: rest => (entered (info :: open') rest).map ((open', info) :: ·)
  | [], leave _ :: _ => none
  | last :: open', leave info :: rest => if last = info then entered open' rest else none
  | open', announce _ :: rest => entered open' rest

end Event

/-- The nodes that an outline shows, each with those that it shows inside. -/
def Outline.nodes : Outline → Forest NodeInfo
  | .nothing | .nil | .word _ | .number _ | .leaf _ | .named _ => .nil
  | .item head tail => head.nodes ++ tail.nodes
  | .part _ value rest => value.nodes ++ rest.nodes
  | .placeholder info => .leaf info
  | .branch info inside => .tree info inside.nodes
  | .group inside => inside.nodes
  | .choice _ value => value.nodes

namespace Outline

variable {α : Type} {f : α → Outline}

@[simp] theorem nodes_node (info : NodeInfo) (ps : List (String × Outline)) :
    (node info ps).nodes = .tree info (parts ps).nodes := rfl

@[simp] theorem nodes_record (ps : List (String × Outline)) : (record ps).nodes = (parts ps).nodes :=
  rfl

@[simp] theorem nodes_parts_nil : (parts []).nodes = .nil := rfl

@[simp] theorem nodes_parts_cons (name : String) (value : Outline) (ps : List (String × Outline)) :
    (parts ((name, value) :: ps)).nodes = value.nodes ++ (parts ps).nodes := rfl

/-- What an optional part shows is what the walk meets in it. -/
theorem nodes_optional (g : α → Visits) (h : ∀ a, (f a).nodes = (g a).nodes) (o : Option α) :
    (optional f o).nodes = Visits.nodes (.concat g o.toList) := by
  cases o with
  | none => rfl
  | some a => simp [optional, h, Forest.concat]

/-- What the items of a list show is what the walk meets in them. -/
theorem nodes_list (g : α → Visits) (h : ∀ a, (f a).nodes = (g a).nodes) (as : List α) :
    (list f as).nodes = Visits.nodes (.concat g as) := by
  rw [Visits.nodes_concat]
  induction as with
  | nil => rfl
  | cons a as ih => exact congr (congrArg _ (h a)) ih

/-! ## Outlines of small parts -/

section Leaves

variable {info : α → NodeInfo}

theorem nodes_bare? (h : ∀ a, (f a).nodes = .tree (info a) .nil) (o : Option α) :
    (optional f o).nodes = .concat (Forest.tree · .nil) (o.toList.map info) := by
  cases o with
  | none => rfl
  | some a => exact h a

theorem nodes_bares (h : ∀ a, (f a).nodes = .tree (info a) .nil) (as : List α) :
    (list f as).nodes = .concat (Forest.tree · .nil) (as.map info) := by
  induction as with
  | nil => rfl
  | cons a as ih => exact congr (congrArg _ (h a)) ih

/-- Parts of which none shows a node. -/
theorem nodes_optional_nil (h : ∀ a, (f a).nodes = .nil) (o : Option α) :
    (optional f o).nodes = .nil := by
  cases o with
  | none => rfl
  | some a => exact h a

theorem nodes_list_nil (h : ∀ a, (f a).nodes = .nil) (as : List α) : (list f as).nodes = .nil := by
  induction as with
  | nil => rfl
  | cons a as ih =>
    change (f a).nodes ++ (list f as).nodes = _
    rw [h, ih]
    rfl

@[simp] theorem nodes_leaf (l : Leaf) : (leaf l).nodes = .nil := rfl

@[simp] theorem nodes_named (i : Identifier) : (named i).nodes = .nil := rfl

@[simp] theorem nodes_word (text : String) : (word text).nodes = .nil := rfl

@[simp] theorem nodes_optionLeaf (o : Option Leaf) : (optional leaf o).nodes = .nil :=
  nodes_optional_nil nodes_leaf o

@[simp] theorem nodes_optionNamed (o : Option Identifier) : (optional named o).nodes = .nil :=
  nodes_optional_nil nodes_named o

@[simp] theorem nodes_leafs (ls : List Leaf) : (list leaf ls).nodes = .nil :=
  nodes_list_nil nodes_leaf ls

@[simp] theorem nodes_names (is : List Identifier) : (list named is).nodes = .nil :=
  nodes_list_nil nodes_named is

@[simp] theorem nodes_choice (name : String) (value : Outline) :
    (choice name value).nodes = value.nodes := rfl

end Leaves

end Outline

open Outline

variable {c : Category}

@[simp] theorem NameReference.nodes_outline (t : NameReference) :
    t.outline.nodes = .tree t.info .nil := by simp [outline]

@[simp] theorem Literal.nodes_outline (t : Literal) : t.outline.nodes = .tree t.info .nil := by
  cases h : t.kind <;> simp [outline, LiteralKind.outline, h]

@[simp] theorem PackageName.nodes_outline (t : PackageName) :
    t.outline.nodes = .tree t.info .nil := by simp [outline]

@[simp] theorem NamespaceDeclaration.nodes_outline (t : NamespaceDeclaration) :
    t.outline.nodes = .tree t.info .nil := by simp [outline]

@[simp] theorem XmlNamespaceConstraint.nodes_outline (t : XmlNamespaceConstraint) :
    t.outline.nodes = .tree t.info .nil := by simp [outline]

@[simp] theorem ArrayDimension.nodes_outline (t : ArrayDimension) :
    t.outline.nodes = .tree t.info .nil := by simp [outline]

@[simp] theorem JoinConditions.nodes_outline (t : JoinConditions) :
    t.outline.nodes = .tree t.info .nil := by
  cases h : t.kind <;> simp [outline, JoinConditionKind.outline, h]

@[simp] theorem XmlName.nodes_outline (t : XmlName) : t.outline.nodes = .tree t.info .nil := by
  simp [outline]

@[simp] theorem JoinType.nodes_outline (t : JoinType) : t.outline.nodes = .tree t.info .nil := by
  cases h : t.kind <;> simp [outline, JoinKind.outline, h]

@[simp] theorem WithinClause.nodes_outline (t : WithinClause) :
    t.outline.nodes = .tree t.info .nil := by simp [outline]

@[simp] theorem LimitClause.nodes_outline (t : LimitClause) :
    t.outline.nodes = .tree t.info .nil := by simp [outline]

@[simp] theorem OutputRateLimit.nodes_outline (t : OutputRateLimit) :
    t.outline.nodes = .tree t.info .nil := by simp [outline]

@[simp] theorem FieldName.nodes_outline (t : FieldName) : t.outline.nodes = .nil := by
  cases t <;> rfl

@[simp] theorem WorkerTarget.nodes_outline (t : WorkerTarget) : t.outline.nodes = .nil := by
  cases t <;> rfl

@[simp] theorem UserDefinedType.nodes_outline (t : UserDefinedType) :
    t.outline.nodes = Visits.nodes t.visits := by simp [outline, visits]

@[simp] theorem InlineCode.nodes_outline (t : InlineCode) :
    t.outline.nodes = .tree t.info .nil := by
  change Forest.tree t.info (.nil ++ ((optional Outline.leaf t.code).nodes ++ .nil)) = _
  simp

theorem DocumentationText.nodes_outline (t : DocumentationText) :
    t.outline.nodes = Visits.nodes t.visits := by
  have h : (list DocumentationPart.outline t.parts).nodes =
      .concat (Forest.tree · .nil) (t.parts.filterMap visits.code?) := by
    induction t.parts with
    | nil => rfl
    | cons part parts ih =>
      change part.outline.nodes ++ (list _ parts).nodes = _
      cases part with
      | text token => exact ih
      | code c =>
        rw [ih]
        exact congrArg (· ++ _) c.nodes_outline
  simp [outline, visits, h]

theorem DocumentationAttribute.nodes_outline (t : DocumentationAttribute) :
    t.outline.nodes = Visits.nodes t.visits := by
  simp [outline, visits, nodes_optional _ DocumentationText.nodes_outline]

theorem Documentation.nodes_outline (t : Documentation) :
    t.outline.nodes = Visits.nodes t.visits := by
  simp [outline, visits, nodes_optional _ DocumentationText.nodes_outline,
    nodes_list _ DocumentationAttribute.nodes_outline]

theorem Deprecation.nodes_outline (t : Deprecation) : t.outline.nodes = Visits.nodes t.visits := by
  simp [outline, visits, nodes_optional _ DocumentationText.nodes_outline]

/-! ## Outlines of trees and of units -/

/-- A walk of a tree meets the nodes that its outline shows. -/
theorem Tree.nodes_outline (t : Tree c) : t.outline.nodes = Visits.nodes t.visits := by
  induction t with
  | nil => rfl
  | absent => rfl
  | cons t u iht ihu =>
    change t.outline.nodes ++ u.outline.nodes = Visits.nodes (t.hooked t.visits ++ u.visits)
    simp [iht, ihu]
  | metadata t u v ih =>
    change (list Documentation.outline t).nodes ++ ((list Deprecation.outline u).nodes ++
      (v.outline.nodes ++ .nil)) =
      Visits.nodes (.concat Documentation.visits t ++ .concat Deprecation.visits u ++ v.visits)
    simp [nodes_list _ Documentation.nodes_outline, nodes_list _ Deprecation.nodes_outline, ih,
      Forest.append_assoc]
  | querySourceInput t u iht ihu =>
    change t.outline.nodes ++ (u.outline.nodes ++ .nil) = Visits.nodes (t.visits ++ u.visits)
    simp [iht, ihu]
  | userDefinedType t => exact t.nodes_outline
  | namespaceConstraint t => exact t.nodes_outline
  | literal t => exact t.nodes_outline
  | declareNamespace t => exact t.nodes_outline
  | xmlName t => exact t.nodes_outline
  | keyName | plainText | itemCdata | contentCdata => rfl
  | missingType | missingReference | missingExpression | missingStatement => rfl
  | simple t ih | functionCall t ih | record t ih | defineVariable t ih | targetReferences t ih
  | targetParameters t ih | iterableRange t ih | itemInstruction t ih | itemComment t ih
  | itemText t ih | contentText t ih | contentInstruction t ih | contentComment t ih
  | querySourcePattern t ih | edgePattern t ih | endpointRecord t ih => exact ih
  | present t ih | endpointReference t ih | typeConstraint t ih | positional t ih
  | keyExpression t ih | matchStatementBody t ih | matchBlockBody t ih | iterableExpression t ih
  | itemElement t ih | contentElement t ih => exact ih.trans (Visits.nodes_hooked _ _).symm
  | _ =>
    change Forest.tree _ (Outline.nodes (Outline.parts _)) = Visits.nodes (Visits.node _ _)
    simp_all [nodes_bares ArrayDimension.nodes_outline, nodes_bare? LimitClause.nodes_outline,
      nodes_bare? JoinConditions.nodes_outline, nodes_bare? OutputRateLimit.nodes_outline,
      nodes_bare? WithinClause.nodes_outline, nodes_bare? Literal.nodes_outline,
      nodes_optional _ UserDefinedType.nodes_outline, Forest.append_assoc]

theorem Tree.nodes_outline_walk (t : Tree c) : t.outline.nodes = Visits.nodes t.walk :=
  t.nodes_outline.trans (Visits.nodes_hooked t t.visits).symm

theorem ServiceBinding.nodes_outline (b : ServiceBinding) :
    b.outline.nodes = Visits.nodes b.visits := by
  simp [outline, visits, nodes_bares NameReference.nodes_outline,
    nodes_optional _ Tree.nodes_outline_walk]

theorem ResourceParameterList.nodes_outline (p : ResourceParameterList) :
    p.outline.nodes = Visits.nodes p.visits := by
  simp [outline, visits, nodes_list _ Tree.nodes_outline_walk]

theorem ResourceDefinition.nodes_outline (r : ResourceDefinition) :
    r.outline.nodes = Visits.nodes r.visits := by
  simp [outline, visits, Tree.nodes_outline_walk, ResourceParameterList.nodes_outline,
    Forest.append_assoc]

theorem ServiceBody.nodes_outline (b : ServiceBody) : b.outline.nodes = Visits.nodes b.visits := by
  simp [outline, visits, nodes_list _ Tree.nodes_outline_walk,
    nodes_list _ ResourceDefinition.nodes_outline, Forest.append_assoc]

theorem FiniteTypeUnit.nodes_outline (t : FiniteTypeUnit) :
    t.outline.nodes = Visits.nodes t.visits := by
  cases t with
  | literal l => exact l.nodes_outline
  | type t => exact t.nodes_outline_walk

theorem FiniteType.nodes_outline (t : FiniteType) : t.outline.nodes = Visits.nodes t.visits := by
  simp [outline, visits, nodes_list _ FiniteTypeUnit.nodes_outline]

/-- A walk of a definition meets the nodes that its outline shows. -/
theorem Definition.nodes_outline (d : Definition) : d.outline.nodes = Visits.nodes d.walk := by
  cases d <;>
    simp [outline, walk, visits, Tree.nodes_outline_walk, FiniteType.nodes_outline,
      ServiceBody.nodes_outline, nodes_bare? NameReference.nodes_outline,
      nodes_optional _ ServiceBinding.nodes_outline, nodes_optional _ Tree.nodes_outline_walk,
      Outline.nodes, Forest.leaf, Forest.append_assoc]

theorem ImportItem.nodes_outline (i : ImportItem) : i.outline.nodes = Visits.nodes i.visits := by
  cases i with
  | package d => simp [outline, visits, ImportDeclaration.outline]
  | xmlNamespace d => exact d.nodes_outline

/-- A walk of a unit meets the nodes that its outline shows. -/
theorem CompilationUnit.nodes_outline (u : CompilationUnit) :
    u.outline.nodes = Visits.nodes u.walk := by
  simp [outline, walk, visits, nodes_list _ ImportItem.nodes_outline,
    nodes_list _ Definition.nodes_outline]

/-! ## The events of a walk -/

theorem Forest.brackets_append (f g : Forest NodeInfo) :
    (f ++ g).brackets = f.brackets ++ g.brackets := by
  induction f with
  | nil => rfl
  | cons info inside rest _ ih => simp [brackets, ih]

/-- Reading on behind the brackets of a forest, at the first step that leaves a node or at the end. -/
theorem Forest.eq_of_brackets_append : ∀ {f g : Forest NodeInfo} {xs ys : List Event},
    (∀ info, xs.head? ≠ some (.enter info)) → (∀ info, ys.head? ≠ some (.enter info)) →
    f.brackets ++ xs = g.brackets ++ ys → f = g ∧ xs = ys
  | .nil, .nil, _, _, _, _, h => ⟨rfl, h⟩
  | .nil, .cons info _ _, _, _, hx, _, h => by
    subst h
    exact absurd rfl (hx info)
  | .cons info _ _, .nil, _, _, _, hy, h => by
    subst h
    exact absurd rfl (hy info)
  | .cons info inside rest, .cons info' inside' rest', xs, ys, hx, hy, h => by
    simp only [brackets, List.cons_append, List.append_assoc, List.cons.injEq,
      Event.enter.injEq] at h
    obtain ⟨rfl, h⟩ := h
    obtain ⟨rfl, behind⟩ := eq_of_brackets_append (by simp) (by simp) h
    obtain ⟨rfl, rfl⟩ := eq_of_brackets_append hx hy (List.cons.inj behind).2
    exact ⟨rfl, rfl⟩

/-- The brackets of a forest tell which forest it is. -/
theorem Forest.brackets_inj {f g : Forest NodeInfo} : f.brackets = g.brackets ↔ f = g :=
  ⟨fun h =>
    have hnil : f.brackets ++ [] = g.brackets ++ [] := congrArg (· ++ []) h
    (eq_of_brackets_append (by simp) (by simp) hnil).1, congrArg _⟩

/-- A walk that nothing is turned away from brackets the nodes that it meets. -/
theorem Visits.steps_events (v : Visits) :
    (v.events fun _ => false).filter Event.isStep = v.nodes.brackets := by
  induction v with
  | nil => rfl
  | cons visit inside rest ihi ihr =>
    cases visit with
    | node info => simp [events, nodes, Forest.brackets, List.filter_cons, ihi, ihr]
    | hook h => simp [events, nodes, Forest.brackets_append, ihi, ihr]

/-- Announcements leave open what is open. -/
theorem Event.entered_filter (events : List Event) (around : List NodeInfo) :
    entered around (events.filter isStep) = entered around events := by
  induction events generalizing around with
  | nil => rfl
  | cons event rest ih =>
    cases event with
    | enter info => simp [entered, List.filter_cons, ih]
    | leave info => cases around <;> simp [entered, List.filter_cons, ih]
    | announce hook => simpa [entered] using ih around

/-- Brackets are read back: behind them the same nodes are open as before. -/
theorem Forest.entered_brackets (f : Forest NodeInfo) (around : List NodeInfo)
    (rest : List Event) : Event.entered around (f.brackets ++ rest) =
      (Event.entered around rest).map (f.placed around ++ ·) := by
  induction f generalizing around rest with
  | nil => simp [brackets, placed]
  | cons info inside next ihi ihr =>
    simp only [brackets, placed, List.cons_append, List.append_assoc, Event.entered, ihi, ihr,
      if_true, Option.map_map]
    congr 1

/--
A walk enters and leaves exactly the nodes that the outline of the unit shows: its steps are the
brackets of these nodes and of no other forest, and each node is entered when exactly the nodes
around it are open.
-/
theorem CompilationUnit.walk_complete (u : CompilationUnit) :
    (∀ f : Forest NodeInfo, (u.walk.events fun _ => false).filter Event.isStep = f.brackets ↔
      f = u.outline.nodes) ∧
    Event.entered [] (u.walk.events fun _ => false) = some (u.outline.nodes.placed []) := by
  have steps := u.walk.steps_events
  rw [← u.nodes_outline] at steps
  constructor
  · intro f
    rw [steps, Forest.brackets_inj, eq_comm]
  · rw [← Event.entered_filter, steps]
    simpa [Event.entered] using u.outline.nodes.entered_brackets [] []

end BallerinaSyntax
