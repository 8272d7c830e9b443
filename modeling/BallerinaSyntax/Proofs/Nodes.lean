import BallerinaSyntax.Proofs.Placement
import BallerinaSyntax.Tree.Walk

/-!
The nodes among the parts of a tree are those that a walk meets, in the order in which it meets
them.
-/

namespace BallerinaSyntax

/-- The nodes of a forest of parts. -/
def Parts.nodes : Parts → Forest NodeInfo
  | .nil => .nil
  | .cons (.node info) inside rest => .cons info (nodes inside) (nodes rest)
  | .cons (.token _) _ rest => nodes rest
  | .cons (.name _) _ rest => nodes rest

variable {α : Type}

@[simp] theorem Parts.nodes_nil : Parts.nodes .nil = .nil := rfl

@[simp] theorem Parts.nodes_node (info : NodeInfo) (inside : Parts) :
    Parts.nodes (Parts.node info inside) = Forest.tree info (Parts.nodes inside) := rfl

@[simp] theorem Parts.nodes_append (f g : Parts) :
    Parts.nodes (f ++ g) = Parts.nodes f ++ Parts.nodes g := by
  induction f with
  | nil => rfl
  | cons p inside rest _ ih => cases p <;> simp [Parts.nodes, ih]

@[simp] theorem Parts.nodes_leaf (l : Leaf) : Parts.nodes (parts l) = .nil := rfl

@[simp] theorem Parts.nodes_identifier (i : Identifier) : Parts.nodes (parts i) = .nil := rfl

theorem Parts.nodes_list [HasParts α] (xs : List α) :
    Parts.nodes (parts xs) = .concat (fun x => Parts.nodes (parts x)) xs := by
  induction xs with
  | nil => rfl
  | cons x xs ih =>
    change Parts.nodes (parts x ++ parts xs) = Parts.nodes (parts x) ++ _
    rw [Parts.nodes_append, ih]
    rfl

namespace Visits

@[simp] theorem nodes_nil : nodes .nil = .nil := rfl

@[simp] theorem nodes_append (f g : Visits) : nodes (f ++ g) = nodes f ++ nodes g := by
  induction f with
  | nil => rfl
  | cons v inside rest _ ih => cases v <;> simp [nodes, ih, Forest.append_assoc]

@[simp] theorem nodes_node (info : NodeInfo) (inside : Visits) :
    nodes (node info inside) = Forest.tree info (nodes inside) := rfl

@[simp] theorem nodes_leaf (info : NodeInfo) : nodes (leaf info) = Forest.tree info .nil := rfl

@[simp] theorem nodes_announce (h : Hook) (f : Visits) : nodes (announce h f) = nodes f :=
  Forest.append_nil _

@[simp] theorem nodes_leaves (infos : List NodeInfo) :
    nodes (leaves infos) = .concat (Forest.tree · .nil) infos := by
  induction infos with
  | nil => rfl
  | cons info infos ih => exact congrArg _ ih

theorem nodes_concat (f : α → Visits) (xs : List α) :
    nodes (.concat f xs) = .concat (fun x => nodes (f x)) xs := by
  induction xs with
  | nil => rfl
  | cons x xs ih =>
    change nodes (f x ++ Forest.concat f xs) = nodes (f x) ++ _
    rw [nodes_append, ih]
    rfl

@[simp] theorem nodes_hooked {c : Category} (t : Tree c) (v : Visits) :
    nodes (t.hooked v) = nodes v := by
  unfold Tree.hooked
  split <;> simp

end Visits

namespace Parts

/-! ## Parts without rules of their own -/

@[simp] theorem nodes_none [HasParts α] : Parts.nodes (parts (none : Option α)) = .nil := rfl

@[simp] theorem nodes_some [HasParts α] (a : α) :
    Parts.nodes (parts (some a)) = Parts.nodes (parts a) := rfl

@[simp] theorem concat_nil {β : Type} (xs : List β) :
    (Forest.concat (fun _ => .nil) xs : Forest α) = .nil := by
  induction xs with
  | nil => rfl
  | cons x xs ih => simp [Forest.concat]

@[simp] theorem nodes_optionLeaf (o : Option Leaf) : Parts.nodes (parts o) = .nil := by
  cases o <;> rfl

@[simp] theorem nodes_optionIdentifier (o : Option Identifier) : Parts.nodes (parts o) = .nil := by
  cases o <;> rfl

@[simp] theorem nodes_identifiers (is : List Identifier) : Parts.nodes (parts is) = .nil := by
  simp [nodes_list]

@[simp] theorem nodes_leaves (ls : List Leaf) : Parts.nodes (parts ls) = .nil := by
  simp [nodes_list]

@[simp] theorem nodes_fieldName (f : FieldName) : Parts.nodes (parts f) = .nil := by
  cases f <;> rfl

@[simp] theorem nodes_workerTarget (w : WorkerTarget) : Parts.nodes (parts w) = .nil := by
  cases w <;> rfl

section Leaves

variable {info : NodeInfo} {inside : Parts}

/-- A node that holds tokens and names only. -/
theorem nodes_bare (h : Parts.nodes inside = .nil) :
    Parts.nodes (Parts.node info inside) = Forest.tree info .nil := by simp [h]

@[simp] theorem nodes_nameReference (t : NameReference) :
    Parts.nodes (parts t) = Forest.tree t.info .nil := nodes_bare (by simp)

@[simp] theorem nodes_literal (t : Literal) : Parts.nodes (parts t) = Forest.tree t.info .nil :=
  nodes_bare (by simp)

@[simp] theorem nodes_packageName (t : PackageName) :
    Parts.nodes (parts t) = Forest.tree t.info .nil := nodes_bare (by simp)

@[simp] theorem nodes_namespaceDeclaration (t : NamespaceDeclaration) :
    Parts.nodes (parts t) = Forest.tree t.info .nil := nodes_bare (by simp)

@[simp] theorem nodes_namespaceConstraint (t : XmlNamespaceConstraint) :
    Parts.nodes (parts t) = Forest.tree t.info .nil := nodes_bare (by simp)

@[simp] theorem nodes_arrayDimension (t : ArrayDimension) :
    Parts.nodes (parts t) = Forest.tree t.info .nil := nodes_bare (by simp)

@[simp] theorem nodes_joinConditions (t : JoinConditions) :
    Parts.nodes (parts t) = Forest.tree t.info .nil := nodes_bare (by simp)

@[simp] theorem nodes_xmlName (t : XmlName) : Parts.nodes (parts t) = Forest.tree t.info .nil :=
  nodes_bare (by simp)

@[simp] theorem nodes_joinType (t : JoinType) : Parts.nodes (parts t) = Forest.tree t.info .nil :=
  rfl

@[simp] theorem nodes_withinClause (t : WithinClause) :
    Parts.nodes (parts t) = Forest.tree t.info .nil := nodes_bare (by simp)

@[simp] theorem nodes_limitClause (t : LimitClause) :
    Parts.nodes (parts t) = Forest.tree t.info .nil := nodes_bare (by simp)

@[simp] theorem nodes_outputRateLimit (t : OutputRateLimit) :
    Parts.nodes (parts t) = Forest.tree t.info .nil := nodes_bare (by simp)

@[simp] theorem nodes_inlineCode (t : InlineCode) :
    Parts.nodes (parts t) = Forest.tree t.info .nil := nodes_bare (by simp)

@[simp] theorem nodes_userDefinedType (t : UserDefinedType) :
    Parts.nodes (parts t) = Visits.nodes t.visits := by
  obtain ⟨info, name⟩ := t
  change Parts.nodes (Parts.node info (parts name)) = _
  simp [UserDefinedType.visits]

end Leaves

theorem nodes_bares (f : α → NodeInfo) [HasParts α]
    (h : ∀ a, Parts.nodes (parts a) = Forest.tree (f a) .nil) (as : List α) :
    Parts.nodes (parts as) = .concat (Forest.tree · .nil) (as.map f) := by
  induction as with
  | nil => rfl
  | cons a as ih =>
    change Parts.nodes (parts a ++ parts as) = _
    rw [nodes_append, ih, h]
    rfl

theorem nodes_bare? (f : α → NodeInfo) [HasParts α]
    (h : ∀ a, Parts.nodes (parts a) = Forest.tree (f a) .nil) (o : Option α) :
    Parts.nodes (parts o) = .concat (Forest.tree · .nil) (o.toList.map f) := by
  cases o with
  | none => rfl
  | some a => exact h a

/-! ## Documentation -/

@[simp] theorem nodes_documentationText (t : DocumentationText) :
    Parts.nodes (parts t) = Visits.nodes t.visits := by
  obtain ⟨info, texts⟩ := t
  have h : Parts.nodes (parts texts) =
      .concat (Forest.tree · .nil) (texts.filterMap DocumentationText.visits.code?) := by
    induction texts with
    | nil => rfl
    | cons text texts ih =>
      change Parts.nodes (parts text ++ parts texts) = _
      cases text with
      | text token => exact ih
      | code c =>
        rw [nodes_append, ih]
        exact congrArg (· ++ _) (nodes_inlineCode c)
  change Parts.nodes (Parts.node info (parts texts)) = _
  simp [DocumentationText.visits, h]

theorem nodes_option (f : α → Visits) [HasParts α]
    (h : ∀ a, Parts.nodes (parts a) = Visits.nodes (f a)) (o : Option α) :
    Parts.nodes (parts o) = Visits.nodes (.concat f o.toList) := by
  cases o with
  | none => rfl
  | some a => simp [h, Forest.concat]

theorem nodes_members (f : α → Visits) [HasParts α]
    (h : ∀ a, Parts.nodes (parts a) = Visits.nodes (f a)) (as : List α) :
    Parts.nodes (parts as) = Visits.nodes (.concat f as) := by
  simp [nodes_list, Visits.nodes_concat, h]

theorem nodes_documentationAttribute (t : DocumentationAttribute) :
    Parts.nodes (parts t) = Visits.nodes t.visits := by
  obtain ⟨info, marker, name, description⟩ := t
  change Parts.nodes (Parts.node info (parts marker ++ parts name ++ parts description)) = _
  simp [DocumentationAttribute.visits, nodes_option _ nodes_documentationText]

theorem nodes_documentation (t : Documentation) :
    Parts.nodes (parts t) = Visits.nodes t.visits := by
  obtain ⟨info, text, attributes⟩ := t
  change Parts.nodes (Parts.node info (parts text ++ parts attributes)) = _
  simp [Documentation.visits, nodes_option _ nodes_documentationText,
    nodes_members _ nodes_documentationAttribute]

theorem nodes_deprecation (t : Deprecation) : Parts.nodes (parts t) = Visits.nodes t.visits := by
  obtain ⟨info, text⟩ := t
  change Parts.nodes (Parts.node info (parts text)) = _
  simp [Deprecation.visits, nodes_option _ nodes_documentationText]

end Parts

/-! ## Trees -/

/-- A walk of a tree meets the nodes among its parts. -/
theorem Tree.nodes_visits {c : Category} (t : Tree c) :
    Visits.nodes t.visits = Parts.nodes t.parts := by
  induction t with
  | nil => rfl
  | absent => rfl
  | cons t u iht ihu =>
    change Visits.nodes (t.hooked t.visits ++ u.visits) = Parts.nodes (t.parts ++ u.parts)
    simp [iht, ihu]
  | metadata t u v ih =>
    change Visits.nodes (.concat Documentation.visits t ++ .concat Deprecation.visits u ++ v.visits) =
      Parts.nodes (HasParts.parts t ++ HasParts.parts u ++ v.parts)
    simp [Parts.nodes_members _ Parts.nodes_documentation,
      Parts.nodes_members _ Parts.nodes_deprecation, ih]
  | querySourceInput t u iht ihu =>
    change Visits.nodes (t.visits ++ u.visits) = Parts.nodes (t.parts ++ u.parts)
    simp [iht, ihu]
  | userDefinedType t => exact (Parts.nodes_userDefinedType t).symm
  | namespaceConstraint t => exact (Parts.nodes_namespaceConstraint t).symm
  | literal t => exact (Parts.nodes_literal t).symm
  | declareNamespace t => exact (Parts.nodes_namespaceDeclaration t).symm
  | xmlName t => exact (Parts.nodes_xmlName t).symm
  | keyName n => rfl
  | plainText l => rfl
  | itemCdata l => rfl
  | contentCdata l => rfl
  | simple t ih | functionCall t ih | record t ih | defineVariable t ih | targetReferences t ih
  | targetParameters t ih | iterableRange t ih | itemInstruction t ih | itemComment t ih
  | itemText t ih | contentText t ih | contentInstruction t ih | contentComment t ih
  | querySourcePattern t ih | edgePattern t ih | endpointRecord t ih => exact ih
  | present t ih | endpointReference t ih | typeConstraint t ih | positional t ih
  | keyExpression t ih | matchStatementBody t ih | matchBlockBody t ih | iterableExpression t ih
  | itemElement t ih | contentElement t ih => exact (Visits.nodes_hooked _ _).trans ih
  | _ =>
    change Visits.nodes (Visits.node _ _) = Parts.nodes (Parts.node _ _)
    simp_all [Parts.nodes_bares _ Parts.nodes_arrayDimension,
      Parts.nodes_option _ Parts.nodes_userDefinedType, Parts.nodes_bare? _ Parts.nodes_limitClause,
      Parts.nodes_bare? _ Parts.nodes_joinConditions, Parts.nodes_bare? _ Parts.nodes_outputRateLimit,
      Parts.nodes_bare? _ Parts.nodes_withinClause, Parts.nodes_bare? _ Parts.nodes_literal]

theorem Parts.nodes_tree {c : Category} (t : Tree c) :
    Parts.nodes (parts t) = Visits.nodes t.walk :=
  (t.nodes_visits.symm.trans (Visits.nodes_hooked t t.visits).symm)

/-! ## Units -/

namespace Parts

theorem nodes_trees {c : Category} (ts : List (Tree c)) :
    Parts.nodes (parts ts) = Visits.nodes (.concat Tree.walk ts) :=
  nodes_members _ nodes_tree ts

theorem nodes_tree? {c : Category} (t : Option (Tree c)) :
    Parts.nodes (parts t) = Visits.nodes (.concat Tree.walk t.toList) :=
  nodes_option _ nodes_tree t

theorem nodes_serviceBinding (b : ServiceBinding) :
    Parts.nodes (parts b) = Visits.nodes b.visits := by
  obtain ⟨info, endpoints, record⟩ := b
  change Parts.nodes (Parts.node info (parts endpoints ++ parts record)) = _
  simp [ServiceBinding.visits, nodes_bares _ nodes_nameReference, nodes_tree?]

theorem nodes_resourceParameterList (p : ResourceParameterList) :
    Parts.nodes (parts p) = Visits.nodes p.visits := by
  obtain ⟨info, caller, parameters⟩ := p
  change Parts.nodes (Parts.node info (parts caller ++ parts parameters)) = _
  simp [ResourceParameterList.visits, nodes_trees]

theorem nodes_resourceDefinition (r : ResourceDefinition) :
    Parts.nodes (parts r) = Visits.nodes r.visits := by
  obtain ⟨info, metadata, name, parameters, body⟩ := r
  change Parts.nodes (Parts.node info (parts metadata ++ parts name ++ parts parameters ++
    parts body)) = _
  simp [ResourceDefinition.visits, nodes_tree, nodes_resourceParameterList]

theorem nodes_serviceBody (b : ServiceBody) : Parts.nodes (parts b) = Visits.nodes b.visits := by
  obtain ⟨info, endpoints, variableMembers, resources⟩ := b
  change Parts.nodes (Parts.node info (parts endpoints ++ parts variableMembers ++
    parts resources)) = _
  simp [ServiceBody.visits, nodes_trees, nodes_members _ nodes_resourceDefinition]

theorem nodes_finiteTypeUnit (t : FiniteTypeUnit) :
    Parts.nodes (parts t) = Visits.nodes t.visits := by
  cases t with
  | literal l => exact nodes_literal l
  | type t => exact nodes_tree t

theorem nodes_finiteType (t : FiniteType) : Parts.nodes (parts t) = Visits.nodes t.visits := by
  obtain ⟨info, units⟩ := t
  change Parts.nodes (Parts.node info (parts units)) = _
  simp [FiniteType.visits, nodes_members _ nodes_finiteTypeUnit]

theorem nodes_definition (d : Definition) : Parts.nodes (parts d) = Visits.nodes d.visits := by
  cases d with
  | service d =>
    obtain ⟨info, metadata, endpointType, name, binding, body⟩ := d
    change Parts.nodes (Parts.node info (parts metadata ++ parts endpointType ++ parts name ++
      parts binding ++ parts body)) = _
    simp [Definition.visits, nodes_tree, nodes_bare? _ nodes_nameReference,
      nodes_option _ nodes_serviceBinding, nodes_serviceBody]
  | function d =>
    obtain ⟨info, metadata, receiver, signature, body⟩ := d
    change Parts.nodes (Parts.node info (parts metadata ++ parts receiver ++ parts signature ++
      parts body)) = _
    simp [Definition.visits, nodes_tree, nodes_tree?]
  | type d =>
    obtain ⟨info, metadata, name, finiteType⟩ := d
    change Parts.nodes (Parts.node info (parts metadata ++ parts name ++ parts finiteType)) = _
    simp [Definition.visits, nodes_tree, nodes_finiteType]
  | annotationType d =>
    obtain ⟨info, metadata, attachPoints, name, type⟩ := d
    change Parts.nodes (Parts.node info (parts metadata ++ parts attachPoints ++ parts name ++
      parts type)) = _
    simp [Definition.visits, nodes_tree, nodes_tree?]
  | «variable» d =>
    obtain ⟨info, metadata, type, name, initializer⟩ := d
    change Parts.nodes (Parts.node info (parts metadata ++ parts type ++ parts name ++
      parts initializer)) = _
    simp [Definition.visits, nodes_tree, nodes_tree?]
  | endpoint d =>
    obtain ⟨info, metadata, endpoint⟩ := d
    change Parts.nodes (Parts.node info (parts metadata ++ parts endpoint)) = _
    simp [Definition.visits, nodes_tree]
  | missing info => rfl

theorem nodes_importItem (i : ImportItem) : Parts.nodes (parts i) = Visits.nodes i.visits := by
  cases i with
  | package d =>
    obtain ⟨info, organization, package, asName⟩ := d
    change Parts.nodes (Parts.node info (parts organization ++ parts package ++ parts asName)) = _
    simp [ImportItem.visits]
  | xmlNamespace d => exact nodes_namespaceDeclaration d

end Parts

/-- A walk of a unit meets the nodes among its parts. -/
theorem CompilationUnit.nodes_walk (u : CompilationUnit) :
    Visits.nodes u.walk = Parts.nodes (parts u) := by
  obtain ⟨info, imports, definitions, endOfFile⟩ := u
  have hd : ∀ d : Definition, Parts.nodes (parts d) = Visits.nodes d.walk := fun d => by
    simp [Definition.walk, Parts.nodes_definition]
  change _ = Parts.nodes (Parts.node info (parts imports ++ parts definitions ++ parts endOfFile))
  simp [CompilationUnit.walk, CompilationUnit.visits, Parts.nodes_members _ Parts.nodes_importItem,
    Parts.nodes_members _ hd]

end BallerinaSyntax
