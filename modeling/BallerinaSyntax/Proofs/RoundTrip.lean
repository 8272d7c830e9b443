import BallerinaSyntax.Proofs.Covering
import BallerinaSyntax.Proofs.Nodes
import BallerinaSyntax.Proofs.Outcome

/-!
Every tree that is read accounts for every token. The nodes lie inside and beside each other, also
where tokens were skipped, made up or read twice, so the leaves are the tokens in their order.
-/

namespace BallerinaSyntax

/-! ## Nodes of parts -/

namespace Parts

theorem trees_nodes (f : Parts) :
    f.nodes.trees = f.trees.filterMap fun x =>
      match x.1 with
      | .node info => some (info, Parts.nodes x.2)
      | _ => none := by
  induction f with
  | nil => rfl
  | cons p inside rest _ ih => cases p <;> simp [nodes, ih]

/-- A node of a forest of parts comes from a part with its parts. -/
theorem mem_subtrees_nodes {f : Parts} {x : NodeInfo × Forest NodeInfo}
    (h : x ∈ f.nodes.subtrees) :
    ∃ inside : Parts, (Part.node x.1, inside) ∈ f.subtrees ∧ x.2 = inside.nodes := by
  induction f with
  | nil => cases h
  | cons p inside rest ihi ihr =>
    cases p with
    | node info =>
      rcases List.mem_cons.mp h with rfl | h
      · exact ⟨inside, List.mem_cons_self, rfl⟩
      · rcases List.mem_append.mp h with h | h
        · obtain ⟨i, hi, hx⟩ := ihi h
          exact ⟨i, List.mem_cons_of_mem _ (List.mem_append_left _ hi), hx⟩
        · obtain ⟨i, hi, hx⟩ := ihr h
          exact ⟨i, List.mem_cons_of_mem _ (List.mem_append_right _ hi), hx⟩
    | token leaf =>
      obtain ⟨i, hi, hx⟩ := ihr h
      exact ⟨i, List.mem_cons_of_mem _ (List.mem_append_right _ hi), hx⟩
    | name n =>
      obtain ⟨i, hi, hx⟩ := ihr h
      exact ⟨i, List.mem_cons_of_mem _ (List.mem_append_right _ hi), hx⟩

end Parts

/-- A node that fits its parts holds the nodes among them. -/
theorem NodeInfo.Fits.holds {b : Buffer} {info : NodeInfo} {inside : Parts}
    (h : info.Fits b inside.trees) : info.Holds (inside.nodes.trees.map Prod.fst) := by
  have hn : inside.nodes.trees.map Prod.fst = inside.trees.filterMap fun x =>
      match x.1 with
      | .node info => some info
      | _ => none := by
    rw [Parts.trees_nodes, List.map_filterMap]
    congr 1
    funext x
    cases x.1 <;> rfl
  rw [hn]
  refine ⟨h.ordered, fun c hc => ?_, ?_⟩
  · obtain ⟨⟨p, i⟩, hx, hc⟩ := List.mem_filterMap.mp hc
    cases p <;> cases hc
    simpa [TokenRange.includes, Part.extent] using h.within _ hx
  · refine List.pairwise_filterMap.mpr (h.apart.imp ?_)
    rintro ⟨p, i⟩ ⟨q, j⟩ ha c hc d hd
    cases p <;> cases hc
    cases q <;> cases hd
    exact ha

/-- The nodes of parts that fit are well nested. -/
theorem Parts.Sound.wellNested {b : Buffer} {f : Parts} (h : f.Sound b) : f.nodes.WellNested := by
  intro x hx
  obtain ⟨inside, hi, hn⟩ := Parts.mem_subtrees_nodes hx
  have hf : x.1.Fits b inside.trees := h _ hi
  rw [hn]
  exact hf.holds

/-! ## Trees -/

namespace ParseTree

/-- The nodes of the tree, as a walk meets them. -/
def nodes (t : ParseTree) : Forest NodeInfo := t.root.walk.nodes

theorem nodes_eq (t : ParseTree) : t.nodes = Parts.nodes (parts t.root) :=
  t.root.nodes_walk

theorem trees_nodes (t : ParseTree) : ∃ below, t.nodes.trees = [(t.root.info, below)] := ⟨_, rfl⟩

theorem Sound.wellNested {t : ParseTree} {b : Buffer} (h : t.Sound b) : t.nodes.WellNested :=
  t.nodes_eq ▸ h.parts.wellNested

theorem Sound.size {t : ParseTree} {b : Buffer} (h : t.Sound b) : t.tokens.size = b.size :=
  congrArg Array.size h.tokens

theorem Sound.coverage {t : ParseTree} {b : Buffer} (h : t.Sound b) :
    t.coverage = .ok (List.range t.tokens.size) := by
  have hc := Coverage.check_wellNested h.wellNested
  obtain ⟨below, hb⟩ := t.trees_nodes
  rw [hb, List.flatMap_cons, List.flatMap_nil, List.append_nil, h.whole, ← h.size] at hc
  rw [List.range_eq_range']
  exact hc

end ParseTree

/-- A tree accounts for its tokens: the root covers all of them, the nodes are well nested, and the
leaves are the tokens in their order. -/
theorem parse?_roundTrips {u : SourceUnit} {options : Options} {t : ParseTree}
    (h : u.parse? options = some (.ok t)) :
    t.root.info.tokens = ⟨0, t.tokens.size⟩ ∧ t.nodes.WellNested ∧
      t.coverage = .ok (List.range t.tokens.size) ∧ t.roundTrips = true := by
  have hs := SourceUnit.parse?_sound h
  refine ⟨hs.size ▸ hs.whole, hs.wellNested, hs.coverage, ?_⟩
  have hc : t.root.coverage = .ok (List.range t.tokens.size) := hs.coverage
  simp [ParseTree.roundTrips, CompilationUnit.roundTrips, hc]

theorem halfWritten_roundTrips : ∃ t, SourceUnit.halfWritten.parse? {} = some (.ok t) ∧
    t.root.info.tokens = ⟨0, 29⟩ ∧ t.nodes.WellNested ∧ t.coverage = .ok (List.range 29) ∧
      t.roundTrips = true := by
  obtain ⟨t, h, hs, -⟩ := SourceUnit.parse?_halfWritten
  exact ⟨t, h, hs ▸ parse?_roundTrips h⟩

end BallerinaSyntax
