import BallerinaSyntax.Proofs.RoundTrip

/-!
What the check of coverage finds. It passes well nested nodes and no others, although it compares
only neighbours in the order of the text; an error names two nodes that really stand so. What is
lost where no token is covered at all is the place of the root.
-/

namespace BallerinaSyntax

/-- No node of a forest ends before it begins. -/
def Forest.Ordered (f : Forest NodeInfo) : Prop :=
  ∀ x ∈ f.subtrees, x.1.tokens.start ≤ x.1.tokens.stop

/-- An error that is in a forest: a child that is not inside its parent, or two children of one
parent of which neither ends before the other one begins. -/
def CoverageError.Occurs (f : Forest NodeInfo) : CoverageError → Prop
  | .escapes child parent => ∃ below, (parent, below) ∈ f.subtrees ∧
      child ∈ below.trees.map Prod.fst ∧ parent.tokens.includes child.tokens = false
  | .overlap first second => ∃ parent below, (parent, below) ∈ f.subtrees ∧
      [first, second].Subperm (below.trees.map Prod.fst) ∧ ¬ first.tokens.Apart second.tokens

namespace Forest

variable {info : NodeInfo} {children rest f g : Forest NodeInfo}

theorem Ordered.below (h : (cons info children rest).Ordered) : children.Ordered :=
  fun x hx => h x (List.mem_cons_of_mem _ (List.mem_append_left _ hx))

theorem Ordered.beside (h : (cons info children rest).Ordered) : rest.Ordered :=
  fun x hx => h x (List.mem_cons_of_mem _ (List.mem_append_right _ hx))

/-- The nodes side by side are among those that begin before they end. -/
theorem Ordered.trees (h : f.Ordered) :
    ∀ c ∈ f.trees.map Prod.fst, c.tokens.start ≤ c.tokens.stop := by
  intro c hc
  obtain ⟨x, hx, rfl⟩ := List.mem_map.mp hc
  exact h x (mem_subtrees_iff.mpr ⟨x, hx, .inl rfl⟩)

end Forest

theorem CoverageError.Occurs.mono {e : CoverageError} {f g : Forest NodeInfo} (h : e.Occurs f)
    (hs : ∀ x ∈ f.subtrees, x ∈ g.subtrees) : e.Occurs g := by
  cases e with
  | escapes child parent =>
    obtain ⟨below, hp, hc⟩ := h
    exact ⟨below, hs _ hp, hc⟩
  | overlap first second =>
    obtain ⟨parent, below, hp, hc⟩ := h
    exact ⟨parent, below, hs _ hp, hc⟩

namespace Coverage

/-! ## One node over its children -/

/-- Among sorted children only neighbours are compared, and this is enough: what begins behind a
child that ends behind another one begins behind both. -/
theorem apart_of_violation?_eq_none {parent : NodeInfo} {before : Option NodeInfo}
    {sorted : List Covered} (ho : ∀ c ∈ sorted, c.info.tokens.start ≤ c.info.tokens.stop)
    (h : violation? parent before sorted = none) :
    (∀ c ∈ sorted, parent.tokens.includes c.info.tokens = true) ∧
      (before.toList ++ sorted.map Covered.info).Pairwise Before := by
  induction sorted generalizing before with
  | nil => cases before <;> simp
  | cons c rest ih =>
    obtain ⟨he, h⟩ := Option.or_eq_none_iff.mp h
    obtain ⟨hb, hr⟩ := Option.or_eq_none_iff.mp h
    obtain ⟨hin, hrest⟩ := ih (fun d hd => ho d (List.mem_cons_of_mem _ hd)) hr
    have hc : parent.tokens.includes c.info.tokens = true := by
      by_contra hn
      rw [escape?, if_neg hn] at he
      cases he
    refine ⟨List.forall_mem_cons.mpr ⟨hc, hin⟩, ?_⟩
    cases before with
    | none => exact hrest
    | some first =>
      have hfirst : first.tokens.stop ≤ c.info.tokens.start := by
        by_contra hn
        rw [overlap?, if_pos (Nat.lt_of_not_le hn)] at hb
        cases hb
      refine List.pairwise_cons.mpr ⟨fun d hd => ?_, hrest⟩
      rcases List.mem_cons.mp hd with rfl | hd
      · exact hfirst
      · have hcd : c.info.tokens.stop ≤ d.tokens.start := (List.pairwise_cons.mp hrest).1 d hd
        exact Nat.le_trans hfirst (Nat.le_trans (ho c List.mem_cons_self) hcd)

/-- What is reported is a child of the parent, or two children of which the first one is the
neighbour of the second. -/
theorem of_violation?_eq_some {parent : NodeInfo} {before : Option NodeInfo}
    {sorted : List Covered} {e : CoverageError} (h : violation? parent before sorted = some e) :
    (∃ c ∈ sorted, e = .escapes c.info parent ∧ parent.tokens.includes c.info.tokens = false) ∨
      ∃ first second, [first, second].Sublist (before.toList ++ sorted.map Covered.info) ∧
        e = .overlap first second ∧ second.tokens.start < first.tokens.stop := by
  induction sorted generalizing before with
  | nil => cases h
  | cons c rest ih =>
    rcases Option.or_eq_some_iff.mp h with he | ⟨-, h⟩
    · unfold escape? at he
      split at he
      · cases he
      · exact .inl ⟨c, List.mem_cons_self, (Option.some.inj he).symm, Bool.eq_false_iff.mpr ‹_›⟩
    rcases Option.or_eq_some_iff.mp h with hb | ⟨-, hr⟩
    · cases before with
      | none => cases hb
      | some first =>
        change (if _ then some (CoverageError.overlap first c.info) else none) = some e at hb
        split at hb
        · exact .inr ⟨first, c.info, ((List.nil_sublist _).cons_cons _).cons_cons _,
            (Option.some.inj hb).symm, ‹_›⟩
        · cases hb
    · rcases ih hr with ⟨d, hd, h⟩ | ⟨first, second, hs, h⟩
      · exact .inl ⟨d, List.mem_cons_of_mem _ hd, h⟩
      · exact .inr ⟨first, second, hs.trans (List.sublist_append_right ..), h⟩

/-- Two children of which the first one precedes are not apart if the second one begins too early,
also where one of them is empty. -/
theorem not_apart {first second : Covered}
    (ho : second.info.tokens.start ≤ second.info.tokens.stop)
    (hp : first.precedes second = true)
    (h : second.info.tokens.start < first.info.tokens.stop) :
    ¬ first.info.tokens.Apart second.info.tokens := by
  simp only [Covered.precedes, Bool.or_eq_true, Bool.and_eq_true, decide_eq_true_eq,
    beq_iff_eq] at hp
  unfold TokenRange.Apart
  omega

/-! ## Forests -/

/-- The nodes that are covered are those side by side. -/
theorem infos_cover (f : Forest NodeInfo) :
    (cover f).1.map Covered.info = f.trees.map Prod.fst := by
  cases f with
  | nil => rfl
  | cons info children rest => exact congrArg (info :: ·) (infos_cover rest)

/-- The children of a node as the check compares them. -/
theorem sorted_infos (children : Forest NodeInfo) :
    (((cover children).1.mergeSort Covered.precedes).map Covered.info).Perm
      (children.trees.map Prod.fst) := by
  rw [← infos_cover]
  exact (List.mergeSort_perm _ _).map _

theorem ordered_sorted {children : Forest NodeInfo} (h : children.Ordered) :
    ∀ c ∈ (cover children).1.mergeSort Covered.precedes,
      c.info.tokens.start ≤ c.info.tokens.stop := fun _ hc =>
  h.trees _ ((sorted_infos children).subset (List.mem_map_of_mem hc))

theorem cover_error (info : NodeInfo) (children rest : Forest NodeInfo) :
    (cover (.cons info children rest)).2 = (cover children).2.or
      ((violation? info none ((cover children).1.mergeSort Covered.precedes)).or (cover rest).2) :=
  rfl

/-- Where nothing is reported, all nodes are well nested. -/
theorem wellNested_of_cover {f : Forest NodeInfo} (ho : f.Ordered) (h : (cover f).2 = none) :
    f.WellNested := by
  induction f with
  | nil => intro x hx; cases hx
  | cons info children rest ihc ihr =>
    rw [cover_error] at h
    obtain ⟨hc, h⟩ := Option.or_eq_none_iff.mp h
    obtain ⟨hv, hr⟩ := Option.or_eq_none_iff.mp h
    obtain ⟨hin, hb⟩ := apart_of_violation?_eq_none (ordered_sorted ho.below) hv
    have hperm := sorted_infos children
    intro x hx
    rcases List.mem_cons.mp hx with rfl | hx
    · refine ⟨ho _ List.mem_cons_self, fun c hc => ?_, ?_⟩
      · obtain ⟨d, hd, rfl⟩ := List.mem_map.mp (hperm.mem_iff.mpr hc)
        exact hin d hd
      · exact (hperm.pairwise_iff fun h => h.symm).mp (hb.imp .inl)
    · rcases List.mem_append.mp hx with hx | hx
      · exact ihc ho.below hc x hx
      · exact ihr ho.beside hr x hx

/-- What is reported is in the forest. -/
theorem occurs_of_cover {f : Forest NodeInfo} (ho : f.Ordered) {e : CoverageError}
    (h : (cover f).2 = some e) : e.Occurs f := by
  induction f with
  | nil => cases h
  | cons info children rest ihc ihr =>
    rw [cover_error] at h
    rcases Option.or_eq_some_iff.mp h with hc | ⟨-, h⟩
    · exact (ihc ho.below hc).mono fun x hx =>
        List.mem_cons_of_mem _ (List.mem_append_left _ hx)
    rcases Option.or_eq_some_iff.mp h with hv | ⟨-, hr⟩
    · have hperm := sorted_infos children
      have hself : (info, children) ∈ (Forest.cons info children rest).subtrees :=
        List.mem_cons_self
      rcases of_violation?_eq_some hv with ⟨c, hc, rfl, hn⟩ | ⟨first, second, hs, rfl, hlt⟩
      · exact ⟨children, hself, hperm.subset (List.mem_map_of_mem hc), hn⟩
      · have hp := List.pairwise_mergeSort precedes_trans precedes_total (cover children).1
        obtain ⟨pair, hpair, hinfos⟩ := List.sublist_map_iff.mp hs
        obtain ⟨c, d, rfl, rfl, rfl⟩ : ∃ c d, pair = [c, d] ∧ first = c.info ∧ second = d.info := by
          obtain _ | ⟨c, _ | ⟨d, _ | _⟩⟩ := pair <;> simp_all
        refine ⟨info, children, hself, hs.subperm.trans hperm.subperm, not_apart ?_ ?_ hlt⟩
        · exact ordered_sorted ho.below d (hpair.subset (by simp))
        · exact List.rel_of_pairwise_cons (hp.sublist hpair) (by simp)
    · exact (ihr ho.beside hr).mono fun x hx =>
        List.mem_cons_of_mem _ (List.mem_append_right _ hx)

/-- Nodes that begin before they end pass exactly if they are well nested, and then their leaves
are the indices of their tokens. -/
theorem check_eq_ok_iff {f : Forest NodeInfo} (ho : f.Ordered) {leaves : List Nat} :
    check f = .ok leaves ↔
      f.WellNested ∧ leaves = f.trees.flatMap fun x => x.1.tokens.indices := by
  constructor
  · intro h
    have hn : (cover f).2 = none := by
      unfold check at h
      split at h
      · cases h
      · rename_i hc
        rw [hc]
    have hw := wellNested_of_cover ho hn
    rw [check_wellNested hw] at h
    exact ⟨hw, (Except.ok.inj h).symm⟩
  · rintro ⟨hw, rfl⟩
    exact check_wellNested hw

theorem occurs_of_check {f : Forest NodeInfo} (ho : f.Ordered) {e : CoverageError}
    (h : check f = .error e) : e.Occurs f := by
  unfold check at h
  split at h
  · rename_i hc
    cases h
    exact occurs_of_cover ho (by rw [hc])
  · cases h

end Coverage

/-! ## Trees -/

theorem TokenRange.indices_eq_range_iff {r : TokenRange} {n : Nat} (ho : r.start ≤ r.stop) :
    r.indices = List.range n ↔ r = ⟨0, n⟩ ∨ n = 0 ∧ r.isEmpty = true := by
  obtain ⟨start, stop⟩ := r
  have ho : start ≤ stop := ho
  have he : (TokenRange.mk start stop).isEmpty = true ↔ start = stop := beq_iff_eq
  rw [he, TokenRange.mk.injEq, TokenRange.indices, List.range_eq_range']
  constructor
  · intro h
    dsimp only at h
    have hl : stop - start = n := by simpa using congrArg List.length h
    by_cases hn : n = 0
    · exact .inr ⟨hn, by omega⟩
    · have hs := congrArg List.head? h
      rw [List.head?_range', List.head?_range', if_neg (by omega), if_neg hn] at hs
      obtain rfl : start = 0 := Option.some.inj hs
      exact .inl ⟨rfl, hl⟩
  · rintro (⟨rfl, rfl⟩ | ⟨rfl, rfl⟩)
    · rfl
    · simp

namespace ParseTree

/-- The root is the only tree of a walk. -/
theorem root_ordered {t : ParseTree} (ho : t.nodes.Ordered) :
    t.root.info.tokens.start ≤ t.root.info.tokens.stop := by
  obtain ⟨below, hb⟩ := t.trees_nodes
  exact ho.trees _ (by rw [hb]; exact List.mem_cons_self)

theorem roundTrips_iff (t : ParseTree) (ho : t.nodes.Ordered) :
    t.roundTrips = true ↔ t.nodes.WellNested ∧ (t.root.info.tokens = ⟨0, t.tokens.size⟩ ∨
      t.tokens.size = 0 ∧ t.root.info.tokens.isEmpty = true) := by
  obtain ⟨below, hb⟩ := t.trees_nodes
  have hl : (t.nodes.trees.flatMap fun x => x.1.tokens.indices) = t.root.info.tokens.indices := by
    rw [hb, List.flatMap_cons, List.flatMap_nil, List.append_nil]
  have hok : t.roundTrips = true ↔ t.root.coverage = .ok (List.range t.tokens.size) := by
    unfold ParseTree.roundTrips CompilationUnit.roundTrips
    cases t.root.coverage <;> simp
  rw [hok, ← TokenRange.indices_eq_range_iff (root_ordered ho), ← hl, eq_comm (b := List.range _)]
  exact Coverage.check_eq_ok_iff ho

end ParseTree

/-- The check is exact on every tree of nodes, in whatever order children are listed, and a tree
round-trips exactly if it is well nested over all its tokens; if there are none, any empty root will
do. -/
theorem coverage_exact {root : NodeInfo} {below : Forest NodeInfo} {t : ParseTree}
    (hb : (Forest.tree root below).Ordered) (ht : t.nodes.Ordered) :
    (∀ leaves, Coverage.check (.tree root below) = .ok leaves ↔
      (Forest.tree root below).WellNested ∧ leaves = root.tokens.indices) ∧
    (∀ e, Coverage.check (.tree root below) = .error e → e.Occurs (.tree root below)) ∧
    (t.roundTrips = true ↔ t.nodes.WellNested ∧ (t.root.info.tokens = ⟨0, t.tokens.size⟩ ∨
      t.tokens.size = 0 ∧ t.root.info.tokens.isEmpty = true)) := by
  refine ⟨fun leaves => ?_, fun e he => Coverage.occurs_of_check hb he, t.roundTrips_iff ht⟩
  rw [Coverage.check_eq_ok_iff hb, Forest.trees_tree, List.flatMap_cons, List.flatMap_nil,
    List.append_nil]

/-- A unit of no tokens whose root stands aside. -/
def ParseTree.aside : ParseTree :=
  ⟨"aside.bal", ⟨⟨.compilationUnit, .empty 0, .empty 5, {}, {}⟩, [], [],
    ⟨.endOfFileToken, 0, .empty 0, false⟩⟩, #[], []⟩

theorem ParseTree.aside_ordered : aside.nodes.Ordered := by
  intro x hx
  obtain rfl := List.mem_singleton.mp hx
  exact Nat.le_refl 5

theorem NodeInfo.holds_nil {info : NodeInfo} (h : info.tokens.start ≤ info.tokens.stop) :
    info.Holds [] :=
  ⟨h, fun _ hc => absurd hc List.not_mem_nil, .nil⟩

theorem ParseTree.aside_wellNested : aside.nodes.WellNested := by
  intro x hx
  obtain rfl := List.mem_singleton.mp hx
  exact NodeInfo.holds_nil (Nat.le_refl 5)

/-- Two statements, the later one listed first. -/
def Forest.swapped : Forest NodeInfo :=
  .cons ⟨.continueStatement, .empty 0, ⟨3, 4⟩, {}, {}⟩ .nil
    (.leaf ⟨.breakStatement, .empty 0, ⟨1, 3⟩, {}, {}⟩)

/-- A block around them. -/
def NodeInfo.aroundSwapped : NodeInfo := ⟨.block, .empty 0, ⟨0, 5⟩, {}, {}⟩

theorem swapped_wellNested : (Forest.tree .aroundSwapped .swapped).WellNested := by
  intro x hx
  rcases List.mem_cons.mp hx with rfl | hx
  · exact ⟨Nat.zero_le 5, by decide, by unfold TokenRange.Apart; decide⟩
  rcases List.mem_cons.mp hx with rfl | hx
  · exact NodeInfo.holds_nil (Nat.le_succ 3)
  obtain rfl := List.mem_singleton.mp hx
  exact NodeInfo.holds_nil (by decide)

theorem swapped_exact : (Forest.tree .aroundSwapped .swapped).Ordered ∧
    ParseTree.aside.nodes.Ordered ∧
    Coverage.check (.tree .aroundSwapped .swapped) = .ok [0, 1, 2, 3, 4] ∧
    (∀ e, Coverage.check (.tree .aroundSwapped .swapped) = .error e →
      e.Occurs (.tree .aroundSwapped .swapped)) ∧ ParseTree.aside.roundTrips = true := by
  have hb : (Forest.tree .aroundSwapped .swapped).Ordered := fun x hx =>
    (swapped_wellNested x hx).ordered
  obtain ⟨hok, he, hr⟩ := coverage_exact hb ParseTree.aside_ordered
  exact ⟨hb, ParseTree.aside_ordered, (hok _).mpr ⟨swapped_wellNested, rfl⟩, he,
    hr.mpr ⟨ParseTree.aside_wellNested, .inr ⟨rfl, rfl⟩⟩⟩

/-- Where there are no tokens, the place of the root is not looked at. -/
theorem aside_roundTrips : ParseTree.aside.nodes.Ordered ∧
    ¬ (ParseTree.aside.roundTrips = true ↔ ParseTree.aside.nodes.WellNested ∧
      ParseTree.aside.root.info.tokens = ⟨0, ParseTree.aside.tokens.size⟩) := by
  refine ⟨ParseTree.aside_ordered, fun h => ?_⟩
  have ht : ParseTree.aside.roundTrips = true :=
    (ParseTree.aside.roundTrips_iff ParseTree.aside_ordered).mpr
      ⟨ParseTree.aside_wellNested, .inr ⟨rfl, rfl⟩⟩
  obtain ⟨-, hr⟩ := h.mp ht
  cases hr

end BallerinaSyntax
