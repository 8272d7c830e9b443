import BallerinaSyntax.Proofs.Placement
import BallerinaSyntax.Coverage

/-!
Coverage of well nested nodes. Where every node holds its children beside each other, no violation
is found, and the leaves of a node are exactly the indices of its tokens.
-/

namespace BallerinaSyntax

/-- A node over its children. -/
structure NodeInfo.Holds (info : NodeInfo) (children : List NodeInfo) : Prop where
  ordered : info.tokens.start ≤ info.tokens.stop
  within : ∀ c ∈ children, info.tokens.includes c.tokens = true
  apart : children.Pairwise fun c d => c.tokens.Apart d.tokens

/-- Every node of a forest holds its children. -/
def Forest.WellNested (f : Forest NodeInfo) : Prop :=
  ∀ x ∈ f.subtrees, x.1.Holds (x.2.trees.map Prod.fst)

namespace Coverage

theorem gap_append {a b c : Nat} (h : a ≤ b) (h' : b ≤ c) : gap a b ++ gap b c = gap a c := by
  obtain ⟨m, rfl⟩ := Nat.exists_eq_add_of_le h
  obtain ⟨n, rfl⟩ := Nat.exists_eq_add_of_le h'
  simp only [gap, Nat.add_sub_cancel_left, List.range'_append_1]
  congr 1
  omega

/-- A node with all its tokens as its leaves. -/
def full (info : NodeInfo) : Covered := ⟨info, info.tokens.indices⟩

/-- One node ends before another one begins. -/
def Before (c d : NodeInfo) : Prop := c.tokens.stop ≤ d.tokens.start

theorem splice_full {stop cursor : Nat} {infos : List NodeInfo} (hc : cursor ≤ stop)
    (ho : ∀ c ∈ infos, c.tokens.start ≤ c.tokens.stop)
    (hw : ∀ c ∈ infos, cursor ≤ c.tokens.start ∧ c.tokens.stop ≤ stop)
    (hb : infos.Pairwise Before) : splice stop cursor (infos.map full) = gap cursor stop := by
  induction infos generalizing cursor with
  | nil => rfl
  | cons c rest ih =>
    obtain ⟨hb, hr⟩ := List.pairwise_cons.mp hb
    have hco := ho c List.mem_cons_self
    have hcw := hw c List.mem_cons_self
    have hm : max cursor c.tokens.stop = c.tokens.stop := by omega
    have hrest := ih hcw.2 (fun d hd => ho d (List.mem_cons_of_mem _ hd))
      (fun d hd => ⟨hb d hd, (hw d (List.mem_cons_of_mem _ hd)).2⟩) hr
    change gap cursor c.tokens.start ++ gap c.tokens.start c.tokens.stop ++
      splice stop (max cursor c.tokens.stop) (rest.map full) = _
    rw [hm, hrest, gap_append hcw.1 hco, gap_append (by omega) hcw.2]

theorem violation?_full {parent : NodeInfo} {before : Option NodeInfo} {infos : List NodeInfo}
    (hw : ∀ c ∈ infos, parent.tokens.includes c.tokens = true)
    (hb : (before.toList ++ infos).Pairwise Before) :
    violation? parent before (infos.map full) = none := by
  induction infos generalizing before with
  | nil => rfl
  | cons c rest ih =>
    have hr : violation? parent (some c) (rest.map full) = none :=
      ih (fun d hd => hw d (List.mem_cons_of_mem _ hd)) (hb.sublist (List.sublist_append_right ..))
    have he : escape? parent (full c) = none := if_pos (hw c List.mem_cons_self)
    have ho : overlap? before (full c) = none := by
      cases before with
      | none => rfl
      | some first =>
        have : Before first c := (List.pairwise_cons.mp hb).1 c List.mem_cons_self
        exact if_neg (Nat.not_lt.mpr this)
    change (escape? parent (full c)).or ((overlap? before (full c)).or
      (violation? parent (some c) (rest.map full))) = none
    rw [he, ho, hr]
    rfl

/-- Of two nodes beside each other the one that precedes ends first. -/
theorem before_of_precedes {c d : NodeInfo} (hd : d.tokens.start ≤ d.tokens.stop)
    (ha : c.tokens.Apart d.tokens) (hp : (full c).precedes (full d) = true) : Before c d := by
  simp only [Covered.precedes, full, Bool.or_eq_true, Bool.and_eq_true, beq_iff_eq] at hp
  unfold TokenRange.Apart at ha
  unfold Before
  rcases hp with h | ⟨h, h'⟩
  · have := of_decide_eq_true h
    omega
  · have := of_decide_eq_true h'
    omega

theorem precedes_trans (a b c : Covered) (h : a.precedes b = true) (h' : b.precedes c = true) :
    a.precedes c = true := by
  simp only [Covered.precedes, Bool.or_eq_true, Bool.and_eq_true, decide_eq_true_eq,
    beq_iff_eq] at *
  omega

theorem precedes_total (a b : Covered) : (a.precedes b || b.precedes a) = true := by
  simp only [Covered.precedes, Bool.or_eq_true, Bool.and_eq_true, decide_eq_true_eq, beq_iff_eq]
  omega

/-- The children of a node in the order of the text. -/
theorem sorted_full {infos : List NodeInfo} (ho : ∀ c ∈ infos, c.tokens.start ≤ c.tokens.stop)
    (ha : infos.Pairwise fun c d => c.tokens.Apart d.tokens) :
    ∃ sorted : List NodeInfo, (infos.map full).mergeSort Covered.precedes = sorted.map full ∧
      sorted.Perm infos ∧ sorted.Pairwise Before := by
  let le (c d : NodeInfo) : Bool := (full c).precedes (full d)
  have hs := List.mergeSort_perm infos le
  refine ⟨infos.mergeSort le, (List.map_mergeSort (f := full) fun _ _ _ _ => rfl).symm, hs, ?_⟩
  have hp := List.pairwise_mergeSort (fun a b c => precedes_trans (full a) (full b) (full c))
    (fun a b => precedes_total (full a) (full b)) infos
  have ha := (hs.pairwise_iff fun h => h.symm).mpr ha
  refine (hp.and ha).imp_of_mem fun _ hd h => ?_
  exact before_of_precedes (ho _ (hs.subset hd)) h.2 h.1

/-- The leaves of well nested nodes are the indices of their tokens. -/
theorem cover_wellNested {f : Forest NodeInfo} (h : f.WellNested) :
    cover f = (f.trees.map fun x => full x.1, none) := by
  induction f with
  | nil => rfl
  | cons info children rest ihc ihr =>
    have hi := h _ (Forest.mem_subtrees_iff.mpr ⟨_, List.mem_cons_self, .inl rfl⟩)
    have hc : children.WellNested := fun x hx =>
      h x (Forest.mem_subtrees_iff.mpr ⟨_, List.mem_cons_self, .inr hx⟩)
    have hr : rest.WellNested := fun x hx => by
      obtain ⟨y, hy, hxy⟩ := Forest.mem_subtrees_iff.mp hx
      exact h x (Forest.mem_subtrees_iff.mpr ⟨y, List.mem_cons_of_mem _ hy, hxy⟩)
    have ho : ∀ c ∈ children.trees.map Prod.fst, c.tokens.start ≤ c.tokens.stop := by
      simp only [List.mem_map]
      rintro _ ⟨x, hx, rfl⟩
      exact (hc x (Forest.mem_subtrees_iff.mpr ⟨x, hx, .inl rfl⟩)).ordered
    obtain ⟨sorted, hsort, hperm, hbefore⟩ := sorted_full ho hi.apart
    have hin : ∀ c ∈ sorted, info.tokens.includes c.tokens = true := fun c hc =>
      hi.within c (hperm.subset hc)
    have hsplice : splice info.tokens.stop info.tokens.start (sorted.map full) =
        info.tokens.indices :=
      splice_full hi.ordered (fun c hc => ho c (hperm.subset hc))
        (fun c hc => by simpa [TokenRange.includes] using hin c hc) hbefore
    have hnone : violation? info none (sorted.map full) = none := violation?_full hin hbefore
    have hbelow : children.trees.map (fun x => full x.1) =
        (children.trees.map Prod.fst).map full := by simp [Function.comp_def]
    simp only [cover, ihc hc, ihr hr, hbelow, hsort, hsplice, hnone]
    rfl

/-- Well nested nodes are covered without a violation. -/
theorem check_wellNested {f : Forest NodeInfo} (h : f.WellNested) :
    check f = .ok (f.trees.flatMap fun x => x.1.tokens.indices) := by
  simp only [check, cover_wellNested h, List.flatMap_map]
  rfl

end Coverage

end BallerinaSyntax
