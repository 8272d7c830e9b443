import BallerinaSyntax.Proofs.ErrorFlags
import Mathlib.Data.List.Pairwise

/-!
What a tree keeps of its tokens. A node stands where its tokens stand, and each token or name that
it stores is the one in the buffer, or was made up in front of it. A token is stored at most once,
and never by a node of which a child covers it.
-/

namespace BallerinaSyntax

/-- Where a node stands in the text: from its first to its last token, or with no width in front of
the token that it was made up at. -/
structure NodeInfo.Stands (info : NodeInfo) (tokens : Array Token) : Prop where
  filled : info.tokens.start < info.tokens.stop → ∃ first last,
    tokens[info.tokens.start]? = some first ∧ tokens[info.tokens.stop - 1]? = some last ∧
      info.range = ⟨first.range.start, last.range.stop⟩
  empty : info.tokens.start = info.tokens.stop → ∃ token,
    tokens[info.tokens.start]? = some token ∧ info.range = .empty token.range.start

/-- A token that was read is the one at its index. -/
def Leaf.Stored (l : Leaf) (tokens : Array Token) : Prop :=
  ∃ token, tokens[l.index]? = some token ∧ l.range = token.range ∧ l.kind = token.kind

/-- A name is the text of the token at its index, an identifier or a reserved word that may be a
name. -/
def Identifier.Stored (i : Identifier) (tokens : Array Token) : Prop :=
  ∃ token, tokens[i.token.index]? = some token ∧ i.token.range = token.range ∧
    i.token.kind = .identifier ∧ Operator.isName true token.kind = true ∧ i.symbol = token.text

/-- A token that was made up has no width and stands in front of the one at its index. -/
def Leaf.MadeUp (l : Leaf) (tokens : Array Token) : Prop :=
  ∃ token, tokens[l.index]? = some token ∧ l.range = .empty token.range.start

/-- What is true of a token or a name that a node stores. -/
def Part.Stored (tokens : Array Token) : Part → Prop
  | .node _ => True
  | .token leaf => if leaf.missing then leaf.MadeUp tokens else leaf.Stored tokens
  | .name i => if i.token.missing then i.token.MadeUp tokens ∧ i.symbol = "" else i.Stored tokens

/-- The token of a part that is none itself. -/
def Part.leaf? : Part → Option Leaf
  | .node _ => none
  | .token leaf => some leaf
  | .name i => some i.token

/-- The index of the token that a part stores, unless it was made up. -/
def Part.index? (p : Part) : Option Nat :=
  p.leaf?.bind fun leaf => if leaf.missing then none else some leaf.index

/-- The indices of all tokens that are stored in a forest. -/
def Parts.indices : Parts → List Nat
  | .nil => []
  | .cons p inside rest => p.index?.toList ++ (indices inside ++ indices rest)

section Fits

variable {b : Buffer} {inside : List (Part × Parts)}

theorem Buffer.get_tokens {i : Nat} (h : i < b.size) : b.tokens[i]? = some (b.get i) :=
  Buffer.getElem?_eq_get h

theorem NodeInfo.Fits.stands {info : NodeInfo} (h : info.Fits b inside) : info.Stands b.tokens := by
  have hb := h.bounded
  have hr := h.bytes
  refine ⟨fun hl => ?_, fun he => ?_⟩
  · rw [Buffer.bytesOf, if_pos hl] at hr
    exact ⟨_, _, Buffer.get_tokens h.placed, Buffer.get_tokens (by omega), hr⟩
  · rw [Buffer.bytesOf, if_neg (by omega)] at hr
    exact ⟨_, Buffer.get_tokens h.placed, hr⟩

/-- Two parts of a node are beside each other. -/
theorem NodeInfo.Fits.apart_of_ne {info : NodeInfo} (h : info.Fits b inside)
    {x y : Part × Parts} (hx : x ∈ inside) (hy : y ∈ inside) (hne : x ≠ y) :
    x.1.extent.Apart y.1.extent :=
  have : Std.Symm fun x y : Part × Parts => x.1.extent.Apart y.1.extent := ⟨fun _ _ h => h.symm⟩
  h.apart.forall hx hy hne

theorem Part.Fits.stored {p : Part} (h : p.Fits b inside) : p.Stored b.tokens := by
  cases p with
  | node info => trivial
  | token leaf =>
    obtain ⟨⟨hi, hl⟩, -⟩ := h
    change (if leaf.missing = true then _ else _ : Prop)
    split at hl
    · rw [if_pos ‹_›]
      exact ⟨_, Buffer.get_tokens hi, hl⟩
    · rw [if_neg ‹_›]
      exact ⟨_, Buffer.get_tokens hi, hl.2, hl.1⟩
  | name i =>
    obtain ⟨⟨hi, hk, hl⟩, -⟩ := h
    change (if i.token.missing = true then _ else _ : Prop)
    split at hl
    · rw [if_pos ‹_›]
      exact ⟨⟨_, Buffer.get_tokens hi, hl.1⟩, hl.2⟩
    · rw [if_neg ‹_›]
      exact ⟨_, Buffer.get_tokens hi, hl.2.1, hk, hl.1, hl.2.2⟩

end Fits

/-! ## Stored once -/

/-- The place of a part that stores a token begins at that token. -/
theorem Part.extent_leaf {p : Part} {leaf : Leaf} (h : p.leaf? = some leaf) :
    p.extent = leaf.extent := by
  cases p <;> cases h <;> rfl

theorem Part.extent_index {p : Part} {i : Nat} (h : p.index? = some i) : p.extent = ⟨i, i + 1⟩ := by
  obtain ⟨leaf, hl, hi⟩ := Option.bind_eq_some_iff.mp h
  rw [Part.extent_leaf hl, Leaf.extent]
  split at hi <;> cases hi
  simp_all

theorem Forest.eq_nil_of_trees {α : Type} {f : Forest α} (h : f.trees = []) : f = .nil := by
  cases f with
  | nil => rfl
  | cons a children rest => cases h

/-- The tokens that are stored in one tree. -/
def Part.indices (p : Part) (inside : Parts) : List Nat := p.index?.toList ++ inside.indices

theorem Parts.indices_cons (p : Part) (inside rest : Parts) :
    Parts.indices (.cons p inside rest) = p.indices inside ++ rest.indices :=
  (List.append_assoc ..).symm

/-- Either a part stores a token, or it is a node that holds others. -/
theorem Part.Fits.indices_eq {b : Buffer} {p : Part} {inside : Parts} (h : p.Fits b inside.trees) :
    p.indices inside = p.index?.toList ∨
      ∃ info, p = .node info ∧ p.indices inside = inside.indices := by
  cases p with
  | node info => exact .inr ⟨info, rfl, rfl⟩
  | token leaf => exact .inl (by rw [Part.indices, Forest.eq_nil_of_trees h.2]; simp [Parts.indices])
  | name i => exact .inl (by rw [Part.indices, Forest.eq_nil_of_trees h.2]; simp [Parts.indices])

namespace Parts.Sound

variable {b : Buffer} {f : Parts}

theorem inside_cons {p : Part} {inside rest : Parts}
    (h : Parts.Sound b (.cons p inside rest)) :
    p.Fits b inside.trees ∧ Parts.Sound b inside ∧ Parts.Sound b rest :=
  have hs := Parts.sound_iff.mp h
  ⟨(hs _ List.mem_cons_self).1, (hs _ List.mem_cons_self).2,
    Parts.sound_iff.mpr fun x hx => hs x (List.mem_cons_of_mem _ hx)⟩

/-- The tokens stored in a forest lie in the places of its trees. -/
theorem mem_extent (h : f.Sound b) {i : Nat} (hi : i ∈ f.indices) :
    ∃ x ∈ f.trees, x.1.extent.start ≤ i ∧ i < x.1.extent.stop := by
  induction f with
  | nil => cases hi
  | cons p inside rest ihi ihr =>
    obtain ⟨hp, hin, hr⟩ := h.inside_cons
    rw [Parts.indices_cons] at hi
    rcases List.mem_append.mp hi with hi | hi
    · refine ⟨_, List.mem_cons_self, ?_⟩
      rcases hp.indices_eq with he | ⟨info, rfl, he⟩
      · rw [he] at hi
        rw [Part.extent_index (by simpa using hi)]
        exact ⟨Nat.le_refl _, Nat.lt_succ_self _⟩
      · obtain ⟨x, hx, hxi⟩ := ihi hin (he ▸ hi)
        have hw := NodeInfo.Fits.within hp x hx
        change info.tokens.start ≤ i ∧ i < info.tokens.stop
        omega
    · obtain ⟨x, hx, hxi⟩ := ihr hr hi
      exact ⟨x, List.mem_cons_of_mem _ hx, hxi⟩

/-- Beside each other no token is stored twice. -/
theorem nodup_indices (h : f.Sound b)
    (ha : f.trees.Pairwise fun x y => x.1.extent.Apart y.1.extent) : f.indices.Nodup := by
  induction f with
  | nil => exact List.nodup_nil
  | cons p inside rest ihi ihr =>
    obtain ⟨hp, hin, hr⟩ := h.inside_cons
    obtain ⟨hpr, har⟩ := List.pairwise_cons.mp ha
    have hone : (p.indices inside).Nodup := by
      rcases hp.indices_eq with he | ⟨info, rfl, he⟩
      · rw [he]
        cases p.index? <;> simp
      · exact he ▸ ihi hin (NodeInfo.Fits.apart hp)
    rw [Parts.indices_cons]
    refine List.nodup_append.mpr ⟨hone, ihr hr har, fun i hi j hj => ?_⟩
    have htree : Parts.Sound b (.cons p inside .nil) :=
      Parts.sound_iff.mpr fun x hx => by
        obtain rfl := List.mem_singleton.mp hx
        exact ⟨hp, hin⟩
    have hi' : i ∈ Parts.indices (.cons p inside .nil) :=
      Parts.indices_cons .. ▸ List.mem_append_left _ hi
    obtain ⟨x, hx, hxi⟩ := htree.mem_extent hi'
    obtain ⟨y, hy, hyj⟩ := hr.mem_extent hj
    obtain rfl := List.mem_singleton.mp hx
    have := hpr y hy
    unfold TokenRange.Apart at this
    omega

end Parts.Sound

/-- The range of a node covers an index. -/
def NodeInfo.Covers (info : NodeInfo) (i : Nat) : Prop :=
  info.tokens.start ≤ i ∧ i < info.tokens.stop

/-- A tree is faithful to its tokens. Every node stands where its tokens stand. Every token and name
that a node stores is as it is in the buffer, in the range of the node and of none of its children,
or it was made up in front of a token there or just behind. No token is stored twice. -/
theorem parse?_faithful {u : SourceUnit} {options : Options} {t : ParseTree}
    (h : u.parse? options = some (.ok t)) :
    (∀ info inside, (Part.node info, inside) ∈ (parts t.root).subtrees →
      info.Stands t.tokens ∧ ∀ x ∈ inside.trees, x.1.Stored t.tokens ∧
        ∀ leaf, x.1.leaf? = some leaf →
          (leaf.missing = false → info.Covers leaf.index ∧
            ∀ child below, (Part.node child, below) ∈ inside.trees → ¬child.Covers leaf.index) ∧
          (leaf.missing = true → info.tokens.start ≤ leaf.index ∧ leaf.index ≤ info.tokens.stop)) ∧
      (parts t.root).indices.Nodup := by
  have hs := SourceUnit.parse?_sound h
  rw [hs.tokens]
  refine ⟨fun info inside hn => ?_, hs.parts.nodup_indices (List.pairwise_singleton ..)⟩
  have hf : info.Fits _ inside.trees := hs.parts _ hn
  refine ⟨hf.stands, fun x hx => ⟨?_, fun leaf hl => ⟨fun hm => ?_, fun hm => ?_⟩⟩⟩
  · have hxs : x ∈ inside.subtrees := Forest.mem_subtrees_iff.mpr ⟨x, hx, .inl rfl⟩
    exact (hs.parts x (Forest.subtrees_trans hn hxs)).stored
  · have hw := hf.within x hx
    have he : x.1.extent = ⟨leaf.index, leaf.index + 1⟩ := by
      rw [Part.extent_leaf hl, Leaf.extent, hm]
      rfl
    rw [he] at hw
    refine ⟨hw, fun child below hc hcover => ?_⟩
    have hne : x ≠ (.node child, below) := fun heq => by
      rw [heq] at hl
      cases hl
    have := hf.apart_of_ne hx hc hne
    rw [he] at this
    unfold NodeInfo.Covers at hcover
    rcases this with ha | ha
    · exact absurd hcover.1 (Nat.not_le.mpr ha)
    · exact absurd hcover.2 (Nat.not_lt.mpr ha)
  · have hw := hf.within x hx
    rw [Part.extent_leaf hl, Leaf.extent, hm] at hw
    exact hw

theorem halfWritten_faithful : ∃ t, SourceUnit.halfWritten.parse? {} = some (.ok t) ∧
    t.root.info.Stands t.tokens ∧ (parts t.root).indices.Nodup := by
  obtain ⟨t, h, -⟩ := SourceUnit.parse?_halfWritten
  obtain ⟨hn, hi⟩ := parse?_faithful h
  exact ⟨t, h, (hn _ _ (Forest.mem_subtrees_iff.mpr ⟨_, List.mem_singleton.mpr rfl, .inl rfl⟩)).1, hi⟩

end BallerinaSyntax
