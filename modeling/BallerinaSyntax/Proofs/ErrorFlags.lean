import BallerinaSyntax.Proofs.RoundTrip

/-!
Where a tree tells of errors. An error is never lost on the way up: what was made up, left out or
left open marks every node around it, and the root is marked exactly if something was reported.
-/

namespace BallerinaSyntax

/-- Whether recovery made a part up or left it open: a placeholder, a node without its closing
token, or a token that was not there. -/
def Part.faulty : Part → Bool
  | .node info => info.flags.missing || info.flags.unterminated
  | .token leaf => leaf.missing
  | .name i => i.token.missing

theorem Part.Fits.erroneous_of_faulty {b : Buffer} {inside : List (Part × Parts)} {p : Part}
    (h : p.Fits b inside) (hf : p.faulty = true) : p.erroneous = true := by
  cases p with
  | node info => exact (Bool.or_eq_true_iff.mp hf).elim h.missing h.unterminated
  | token leaf => exact hf
  | name i => exact hf

/-- What tells of an error inside a part marks that part. -/
theorem Part.Fits.noticed {b : Buffer} {inside : List (Part × Parts)} {p : Part}
    (h : p.Fits b inside) {x : Part × Parts} (hx : x ∈ inside) (he : x.1.erroneous = true) :
    p.erroneous = true := by
  cases p with
  | node info => exact NodeInfo.Fits.noticed h x hx he
  | token leaf => cases h.2 ▸ hx
  | name i => cases h.2 ▸ hx

namespace Parts.Sound

variable {b : Buffer} {f : Parts}

/-- An error deep inside a forest marks one of its trees. -/
theorem noticed (h : f.Sound b) {y : Part × Parts} (hy : y ∈ f.subtrees)
    (he : y.1.erroneous = true) : ∃ x ∈ f.trees, x.1.erroneous = true := by
  induction f with
  | nil => cases hy
  | cons p inside rest ihi ihr =>
    obtain ⟨hp, hi⟩ := Parts.sound_iff.mp h _ List.mem_cons_self
    have hr : Parts.Sound b rest := Parts.sound_iff.mpr fun x hx =>
      Parts.sound_iff.mp h x (List.mem_cons_of_mem _ hx)
    rcases List.mem_cons.mp hy with rfl | hy
    · exact ⟨_, List.mem_cons_self, he⟩
    · rcases List.mem_append.mp hy with hy | hy
      · obtain ⟨x, hx, hxe⟩ := ihi hi hy
        exact ⟨_, List.mem_cons_self, hp.noticed hx hxe⟩
      · obtain ⟨x, hx, hxe⟩ := ihr hr hy
        exact ⟨x, List.mem_cons_of_mem _ hx, hxe⟩

/-- An error below a node, at any depth, marks the node. -/
theorem hasError_of_below (h : f.Sound b) {info : NodeInfo} {inside : Parts}
    (hn : (Part.node info, inside) ∈ f.subtrees) {y : Part × Parts} (hy : y ∈ inside.subtrees)
    (he : y.1.erroneous = true) : info.hasError = true := by
  have hi : Parts.Sound b inside := fun z hz => h z (Forest.subtrees_trans hn hz)
  obtain ⟨x, hx, hxe⟩ := hi.noticed hy he
  exact NodeInfo.Fits.noticed (h _ hn) x hx hxe

end Parts.Sound

/-- A tree tells of its errors: the root is marked exactly if there are diagnostics; a mark on a
node marks every node around it; whatever recovery made up or left open is marked, itself and the
node that holds it; and so there is nothing of the kind below a node without a mark. -/
theorem parse?_errors {u : SourceUnit} {options : Options} {t : ParseTree}
    (h : u.parse? options = some (.ok t)) :
    (t.hasErrors = true ↔ t.diagnostics ≠ []) ∧
      (∀ x ∈ t.nodes.subtrees, ∀ y ∈ x.2.subtrees, y.1.hasError = true → x.1.hasError = true) ∧
      (∀ info inside, (Part.node info, inside) ∈ (parts t.root).subtrees →
        ((Part.node info).faulty = true → info.hasError = true) ∧
          ∀ x ∈ inside.trees, x.1.faulty = true → info.hasError = true) ∧
      ∀ info inside, (Part.node info, inside) ∈ (parts t.root).subtrees → info.hasError = false →
        ∀ y ∈ inside.subtrees, y.1.faulty = false := by
  have hs := SourceUnit.parse?_sound h
  refine ⟨hs.errors, fun x hx y hy he => ?_, fun info inside hn => ⟨fun hf => ?_, fun x hx hf => ?_⟩,
    fun info inside hn hc y hy => ?_⟩
  · rw [t.nodes_eq] at hx
    obtain ⟨inside, hi, hxi⟩ := Parts.mem_subtrees_nodes hx
    obtain ⟨below, hb, -⟩ := Parts.mem_subtrees_nodes (hxi ▸ hy)
    exact hs.parts.hasError_of_below hi hb he
  · exact (hs.parts _ hn).erroneous_of_faulty hf
  · have hxs : x ∈ inside.subtrees := Forest.mem_subtrees_iff.mpr ⟨x, hx, .inl rfl⟩
    have hfits := hs.parts x (Forest.subtrees_trans hn hxs)
    exact hs.parts.hasError_of_below hn hxs (hfits.erroneous_of_faulty hf)
  · have hfits := hs.parts y (Forest.subtrees_trans hn hy)
    by_contra hf
    have := hs.parts.hasError_of_below hn hy (hfits.erroneous_of_faulty (by simpa using hf))
    rw [hc] at this
    cases this

theorem halfWritten_errors : ∃ t, SourceUnit.halfWritten.parse? {} = some (.ok t) ∧
    t.diagnostics ≠ [] ∧ ∀ info inside, (Part.node info, inside) ∈ (parts t.root).subtrees →
      info.hasError = false → ∀ y ∈ inside.subtrees, y.1.faulty = false := by
  obtain ⟨t, h, -, -, he⟩ := SourceUnit.parse?_halfWritten
  obtain ⟨hd, -, -, hf⟩ := parse?_errors h
  exact ⟨t, h, hd.mp he, hf⟩

end BallerinaSyntax
