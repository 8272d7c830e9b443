import BallerinaSyntax.Proofs.Halting.Literal
import BallerinaSyntax.Proofs.Reading.Xml

/-! XML literals and string templates come to an end. -/

namespace BallerinaSyntax

open Grammar Parse
open Condition (any solid past onward turned)

variable {rank : Nat} {P : Condition}

/-! ## Text -/

theorem takes_interpolation : Takes solid interpolation :=
  .mark fun _ => .bump fun _ => .bind halts_expression fun _ => .bind (halts_expect _) fun _ => .node

theorem halts_interpolatedText {template text : Kind} (textRequired : Bool)
    (hk : template ≠ .endOfFileToken) :
    Halts rank P (interpolatedText template text textRequired) := by
  refine .mark fun m => .bind (.many (Picks.goesOn takes_interpolation hk).steps) fun holes =>
    .skim (looks_atKind _) fun _ => ?_
  extract_lets node
  have hn : ∀ last, Halts rank any (node last) := fun _ => .node
  clear_value node
  refine .ite (fun _ => .bind halts_bump fun _ => hn _) fun _ => .ite (fun _ => ?_) fun _ => hn _
  exact .bind (halts_expect _) fun _ => hn _

/-- Text takes a token: its own, or that of an interpolation. -/
theorem takes_interpolatedText {template text : Kind} (textRequired : Bool)
    (hk : template ≠ .endOfFileToken) (ht : text ≠ .endOfFileToken) :
    Takes (fun scope s => scope.kindAt s 0 = text ∨
        (scope.kindAt s 0 == template && !s.unwinding) = true)
      (interpolatedText template text textRequired) := by
  refine .mark fun m rank i => .thenAt (R := fun _ scope s => past i scope s ∨
    (s.position = i ∧ scope.kindAt s 0 = text)) (fun _ _ scope s hv hs hc h => ?_) fun holes => ?_
  · obtain ⟨a, t, hr, hm⟩ := (Picks.goesOn takes_interpolation hk).many s hv hs hc rfl
    obtain ⟨hC, rfl⟩ := h
    refine ⟨a, t, hr, hm.imp_right fun ⟨he, hg⟩ => ?_⟩
    exact ⟨congrArg State.position he, he ▸ hC.resolve_right (he ▸ hg)⟩
  · refine .look (looks_atKind _) fun here => ?_
    extract_lets node
    have hn : ∀ last {rank}, Settles rank (past i) (node last) fun _ => past i := fun _ _ =>
      .nodeThen fun _ => .done fun _ _ h => h
    clear_value node
    refine .ite (fun hh => ?_) fun hn' => Settles.weaken (R := past i) ?_ fun scope s h => ?_
    · refine (Settles.or (P := past i) (R := fun scope s => solid scope s ∧ s.position = i)
        (.keep halts_bump fun _ => hn _) (.takePast (fun _ _ h => h) takes_bump fun _ => hn _)).weaken
        fun scope s h => h.1.imp_right fun h => ⟨solid_of_eq h.2 ht, h.1⟩
    · exact .ite (fun _ => .keep (halts_expect _) fun _ => hn _) fun _ => hn _
    · exact h.1.resolve_right fun hk => hn' (by rw [← h.2, hk.2]; simp)

theorem halts_missingText : Halts rank P missingText := .bind (halts_placeholder _) fun _ => .ended

theorem takes_stringTemplate : Takes solid stringTemplate :=
  .mark fun _ => .bump fun _ => .bind (halts_interpolatedText _ (by decide)) fun _ =>
    .bind (halts_expectClosing _ _ _) fun _ => .delimited

theorem halts_xmlText : Halts rank P xmlText := halts_interpolatedText _ (by decide)

theorem takes_xmlText :
    Takes (fun scope s => scope.kindAt s 0 = .xmlText ∨
      (scope.kindAt s 0 == .xmlTemplateText && !s.unwinding) = true) xmlText :=
  takes_interpolatedText _ (by decide) (by decide)

theorem takes_xmlComment : Takes solid xmlComment :=
  .mark fun _ => .bump fun _ => .bind (halts_interpolatedText _ (by decide)) fun _ => .node

theorem takes_xmlInstruction : Takes solid xmlInstruction :=
  .mark fun _ => .bump fun _ => .bind (halts_interpolatedText _ (by decide)) fun _ => .node

/-! ## Tags -/

/-- Tokens with which a name in a tag begins. -/
def startsXmlName : List Kind := [.xmlQName, .xmlTagExpressionStart]

theorem halts_xmlQualifiedName : Halts 3 P xmlQualifiedName := by
  refine .mark fun m => .bind (halts_accept _) fun _ => .ite (fun _ => ?_) fun _ =>
    .skim (looks_atKind _) fun _ => .skim (looks_isKind _ _) fun _ => ?_
  · exact .bind halts_expression fun _ => .bind (halts_expect _) fun _ => .node
  extract_lets node
  have hn : ∀ space, Halts 3 any (node space) := fun _ => .bind (halts_expect _) fun _ => .node
  clear_value node
  exact .ite (fun _ => .bind halts_bump fun _ => .bind halts_bump fun _ => hn _) fun _ => hn _

theorem takes_xmlQualifiedName :
    Takes (fun scope s => startsXmlName.contains (scope.kindAt s 0) = true) xmlQualifiedName := by
  refine .mark fun m => ?_
  rw [accept_bind]
  refine .look (looks_atKind _) fun tag => .ite (fun h => ?_) fun hn => ?_
  · refine takes_bump.andThen (fun scope s hs =>
      solid_of_eq (k := .xmlTagExpressionStart) ?_ (by decide)) fun _ => .bind halts_expression fun _ =>
      .bind (halts_expect _) fun _ => .node
    simpa [h] using hs.2
  · refine .skim (looks_atKind _) fun _ => .skim (looks_isKind _ _) fun _ => ?_
    extract_lets node
    have hn' : ∀ space, Halts 3 any (node space) := fun _ => .bind (halts_expect _) fun _ => .node
    have name : ∀ (scope : Scope) (s : State), (startsXmlName.contains (scope.kindAt s 0) = true ∧
        (scope.kindAt s 0 == .xmlTagExpressionStart) = tag) → scope.kindAt s 0 = .xmlQName := by
      intro scope s h
      rw [Bool.not_eq_true] at hn
      simpa [startsXmlName, beq_eq_false_iff_ne.mp (h.2.trans hn)] using h.1
    have ht : Takes (Condition.atKind .xmlQName) (node none) :=
      (takes_expect (k := .xmlQName) (by decide)).andThen (fun _ _ h => h) fun _ => .node
    clear_value node
    refine .ite (fun _ => ?_) fun _ => ht.weaken name
    exact takes_bump.andThen (fun scope s h => solid_of_eq (name scope s h) (by decide)) fun _ =>
      .bind halts_bump fun _ => hn' _

theorem halts_xmlQuotedString : Halts rank P xmlQuotedString := by
  refine .mark fun m => .skim (looks_kind 0) fun k => ?_
  split
  · rename_i template text stop h
    exact .bind halts_bump fun _ => .bind (halts_interpolatedText _ (quotedKinds?_solid h).1) fun _ =>
      .bind (halts_expectClosing _ _ _) fun _ => .delimited
  · exact .bind (halts_errorExpected _) fun _ => .bind halts_missingText fun _ => .node

theorem takes_xmlAttribute :
    Takes (fun scope s => startsXmlName.contains (scope.kindAt s 0) = true) xmlAttribute :=
  .mark fun _ => takes_xmlQualifiedName.andThen (fun _ _ h => h) fun _ => .bind (halts_expect _)
    fun _ => .bind halts_xmlQuotedString fun _ => .node

/-! ## Elements -/

/-- An element in the content of another one takes a token, or nests too deep. -/
theorem settles_contentElement (i : Nat) :
    Settles 3 (fun scope s => solid scope s ∧ s.position = i)
      (nested (return Tree.contentElement (← xmlElement))
        (return Tree.contentText (← missingText)))
      fun _ scope s => past i scope s ∨
        (scope.options.maxNestingDepth ≤ scope.depth ∧ s.unwinding = true) :=
  .nestedPast
    (.thenAt (.callEager (by decide) fun _ _ h => ⟨h.1, Nat.le_of_eq h.2.symm⟩) fun _ =>
      .done fun _ _ h => h)
    (fun _ _ h => h) fun _ _ _ => rfl

/-- An item takes a token, or nests too deep and unwinds. -/
theorem settles_xmlContentItem (s₀ : State) :
    Settles 3 (fun scope s => (s = s₀ ∧ s.unwinding = false) ∧ solid scope s) xmlContentItem
      fun _ => onward s₀ := by
  refine .look (looks_kind 0) fun k => ?_
  have take : ∀ {α : Type} {p : Parse α} {f : α → Option (Tree .xmlContent)} {C : Condition},
      Takes C p → (∀ scope s, s.unwinding = false → scope.kindAt s 0 = k → solid scope s →
        C scope s) →
      Settles 3 (fun scope s => ((s = s₀ ∧ s.unwinding = false) ∧ solid scope s) ∧
        scope.kindAt s 0 = k) (p >>= fun a => pure (f a)) fun _ => onward s₀ := fun hp hC =>
    .takePast (i := s₀.position)
      (fun scope s h => ⟨hC scope s h.1.1.2 h.2 h.1.2, congrArg State.position h.1.1.1⟩) hp
      fun _ => .done fun _ _ h => .inl h
  split
  · exact take takes_xmlText fun _ _ _ hk _ => .inl hk
  · exact take takes_xmlText fun _ _ hu hk _ => .inr (by simp [hu, hk])
  · refine .thenAt (R := fun _ => onward s₀) (fun _ _ scope s hv hs hc h => ?_) fun _ =>
      .done fun _ _ h => h
    obtain ⟨⟨⟨rfl, hu⟩, hk⟩, -⟩ := h
    obtain ⟨a, t, hr, ht⟩ := settles_contentElement s.position hv hs hc ⟨hk, rfl⟩
    exact ⟨a, t, hr, ht.imp_right fun h => ⟨hu, h.2⟩⟩
  · exact take takes_bump fun _ _ _ _ h => h
  · exact take takes_xmlInstruction fun _ _ _ _ h => h
  · exact take takes_xmlComment fun _ _ _ _ h => h
  · exact take (takes_bumpUnexpected _) fun _ _ _ _ h => h

theorem solid_of_content {scope : Scope} {s : State}
    (h : endsXmlContent (scope.kindAt s 0) = false) : solid scope s :=
  fun he => by rw [he] at h; cases h

theorem halts_xmlContent : Halts 3 P xmlContent := by
  refine .bind ((Settles.loop (I := fun _ => any) (Q := fun _ => any) fun read s₀ => ?_).weaken
    fun _ _ _ => trivial) fun _ => .ended
  refine .look looks_isUnwinding fun unwinding => .look (looks_kind 0) fun k => .ite
    (fun _ => .done fun _ _ _ => trivial) fun hn => ?_
  simp only [Bool.or_eq_true, not_or, Bool.not_eq_true] at hn
  refine .thenAt (R := fun _ => onward s₀)
    ((settles_xmlContentItem s₀).weaken fun scope s h => ⟨⟨h.1.1.1, ?_⟩, ?_⟩) fun item => ?_
  · rw [h.1.2, hn.1]
  · exact solid_of_content (by rw [h.2, hn.2])
  · cases item with
    | some item => exact .done fun _ _ h => ⟨h, trivial⟩
    | none => exact .done fun _ _ h => ⟨h, trivial⟩

theorem halts_xmlCloseTag : Halts 3 P xmlCloseTag :=
  .mark fun _ => .bind halts_bump fun _ => .bind halts_xmlQualifiedName fun _ =>
    .bind (halts_expect _) fun _ => .node

theorem takes_xmlElementBody : Takes solid xmlElementBody := by
  refine .mark fun m => .bump fun opening => .bind halts_xmlQualifiedName fun name =>
    .bind (.many fun s₀ => ?_) fun attributes => .bind (halts_accept _) fun _ => .ite (fun _ => ?_)
    fun _ => ?_
  · refine .skim looks_isUnwinding fun _ => .look (looks_atAny _) fun here => .ite (fun h => ?_)
      fun _ => .done fun _ _ _ => trivial
    simp only [Bool.and_eq_true] at h
    exact .takePast (i := s₀.position) (fun scope s hs => ⟨hs.2.trans h.2, congrArg State.position hs.1⟩)
      takes_xmlAttribute fun _ => .done fun _ _ h => .inl h
  · exact .nodeThen fun _ => .node
  · refine .bind (halts_expect _) fun _ => .nodeThen fun _ => .bind halts_xmlContent fun _ =>
      .skim (looks_atKind _) fun _ => .ite (fun _ => ?_) fun _ => ?_
    · exact .bind halts_xmlCloseTag fun _ => .node
    · exact .bind (halts_reportUnterminated _ _ _) fun _ => .node

/-! ## Literals -/

theorem halts_xmlElement : Halts 3 solid xmlElement := .call (by decide) fun _ _ h => h

theorem halts_xmlItem : Halts 3 P xmlItem := by
  refine .look (looks_kind 0) fun k => ?_
  split
  · exact .thenAt (halts_xmlElement.weaken fun _ _ h => solid_of_eq h.2 (by decide)) fun _ => .ended
  · exact .take (fun _ _ h => solid_of_eq h.2 (by decide)) takes_xmlInstruction fun _ => .ended
  · exact .take (fun _ _ h => solid_of_eq h.2 (by decide)) takes_xmlComment fun _ => .ended
  · exact .bind halts_bump fun _ => .ended
  · exact .bind halts_xmlText fun _ => .ended
  · exact .bind halts_xmlText fun _ => .ended
  · exact .bind (halts_errorExpected _) fun _ => .bind halts_missingText fun _ => .ended

theorem takes_xmlLiteral : Takes solid xmlLiteral :=
  .mark fun _ => .bump fun _ => .bind halts_xmlItem fun _ => .bind (halts_expectClosing _ _ _)
    fun _ => .delimited

end BallerinaSyntax
