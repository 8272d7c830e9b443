import BallerinaSyntax.Proofs.Recovery
import BallerinaSyntax.Grammar.Literal
import BallerinaSyntax.Grammar.Import

/-! The contracts of names, imports and literals. -/

namespace BallerinaSyntax

open Parse Condition Grammar

/-! ## The rules that goals name -/

theorem reads_expressionAt (power : ExpressionPower) : Reads (expressionAt power) := .call _

theorem reads_expression : Reads expression := .call _

theorem reads_typeNameAt (power : TypePower) : Reads (typeNameAt power) := .call _

theorem reads_typeName : Reads typeName := .call _

theorem reads_reference : Reads reference := .call _

theorem reads_statement : Reads statement := .call _

theorem reads_block : Reads block := .call _

theorem reads_callableBody : Reads callableBody := .call _

theorem reads_xmlElement : Reads xmlElement := .call _

theorem reads_pattern : Reads pattern := .call _

/-! ## Names -/

/-- A name with a package is made of two names and a colon between them. -/
theorem qualified_kinds {scope : Scope} {s : State}
    (h : (let package := scope.buffer.get (s.position + 0)
      let colon := scope.buffer.get (s.position + (0 + 1))
      let name := scope.buffer.get (s.position + (0 + 2))
      package.kind == .identifier && colon.kind == .colonToken && name.kind == .identifier &&
        package.range.stop == colon.range.start && colon.range.stop == name.range.start) = true) :
    named scope s ∧ scope.kindAt s 1 = .colonToken ∧
      Operator.isName true (scope.kindAt s 2) = true := by
  simp only [Bool.and_eq_true, beq_iff_eq] at h
  obtain ⟨⟨⟨⟨hp, hc⟩, hn⟩, -⟩, -⟩ := h
  refine ⟨named_of_identifier (P := any) ⟨trivial, hp⟩, by simpa [Scope.kindAt] using hc, ?_⟩
  simpa [Scope.kindAt, Operator.isName] using .inl hn

theorem reads_nameReference : Reads nameReference := by
  refine .marked fun m => .look (looks_kind 0) fun k => .look (looks_isQualifiedName 0) fun q =>
    .look (looks_isName k) fun nameable => .look (looks_isKind _ _) fun opening => ?_
  extract_lets node
  have hn : ∀ x, Builds m (pieces x) any (node x) := by
    rintro ⟨package, name⟩
    exact .node (fun _ => rfl) (by simp)
  clear_value node
  refine .ite (fun hq => ?_) fun _ => .ite (fun hk => ?_) fun _ => ?_
  · refine .bumpNameNext (fun scope s hs => ?_) fun package => .skipBumpNext (fun scope s hs => ?_)
      fun _ => .bumpName (fun scope s hs => ?_) fun name => .give ((hn _).onward (by simp))
    · exact (qualified_kinds (hs.1.1.2.trans hq)).1
    · obtain ⟨t, ht, hp⟩ := hs
      have := (qualified_kinds (ht.1.1.2.trans hq)).2.1
      simp_all [solid, Scope.kindAt]
    · obtain ⟨t, ⟨u, hu, hp⟩, ht⟩ := hs
      have := (qualified_kinds (hu.1.1.2.trans hq)).2.2
      simp_all [named, Scope.kindAt]
  · refine .bumpName (fun scope s hs => ?_) fun name => .give ((hn _).onward (by simp))
    obtain ⟨⟨⟨⟨-, rfl⟩, -⟩, rfl⟩, -⟩ := hs
    simp only [Bool.and_eq_true] at hk
    exact named_of_isName hk.1.2
  · exact .bind reads_identifier fun name => .give ((hn _).onward (by simp))

theorem reads_userDefinedType : Reads userDefinedType :=
  .marked fun _ => .bind reads_nameReference fun _ => .node (fun _ => rfl) (by simp)

theorem reads_optionalAlias : Reads optionalAlias := by
  refine .of fun m => .skip (reads_accept _) fun here => .ite (fun _ => ?_) fun _ => .done (by simp)
  exact .bind reads_identifier fun name => .done (by simp)

/-! ## Imports -/

theorem reads_identifierBefore (k : Kind) : Reads (identifierBefore k) := by
  refine .of fun m => .look (looks_atKind _) fun here => .look (looks_isKind _ _) fun next =>
    .ite (fun h => ?_) fun _ => .done (by simp)
  refine .bumpName (fun scope s hs => ?_) fun _ => .skipBump fun _ => .done (by simp)
  simp_all [named, Operator.isName]

theorem reads_packageName : Reads packageName := by
  refine .marked fun m => .bind reads_identifier fun first => .bind (.many ?_) fun others =>
    .skip (reads_accept _) fun versioned => ?_
  · exact .of fun _ => .skip (reads_accept _) fun _ =>
      .ite (fun _ => .bind reads_identifier fun _ => .done (by simp)) fun _ => .done (by simp)
  extract_lets node
  have hn : ∀ version, Builds m (pieces first ++ pieces others ++ pieces version) any
      (node version) := fun version => .node (fun _ => rfl) (by simp [List.Subperm.refl])
  clear_value node
  refine .ite (fun _ => ?_) fun _ => .give ((hn _).onward (by simp))
  exact .bind (reads_expectAny _ rfl) fun version => .give ((hn _).onward (by simp))

theorem reads_importDeclaration : Reads importDeclaration :=
  .marked fun _ => .skipBump fun _ => .bind (reads_identifierBefore _) fun _ =>
    .bind reads_packageName fun _ => .bind reads_optionalAlias fun _ =>
    .skip (reads_expect nofun) fun _ => .node (fun _ => rfl) (by simp)

theorem reads_namespaceDeclaration : Reads namespaceDeclaration :=
  .marked fun _ => .skipBump fun _ => .bind (reads_expect nofun) fun _ =>
    .bind reads_optionalAlias fun _ => .skip (reads_expect nofun) fun _ =>
    .node (fun _ => rfl) (by simp)

/-! ## Literals -/

theorem literalKind?_endOfFile : literalKind? .endOfFileToken = none := rfl

theorem reads_simpleLiteral : Reads simpleLiteral := by
  refine .marked fun m => .look (looks_atKind _) fun opening => .look (looks_isKind _ _) fun closing =>
    .ite (fun h => ?_) fun _ => ?_
  · refine .bump (fun _ _ _ => by simp_all [solid]) fun value => .skipBump fun _ => ?_
    exact .node (fun _ => rfl) (by simp)
  refine .look (looks_atKind _) fun minus => .look (looks_kind 1) fun next => ?_
  extract_lets literal
  have hl : ∀ sign, Builds m (pieces sign) any (literal sign) := by
    intro sign
    refine .look (looks_kind 0) fun k => ?_
    split
    · rename_i hk
      refine .bump (fun scope s hs he => ?_) fun value => .node (fun _ => rfl) (by simp)
      rw [← hs.2, he, literalKind?_endOfFile] at hk
      cases hk
    · refine .complain (reads_errorExpected _) (complains_errorExpected _) fun _ =>
        .missingToken fun value => ?_
      exact .failed (fun _ => rfl) (fun _ => rfl) (fun _ => rfl) (fun _ => id) (by simp)
  clear_value literal
  refine .ite (fun h => ?_) fun _ => .give ((hl _).onward (by simp))
  exact .bump (fun _ _ _ => by simp_all [solid]) fun sign => .give ((hl _).onward (by simp))

theorem reads_arrayLiteral : Reads arrayLiteral :=
  .marked fun _ => .skipBump fun _ => .bind (reads_listUntil _ reads_expression) fun _ =>
    .bind (reads_expectClosing _ _ nofun) fun _ => .delimited (fun _ => rfl) (by simp)

@[simp] theorem pieces_keyName (n : Identifier) : pieces (Tree.keyName n) = pieces n := rfl

@[simp] theorem pieces_keyExpression (t : Expression) : pieces (Tree.keyExpression t) = pieces t :=
  rfl

theorem reads_recordField : Reads recordField := by
  refine .marked fun m => .look (looks_atKind _) fun here => .look (looks_isKind _ _) fun colon => ?_
  extract_lets node
  have hn : ∀ key, Builds m (pieces key) any (node key) := fun key =>
    .skip (reads_expect nofun) fun _ => .bind reads_expression fun _ => .node (fun _ => rfl) (by simp)
  clear_value node
  refine .ite (fun h => ?_) fun _ => ?_
  · refine .bumpName (fun scope s hs => ?_) fun name => .give ((hn _).onward (by simp))
    simp_all [named, Operator.isName]
  · exact .bind reads_expression fun _ => .give ((hn _).onward (by simp))

theorem reads_recordLiteral : Reads recordLiteral :=
  .marked fun _ => .skip (reads_expect nofun) fun _ => .bind (reads_listAfter _ _ reads_recordField)
    fun _ => .bind (reads_expectClosing _ _ nofun) fun _ => .delimited (fun _ => rfl) (by simp)

theorem reads_optionalRecord : Reads optionalRecord :=
  reads_whenever (.look (looks_atKind _) fun _ => rfl) reads_recordLiteral

theorem reads_tableLiteral : Reads tableLiteral :=
  .marked fun _ => .skipBump fun _ => .bind reads_recordLiteral fun _ => .node (fun _ => rfl) (by simp)

theorem reads_intRange : Reads intRange := by
  refine .marked fun m => .bind (reads_expectAny _ rfl) fun opening =>
    .bind (reads_expressionAt _) fun start => .skip (reads_expect nofun) fun _ =>
    .bind (reads_whenever ?_ (reads_expressionAt _)) fun stop =>
    .bind (reads_expectAny _ rfl) fun closing => ?_
  · exact .of fun _ => .look (looks_atAny _) fun _ => .done (by simp)
  · exact .closed (fun _ => rfl) (List.sublist_append_right ..).subperm (by simp)

end BallerinaSyntax
