import BallerinaSyntax.Proofs.Halting.Recovery
import BallerinaSyntax.Grammar.Import

/-! Names, imports and literals come to an end. -/

namespace BallerinaSyntax

open Grammar Parse
open Condition (any solid past onward gave turned)

variable {rank : Nat} {P : Condition}

/-! ## The rules that goals name -/

theorem halts_expressionAt (power : ExpressionPower) :
    Halts (rank + 2) P (expressionAt power) := .call (Nat.le_add_left _ _)

theorem halts_expression : Halts (rank + 2) P expression := .call (Nat.le_add_left _ _)

theorem halts_typeNameAt (power : TypePower) :
    Halts (rank + 1) P (typeNameAt power) := .call (Nat.le_add_left _ _)

theorem halts_typeName : Halts (rank + 1) P typeName := .call (Nat.le_add_left _ _)

theorem halts_reference : Halts (rank + 1) P reference := .call (Nat.le_add_left _ _)

theorem halts_statement : Halts (rank + 3) P statement := .call (Nat.le_add_left _ _)

theorem halts_block : Halts (rank + 1) P block := .call (Nat.le_add_left _ _)

theorem halts_callableBody : Halts (rank + 1) P callableBody := .call (Nat.le_add_left _ _)

theorem halts_pattern : Halts (rank + 3) P pattern := .call (Nat.le_add_left _ _)

/-! ## Names -/

theorem halts_nameReference : Halts rank P nameReference := by
  refine .mark fun m => .skim (looks_kind 0) fun k => .skim (looks_isQualifiedName 0) fun _ =>
    .skim (looks_isName k) fun _ => .skim (looks_isKind _ _) fun _ => ?_
  extract_lets node
  have hn : ∀ x, Halts rank any (node x) := fun ⟨_, _⟩ => .node
  clear_value node
  refine .ite (fun _ => ?_) fun _ => .ite (fun _ => ?_) fun _ => ?_
  · exact .bind halts_bumpName fun _ => .bind halts_bump fun _ => .bind halts_bumpName fun _ => hn _
  · exact .bind halts_bumpName fun _ => hn _
  · exact .bind halts_identifier fun _ => hn _

theorem takes_nameReference : Takes (Condition.atKind .identifier) nameReference := by
  refine .mark fun m => .skim (looks_kind 0) fun k => .skim (looks_isQualifiedName 0) fun _ =>
    .skim (looks_isName k) fun _ => .skim (looks_isKind _ _) fun _ => ?_
  extract_lets node
  have hn : ∀ x, Halts 3 any (node x) := fun ⟨_, _⟩ => .node
  have hk : ∀ scope s, Condition.atKind .identifier scope s → solid scope s :=
    fun _ _ h => solid_of_eq h (by decide)
  clear_value node
  refine .ite (fun _ => ?_) fun _ => .ite (fun _ => ?_) fun _ => ?_
  · exact takes_bumpName.andThen hk fun _ => .bind halts_bump fun _ => .bind halts_bumpName
      fun _ => hn _
  · exact takes_bumpName.andThen hk fun _ => hn _
  · exact takes_identifier.andThen (fun _ _ h => h) fun _ => hn _

theorem halts_userDefinedType : Halts rank P userDefinedType :=
  .mark fun _ => .bind halts_nameReference fun _ => .node

theorem halts_optionalAlias : Halts rank P optionalAlias :=
  .bind (halts_accept _) fun _ => .ite (fun _ => .bind halts_identifier fun _ => .ended)
    fun _ => .ended

/-! ## Imports -/

theorem halts_identifierBefore (k : Kind) : Halts rank P (identifierBefore k) :=
  .skim (looks_atKind _) fun _ => .skim (looks_isKind _ _) fun _ =>
    .ite (fun _ => .bind halts_bumpName fun _ => .bind halts_bump fun _ => .ended) fun _ => .ended

theorem steps_dottedName :
    Steps rank do if ← accept .dotToken then return some (← identifier) else return none := by
  refine fun s₀ => .movePast (i := s₀.position) (moves_accept nofun) ?_ (fun b hb => ?_) fun _ _ => ?_
  · exact fun _ _ h => congrArg State.position h
  · exact .ite (fun h => absurd (hb.symm.trans h) nofun) fun _ => .done fun _ _ _ => trivial
  · refine .ite (fun _ => .keep halts_identifier fun _ => ?_) fun _ => .done fun _ _ _ => trivial
    exact .done fun _ _ h => .inl h

theorem halts_packageName : Halts rank P packageName := by
  refine .mark fun m => .bind halts_identifier fun first => .bind (.many steps_dottedName)
    fun others => .bind (halts_accept _) fun _ => ?_
  extract_lets node
  have hn : ∀ version, Halts rank any (node version) := fun _ => .node
  clear_value node
  exact .ite (fun _ => .bind (halts_expectAny _ _) fun _ => hn _) fun _ => hn _

theorem takes_importDeclaration : Takes solid importDeclaration :=
  .mark fun _ => .bump fun _ => .bind (halts_identifierBefore _) fun _ =>
    .bind halts_packageName fun _ => .bind halts_optionalAlias fun _ => .bind (halts_expect _)
      fun _ => .node

theorem takes_namespaceDeclaration : Takes solid namespaceDeclaration :=
  .mark fun _ => .bump fun _ => .bind (halts_expect _) fun _ => .bind halts_optionalAlias fun _ =>
    .bind (halts_expect _) fun _ => .node

/-! ## Literals -/

theorem halts_simpleLiteral : Halts rank P simpleLiteral := by
  refine .mark fun m => .skim (looks_atKind _) fun _ => .skim (looks_isKind _ _) fun _ =>
    .ite (fun _ => .bind halts_bump fun _ => .bind halts_bump fun _ => .node) fun _ => ?_
  refine .skim (looks_atKind _) fun _ => .skim (looks_kind 1) fun _ => ?_
  extract_lets literal
  have hl : ∀ sign, Halts rank any (literal sign) := by
    refine fun _ => .skim (looks_kind 0) fun k => ?_
    split
    · exact .bind halts_bump fun _ => .node
    · exact .bind (halts_errorExpected _) fun _ => .bind (halts_missingToken _) fun _ => .node
  clear_value literal
  exact .ite (fun _ => .bind halts_bump fun _ => hl _) fun _ => (hl _).weaken fun _ _ _ => trivial

theorem takes_arrayLiteral : Takes solid arrayLiteral :=
  .mark fun _ => .bump fun _ => .bind (halts_listUntil _ halts_expression) fun _ =>
    .bind (halts_expectClosing _ _ _) fun _ => .delimited

theorem halts_recordField : Halts 3 P recordField := by
  refine .mark fun m => .skim (looks_atKind _) fun _ => .skim (looks_isKind _ _) fun _ => ?_
  extract_lets node
  have hn : ∀ key, Halts 3 any (node key) := fun _ =>
    .bind (halts_expect _) fun _ => .bind halts_expression fun _ => .node
  clear_value node
  refine .ite (fun _ => .bind halts_bumpName fun _ => hn _) fun _ => ?_
  exact .bind halts_expression fun _ => hn _

theorem halts_recordLiteral : Halts rank P recordLiteral :=
  .mark fun _ => .enclosed (by decide) halts_recordField fun _ _ => .bind (halts_expectClosing _ _ _)
    fun _ => .delimited

theorem halts_optionalRecord : Halts rank P optionalRecord :=
  halts_whenever (looks_atKind _).halts halts_recordLiteral

theorem takes_tableLiteral : Takes solid tableLiteral :=
  .mark fun _ => .bump fun _ => .bind halts_recordLiteral fun _ => .node

/-- Behind a missing bracket an expression may stand at once. -/
theorem halts_intRange : Halts (rank + 2) P intRange := by
  refine .mark fun m => .bind (halts_expectAny _ _) fun opening =>
    .bind (halts_expressionAt _) fun start => .bind (halts_expect _) fun _ =>
    .bind (halts_whenever ?_ (halts_expressionAt _)) fun stop =>
    .bind (halts_expectAny _ _) fun closing => .delimited
  exact .skim (looks_atAny _) fun _ => .ended

end BallerinaSyntax
