import BallerinaSyntax.Proofs.Grouping.Query
import BallerinaSyntax.Proofs.Grouping.TypeName
import BallerinaSyntax.Proofs.Grouping.Xml

/-!
Expressions are well grouped. The right operand of an operator stops before an operator that binds
less tightly, and that is the one to be applied next; so what is applied next may have on its left
what was just built.
-/

namespace BallerinaSyntax

open Condition Grammar Parse

/-! ## Primaries -/

/-- What follows an operand that binds as tightly as `power`. -/
theorem Gives.operand {β : Type} {P : Condition} {power : ExpressionPower} {k : Expression → Parse β}
    {R : β → Condition}
    (h : ∀ e, wellGrouped e → e.AtLeast power.toNat → Gives any (k e) R) :
    Gives P (expressionAt power >>= k) R :=
  .bind .call fun e => .of (fun _ _ he => ⟨he.1, he.2.1⟩) fun (he : wellGrouped e ∧ e.AtLeast power.toNat) =>
    (h e he.1 he.2).weaken (fun _ _ _ => trivial) fun _ _ _ hr => hr

section Primaries

variable (m : Mark)

theorem gives_referenceExpression (start : Option Leaf) :
    Gives any (referenceExpression m start) unapplied :=
  .after yields_reference fun _ hr => .skip fun _ => .done fun _ _ _ => ⟨⟨trivial, hr⟩, rfl⟩

theorem gives_actionExpression (start : Option Leaf) :
    Gives any (actionExpression m start) unapplied :=
  .skip fun _ => .skip fun _ => .after yields_invocation fun _ hc => .skip fun _ =>
    .done fun _ _ _ => ⟨⟨trivial, hc⟩, rfl⟩

theorem gives_actionOrReference (start : Option Leaf) :
    Gives any (actionOrReference m start) unapplied :=
  .skip fun _ => .ite (fun _ => gives_actionExpression m start) fun _ =>
    gives_referenceExpression m start

theorem gives_startExpression : Gives any (startExpression m) unapplied :=
  .skip fun _ => gives_actionOrReference m _

theorem gives_parenthesizedExpression : Gives any (parenthesizedExpression m) unapplied := by
  refine .skip fun opening => .after yields_expression fun first hfirst => ?_
  refine .skip fun comma => .ite ?braced ?tuple
  case braced =>
    exact fun _ => .skip fun close => .skip fun info => .done fun _ _ _ => ⟨⟨trivial, hfirst⟩, rfl⟩
  case tuple =>
    refine fun _ => .after (yields_moreBehind yields_expression) fun rest hrest => ?_
    refine .skip fun close => .skip fun info => .done fun _ _ _ => ⟨⟨trivial, ?_⟩, rfl⟩
    exact wellGrouped_ofList ((wellGrouped_cons first rest).mpr ⟨hfirst, hrest⟩)

theorem gives_typeConversion : Gives any (typeConversion m) unapplied := by
  refine .skip fun opening => .after yields_typeName fun type htype => ?_
  refine .after (yields_behind yields_invocation) fun conversion hconversion => .skip fun close => ?_
  refine .operand fun operand hoperand hpower => .skip fun info => .done fun _ _ _ => ?_
  have hunapplied := Tree.isOperation_eq_false hoperand hpower
  exact ⟨⟨hunapplied, htype, hconversion, hoperand⟩, rfl⟩

theorem gives_unaryExpression : Gives any (unaryExpression m) unapplied := by
  refine .skip fun operator => .operand fun operand hoperand hpower => ?_
  have hunapplied := Tree.isOperation_eq_false hoperand hpower
  exact .skip fun info => .done fun _ _ _ => ⟨⟨hunapplied, hoperand⟩, rfl⟩

theorem gives_awaitExpression : Gives any (awaitExpression m) unapplied := by
  refine .skip fun keyword => .operand fun operand hoperand hpower => ?_
  have hunapplied := Tree.isOperation_eq_false hoperand hpower
  exact .skip fun info => .done fun _ _ _ => ⟨⟨hunapplied, hoperand⟩, rfl⟩

theorem gives_checkExpression : Gives any (checkExpression m) unapplied := by
  refine .skip fun keyword => .operand fun operand hoperand hpower => ?_
  have helvis := Tree.isElvis_of_atLeast hoperand hpower (by decide)
  exact .skip fun info => .done fun _ _ _ => ⟨⟨helvis, hoperand⟩, rfl⟩

theorem gives_typeInit : Gives any (typeInit m) unapplied := by
  refine .skip fun _ => .skip fun _ => ?_
  extract_lets node
  have hn : ∀ type, Gives any (node type) unapplied := fun _ =>
    .after (yields_whenever yields_argumentList) fun _ has => .skip fun _ => .done fun _ _ _ =>
      ⟨⟨trivial, has⟩, rfl⟩
  clear_value node
  exact .ite (fun _ => .skip fun _ => hn _) fun _ => hn _

theorem gives_lambda : Gives any (lambda m) unapplied := by
  refine .skip fun keyword => .after yields_parameterList fun parameters hparameters => ?_
  refine .after yields_optionalReturn fun returns hreturns => ?_
  refine .after yields_callableBody fun body hbody => ?_
  exact .skip fun info => .done fun _ _ _ => ⟨⟨trivial, hparameters, hreturns, hbody⟩, rfl⟩

theorem gives_typeAccess : Gives any (typeAccess m) unapplied :=
  .after (yields_typeNameAt _) fun _ ht => .skip fun _ => .done fun _ _ _ => ⟨⟨trivial, ht⟩, rfl⟩

theorem gives_keywordExpression : Gives any (keywordExpression m) unapplied := by
  refine .skip fun k => .skip fun braced => .ite (fun _ => gives_tableLiteral) fun _ => ?_
  refine .skip fun called => .ite (fun _ => gives_referenceExpression m none) fun _ => ?_
  refine .ite (fun _ => gives_startExpression m) fun _ => ?_
  refine .ite (fun _ => gives_typeAccess m) fun _ => .skip fun reported => ?_
  exact .skip fun info => .done fun _ _ _ => ⟨⟨trivial, trivial⟩, rfl⟩

theorem gives_primaryExpression : Gives any primaryExpression unapplied := by
  refine .skip fun m => .skip fun _ => .ite
    (fun _ => .skip fun _ => .done fun _ _ _ => ⟨⟨trivial, trivial⟩, rfl⟩) fun _ => .skip fun k => ?_
  split
  · exact gives_actionOrReference m none
  · exact gives_parenthesizedExpression m
  · exact gives_arrayLiteral
  · exact .after yields_recordLiteral fun _ hr => .done fun _ _ _ => ⟨⟨trivial, hr⟩, rfl⟩
  · exact gives_xmlLiteral
  · exact gives_stringTemplate
  · exact gives_typeConversion m
  · exact gives_unaryExpression m
  · exact gives_unaryExpression m
  · exact gives_unaryExpression m
  · exact gives_unaryExpression m
  · exact gives_unaryExpression m
  · exact gives_awaitExpression m
  · exact gives_checkExpression m
  · exact gives_typeInit m
  · exact gives_lambda m
  · exact gives_tableQuery
  · exact gives_keywordExpression m

end Primaries

/-! ## Operators -/

theorem yields_matchArm : Yields matchArm := by
  refine .skip fun m => .bind yields_typeName fun type htype => ?_
  refine .skip fun binding => .skip fun arrow => .bind yields_expression fun value hvalue => ?_
  exact .skip fun info => .done ⟨trivial, htype, hvalue⟩

/-- An expression that has been read with operators of at least this power. -/
def Tree.Applied (e : Expression) (power : Nat) : Prop := wellGrouped e ∧ e.AtLeast power

/-- An operator of expressions is the one of the token that it stands at. -/
theorem Scope.expression_of_expressionOperator {scope : Scope} {s : State} {op : Operator}
    (h : scope.expressionOperator? s = some op) :
    Operator.expression? (scope.kindAt s 0) = some op := by
  unfold Scope.expressionOperator? at h
  split at h
  · cases h
  · exact h

theorem Tree.applied_of_rootPower? {e : Expression} {op : Operator} {power : Nat} (hg : wellGrouped e)
    (he : e.rootPower? = some op.power) (hp : power ≤ op.power) : e.Applied power := by
  refine ⟨hg, fun p h => ?_⟩
  rw [he] at h
  cases h
  exact hp

/-- What the right operand of an operator stops before may have that operation on its left. -/
theorem ready_of_rightOperand {e : Expression} {k : Kind} {op : Operator} {scope : Scope} {s : State}
    (ho : Operator.expression? k = some op) (he : e.infixPower? = some op.power)
    (h : below Scope.expressionOperator? op.rightPower scope s) :
    ready Scope.expressionOperator? Tree.Admits e scope s := by
  refine h.imp_right fun hlt next hnext p hp => ?_
  rw [he] at hp
  cases hp
  exact Operator.power_le_of_left ho (Scope.expression_of_expressionOperator hnext) (hlt next hnext)

section Operators

variable {m : Mark} {left : Expression} {op : Operator} {power : Nat} {k : Kind}
  (hl : left.Applied power) (ha : left.Admits op) (hp : power ≤ op.power)
include hl ha hp

theorem gives_matchExpression (ho : Operator.expression? k = some op)
    (hn : op.node = .matchExpression) :
    Gives any (matchExpression m left) fun e scope s =>
      e.Applied power ∧ ready Scope.expressionOperator? Tree.Admits e scope s := by
  have hpower := Operator.power_of_matching ho hn
  refine .skip fun _ => .skip fun _ => .after (yields_listUntil yields_matchArm) fun _ hms =>
    .skip fun _ => .skip fun _ => .done fun _ _ _ => ⟨?_, .inr fun _ _ _ h => by cases h⟩
  have helvis := Tree.isElvis_of_admits hl.1 ha (by rw [hpower]; decide)
  exact Tree.applied_of_rootPower? ⟨helvis, hl.1, wellGrouped_ofList hms⟩ congr(some $(hpower.symm)) hp

theorem gives_ternaryExpression (ho : Operator.expression? k = some op)
    (hn : op.node = .ternaryExpression) :
    Gives any (ternaryExpression m left op) fun e scope s =>
      e.Applied power ∧ ready Scope.expressionOperator? Tree.Admits e scope s := by
  have hpower := Operator.power_of_ternary ho hn
  have hright := (Operator.right_iff ho).mpr (.inl hpower)
  have hrightPower : op.rightPower = ExpressionPower.ternary.toNat := by
    rw [Operator.rightPower, hright]
    exact hpower
  refine .skip fun _ => .after yields_expression fun yes hy => .skip fun _ => .bind .call fun no =>
    .node fun info => .done fun scope s hno => ?_
  have hroot : (Tree.ternary info left yes no).infixPower? = some op.power := congr(some $(hpower.symm))
  refine ⟨Tree.applied_of_rootPower? ⟨⟨⟨?_, ?_⟩, ?_, ?_⟩, hl.1, hy, hno.1⟩ hroot hp,
    ready_of_rightOperand ho hroot hno.2.2⟩
  · exact Tree.isTernary_of_admits ha hpower hright
  · exact Tree.isElvis_of_admits hl.1 ha (by rw [hpower]; decide)
  · exact Tree.isElvis_of_atLeast hno.1 hno.2.1 (by rw [hrightPower]; decide)
  · exact Tree.isMatching_of_atLeast hno.2.1 (by rw [hrightPower]; decide)

theorem gives_infixExpression
    (hn : op.node ∈ [Kind.binaryExpression, .integerRangeExpression, .elvisExpression]) :
    Gives (fun scope s => Operator.expression? (scope.kindAt s 0) = some op)
      (infixExpression m left op) fun e scope s =>
        e.Applied power ∧ ready Scope.expressionOperator? Tree.Admits e scope s := by
  refine .bind (Q := fun operator _ _ => Operator.expression? operator.kind = some op) ?_
    fun operator => .of (fun _ _ ho => ho) fun ho => .bind .call fun right => .node fun info =>
      .done fun scope s hr => ?_
  · intro r scope s a t _ ho he
    rw [bump_eq] at he
    cases he
    exact ho
  have hroot : (Operator.expression? operator.kind).map Operator.power = some op.power := by
    rw [ho]
    rfl
  have hready : ∀ {e : Expression}, e.infixPower? = some op.power →
      ready Scope.expressionOperator? Tree.Admits e scope s :=
    fun he => ready_of_rightOperand ho he hr.2.2
  simp only [List.mem_cons, List.not_mem_nil, or_false] at hn
  rcases hn with hn | hn | hn <;> rw [hn]
  · exact ⟨Tree.applied_of_rootPower? ⟨⟨op, ho, hn, ha, hr.2.1⟩, hl.1, hr.1⟩ hroot hp, hready hroot⟩
  · exact ⟨Tree.applied_of_rootPower? ⟨⟨op, ho, hn, ha, hr.2.1⟩, hl.1, hr.1⟩ hroot hp, hready hroot⟩
  · exact ⟨Tree.applied_of_rootPower? ⟨⟨op, ho, hn, ha, hr.2.1⟩, hl.1, hr.1⟩ hroot hp, hready hroot⟩

end Operators

theorem applyExpression_eq (m : Mark) (left : Expression) {op : Operator}
    (hn : op.node ∈ [Kind.binaryExpression, .integerRangeExpression, .elvisExpression]) :
    applyExpression m left op = infixExpression m left op := by
  simp only [List.mem_cons, List.not_mem_nil, or_false] at hn
  rcases hn with hn | hn | hn <;> rw [applyExpression, hn]

theorem groups_expressionRule :
    OperatorRule.Groups expressionRule Scope.expressionOperator? Tree.Applied Tree.Admits where
  primary := gives_primaryExpression.weaken (fun _ _ h => h) fun e _ _ he => by
    have hroot := Tree.rootPower?_eq_none he.2
    refine ⟨fun _ => ⟨he.1, fun p hp => ?_⟩, .inr fun op _ p hp => ?_⟩
    · rw [hroot] at hp
      cases hp
    · rw [Tree.rootPower?_of_infixPower? hp] at hroot
      cases hroot
  operator? := looks_expressionOperator?
  apply {m left op power} hl ha hp := by
    refine .of (fun scope s hs => ⟨_, Scope.expression_of_expressionOperator hs.1⟩)
      fun (ho : ∃ k, Operator.expression? k = some op) => ?_
    obtain ⟨k, ho⟩ := ho
    change Gives _ (applyExpression m left op) _
    rcases Operator.node_cases ho with hn | hn | hn
    · rw [applyExpression_eq m left hn]
      exact (gives_infixExpression hl ha hp hn).weaken
        (fun _ _ hs => Scope.expression_of_expressionOperator hs.1) fun _ _ _ h => h
    · rw [applyExpression, hn]
      exact (gives_matchExpression hl ha hp ho hn).weaken (fun _ _ _ => trivial) fun _ _ _ h => h
    · rw [applyExpression, hn]
      exact (gives_ternaryExpression hl ha hp ho hn).weaken (fun _ _ _ => trivial) fun _ _ _ h => h

end BallerinaSyntax
