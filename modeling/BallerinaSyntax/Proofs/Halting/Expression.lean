import BallerinaSyntax.Proofs.Halting.Query
import BallerinaSyntax.Proofs.Halting.Xml
import BallerinaSyntax.Proofs.Reading.Expression

/-! Expressions come to an end: primaries, and the operators between and behind them. -/

namespace BallerinaSyntax

open Grammar Parse
open Condition (any solid past onward turned)

variable {rank : Nat} {P : Condition}

/-! ## References and calls -/

theorem halts_referenceExpression (m : Mark) (start : Option Leaf) :
    Halts (rank + 1) P (referenceExpression m start) :=
  .bind halts_reference fun _ => .node

theorem halts_actionExpression (m : Mark) (start : Option Leaf) :
    Halts rank P (actionExpression m start) :=
  .bind halts_nameReference fun _ => .bind halts_bump fun _ => .bind halts_invocation fun _ => .node

theorem halts_actionOrReference (m : Mark) (start : Option Leaf) :
    Halts (rank + 1) P (actionOrReference m start) :=
  .skim (looks_isActionInvocation 0) fun _ => .ite (fun _ => halts_actionExpression m start)
    fun _ => halts_referenceExpression m start

theorem takes_startExpression (m : Mark) : Takes solid (startExpression m) :=
  .bump fun _ => halts_actionOrReference m _

/-! ## Other primaries -/

theorem takes_parenthesizedExpression (m : Mark) : Takes solid (parenthesizedExpression m) := by
  refine .bump fun opening => .bind halts_expression fun first => .skim (looks_atKind _) fun _ =>
    .ite (fun _ => ?_) fun _ => ?_
  · exact .bind (halts_expectClosing _ _ _) fun _ => .delimited
  · exact .bind (halts_moreBehind nofun halts_expression) fun _ =>
      .bind (halts_expectClosing _ _ _) fun _ => .delimited

theorem takes_typeConversion (m : Mark) : Takes solid (typeConversion m) :=
  .bump fun _ => .bind halts_typeName fun _ => .bind (halts_behind nofun halts_invocation)
    fun _ => .bind (halts_expect _) fun _ => .bind (halts_expressionAt _) fun _ => .node

theorem takes_unaryExpression (m : Mark) : Takes solid (unaryExpression m) :=
  .bump fun _ => .bind (halts_expressionAt _) fun _ => .node

theorem takes_awaitExpression (m : Mark) : Takes solid (awaitExpression m) :=
  .bump fun _ => .bind (halts_expressionAt _) fun _ => .node

theorem takes_checkExpression (m : Mark) : Takes solid (checkExpression m) :=
  .bump fun _ => .bind (halts_expressionAt _) fun _ => .node

theorem takes_typeInit (m : Mark) : Takes solid (typeInit m) := by
  refine .bump fun _ => .skim (looks_atKind _) fun _ => ?_
  extract_lets node
  have hn : ∀ type, Halts 3 any (node type) := fun _ =>
    .bind (halts_whenever (looks_atKind _).halts halts_argumentList) fun _ => .node
  clear_value node
  exact .ite (fun _ => .bind halts_userDefinedType fun _ => hn _) fun _ => hn _

theorem takes_lambda (m : Mark) : Takes solid (lambda m) :=
  .bump fun _ => .bind halts_parameterList fun _ => .bind halts_optionalReturn fun _ =>
    .bind halts_callableBody fun _ => .node

theorem halts_typeAccess (m : Mark) : Halts (rank + 1) P (typeAccess m) :=
  .bind (halts_typeNameAt _) fun _ => .node

/-- A reference or a type stands at the place of the expression; they have a lower rank. -/
theorem halts_keywordExpression (m : Mark) : Halts 1 P (keywordExpression m) := by
  refine .look (looks_kind 0) fun k => .skim (looks_isKind _ _) fun _ => .ite (fun h => ?_)
    fun _ => .skim looks_isCall fun _ => .ite (fun _ => halts_referenceExpression m none)
    fun _ => .ite (fun hk => ?_) fun _ => .ite (fun _ => halts_typeAccess m) fun _ => ?_
  · have hk := beq_iff_eq.mp (Bool.and_eq_true_iff.mp h).1
    exact takes_tableLiteral.halts fun _ _ hs => solid_of_eq (hs.2.trans hk) (by decide)
  · exact (takes_startExpression m).halts fun _ _ hs =>
      solid_of_eq (hs.2.trans (beq_iff_eq.mp hk)) (by decide)
  · exact .bind (halts_errorExpected _) fun _ => .bind (halts_placeholder _) fun _ => .ended

theorem halts_primaryExpression : Halts 1 P primaryExpression := by
  refine .mark fun m => .skim looks_startsLiteral fun _ => .ite (fun _ => ?_) fun _ =>
    .look (looks_kind 0) fun k => ?_
  · exact .bind halts_simpleLiteral fun _ => .ended
  have take : ∀ {p : Parse Expression}, Takes solid p → k ≠ .endOfFileToken →
      Halts 1 (fun scope s => P scope s ∧ scope.kindAt s 0 = k) p := fun hp hk =>
    hp.halts fun _ _ h => solid_of_eq h.2 hk
  split
  · exact halts_actionOrReference m none
  · exact take (takes_parenthesizedExpression m) (by decide)
  · exact take takes_arrayLiteral (by decide)
  · exact .bind halts_recordLiteral fun _ => .ended
  · exact take takes_xmlLiteral (by decide)
  · exact take takes_stringTemplate (by decide)
  · exact take (takes_typeConversion m) (by decide)
  · exact take (takes_unaryExpression m) (by decide)
  · exact take (takes_unaryExpression m) (by decide)
  · exact take (takes_unaryExpression m) (by decide)
  · exact take (takes_unaryExpression m) (by decide)
  · exact take (takes_unaryExpression m) (by decide)
  · exact take (takes_awaitExpression m) (by decide)
  · exact take (takes_checkExpression m) (by decide)
  · exact take (takes_typeInit m) (by decide)
  · exact take (takes_lambda m) (by decide)
  · exact take takes_tableQuery (by decide)
  · exact halts_keywordExpression m

/-! ## Operators -/

theorem halts_matchArm : Halts 3 P matchArm :=
  .mark fun _ => .bind halts_typeName fun _ => .bind halts_optionalIdentifier fun _ =>
    .bind (halts_expect _) fun _ => .bind halts_expression fun _ => .node

theorem takes_matchExpression (m : Mark) (subject : Expression) :
    Takes solid (matchExpression m subject) :=
  .bump fun _ => .bind halts_bump fun _ => .bind (halts_listUntil _ halts_matchArm) fun _ =>
    .bind (halts_expectClosing _ _ _) fun _ => .delimited

theorem halts_rightOperand (op : Operator) : Halts 3 P (rightOperand op) := .call (by simp [Goal.rank])

theorem takes_ternaryExpression (m : Mark) (condition : Expression) (op : Operator) :
    Takes solid (ternaryExpression m condition op) :=
  .bump fun _ => .bind halts_expression fun _ => .bind (halts_expect _) fun _ =>
    .bind (halts_rightOperand op) fun _ => .node

theorem takes_infixExpression (m : Mark) (left : Expression) (op : Operator) :
    Takes solid (infixExpression m left op) :=
  .bump fun _ => .bind (halts_rightOperand op) fun _ => .node

theorem takes_applyExpression (m : Mark) (left : Expression) (op : Operator) :
    Takes solid (applyExpression m left op) := by
  unfold applyExpression
  split
  · exact takes_matchExpression m left
  · exact takes_ternaryExpression m left op
  · exact takes_infixExpression m left op

theorem halting_expressionRule : OperatorRule.Halting expressionRule Scope.expressionOperator? 1 where
  primary := halts_primaryExpression
  operator? := looks_expressionOperator?
  apply m left op := (takes_applyExpression m left op).weaken fun _ _ h =>
    sound_expressionRule.solid h.2

end BallerinaSyntax
