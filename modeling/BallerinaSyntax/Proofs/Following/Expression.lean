import BallerinaSyntax.Proofs.Following.Query
import BallerinaSyntax.Proofs.Following.Xml
import BallerinaSyntax.Grammar.Expression

/-! Expressions in two units that look alike. -/

namespace BallerinaSyntax

open Grammar Parse

variable {L : Likeness}

/-! ## References and calls -/

section

variable (m : Twins L Mark) (start : Twins L (Option Leaf))

theorem follows_referenceExpression :
    Follows L (referenceExpression m.first start.first) (referenceExpression m.second start.second) :=
  .bind (.call _) fun target => .node fun info =>
    congr(Tree.variable $(info.alike) $(start.alike) $(target.alike))

theorem follows_actionExpression :
    Follows L (actionExpression m.first start.first) (actionExpression m.second start.second) :=
  .bind follows_nameReference fun endpoint => .bind follows_bump fun _ =>
    .bind follows_invocation fun call => .node fun info =>
      congr(Tree.action $(info.alike) $(start.alike) $(endpoint.alike) $(call.alike))

theorem follows_actionOrReference :
    Follows L (actionOrReference m.first start.first) (actionOrReference m.second start.second) :=
  .see (sees_isActionInvocation _) fun _ =>
    .ite (follows_actionExpression m start) (follows_referenceExpression m start)

end

section

variable (m : Twins L Mark)

theorem follows_startExpression :
    Follows L (startExpression m.first) (startExpression m.second) :=
  .bind follows_bump fun start => follows_actionOrReference m start.some

/-! ## Other primaries -/

theorem follows_parenthesizedExpression :
    Follows L (parenthesizedExpression m.first) (parenthesizedExpression m.second) := by
  refine .bind follows_bump fun opening => .bind (.call _) fun first => .see (sees_atKind _) fun _ =>
    .ite ?_ ?_
  · exact .bind (follows_expectClosing opening _ _) fun _ => .delimited fun info =>
      congr(Tree.braced $(info.alike) $(first.alike))
  · exact .bind (follows_moreBehind _ (.call _)) fun rest =>
      .bind (follows_expectClosing opening _ _) fun _ => .delimited fun info =>
        congr(Tree.tuple $(info.alike) $((first.cons rest).ofList.alike))

theorem follows_typeConversion : Follows L (typeConversion m.first) (typeConversion m.second) :=
  .bind follows_bump fun _ => .bind (.call _) fun type =>
    .bind (follows_behind _ follows_invocation) fun conversion => .bind (follows_expect _) fun _ =>
      .bind (.call _) fun operand => .node fun info => congr(Tree.typeConversion $(info.alike)
        $(type.alike) $(conversion.alike) $(operand.alike))

theorem follows_unaryExpression : Follows L (unaryExpression m.first) (unaryExpression m.second) :=
  .bind follows_bump fun operator => .bind (.call _) fun operand => .node fun info =>
    congr(Tree.unary $(info.alike) $(operator.alike) $(operand.alike))

theorem follows_awaitExpression : Follows L (awaitExpression m.first) (awaitExpression m.second) :=
  .bind follows_bump fun _ => .bind (.call _) fun operand => .node fun info =>
    congr(Tree.await $(info.alike) $(operand.alike))

theorem follows_checkExpression : Follows L (checkExpression m.first) (checkExpression m.second) :=
  .bind follows_bump fun _ => .bind (.call _) fun operand => .node fun info =>
    congr(Tree.check $(info.alike) $(operand.alike))

theorem follows_typeInit : Follows L (typeInit m.first) (typeInit m.second) := by
  refine .bind follows_bump fun _ => .see (sees_atKind _) fun _ => ?_
  extract_lets node node'
  have hn : ∀ type : Twins L (Option UserDefinedType),
      Follows L (node type.first) (node' type.second) := fun type =>
    .bind (follows_whenever (sees_atKind _).follows follows_argumentList) fun arguments =>
      .node fun info => congr(Tree.typeInit $(info.alike) $(type.alike) $(arguments.alike))
  clear_value node node'
  exact .ite (.bind follows_userDefinedType fun type => hn type.some) (hn .none)

theorem follows_lambda : Follows L (lambda m.first) (lambda m.second) :=
  .bind follows_bump fun _ => .bind follows_parameterList fun parameters =>
    .bind follows_optionalReturn fun returns => .bind (.call _) fun body => .node fun info =>
      congr(Tree.lambda $(info.alike) $(parameters.alike) $(returns.alike) $(body.alike))

theorem follows_typeAccess : Follows L (typeAccess m.first) (typeAccess m.second) :=
  .bind (.call _) fun type => .node fun info => congr(Tree.typeAccess $(info.alike) $(type.alike))

theorem follows_keywordExpression :
    Follows L (keywordExpression m.first) (keywordExpression m.second) :=
  .see (sees_kind 0) fun _ => .see (sees_isKind _ _) fun _ => .ite follows_tableLiteral <|
    .see sees_isCall fun _ => .ite (follows_referenceExpression m .none) <|
      .ite (follows_startExpression m) <| .ite (follows_typeAccess m) <|
        .bind (follows_errorExpected _) fun _ => .placeholder fun info =>
          congr(Tree.missingExpression $(info.alike))

end

theorem sees_startsLiteral : Sees L startsLiteral :=
  .bind (sees_kind _) fun _ => .bind (sees_kind _) fun _ => .done _

theorem follows_primaryExpression : Follows L primaryExpression primaryExpression := by
  refine .bind follows_mark fun m => .see sees_startsLiteral fun _ => .ite ?_ <|
    .see (sees_kind 0) fun k => ?_
  · exact .bind follows_simpleLiteral fun value => .done congr(Tree.literal $(value.alike))
  split
  · exact follows_actionOrReference m .none
  · exact follows_parenthesizedExpression m
  · exact follows_arrayLiteral
  · exact .bind follows_recordLiteral fun record => .done congr(Tree.record $(record.alike))
  · exact follows_xmlLiteral
  · exact follows_stringTemplate
  · exact follows_typeConversion m
  case h_8 | h_9 | h_10 | h_11 | h_12 => exact follows_unaryExpression m
  · exact follows_awaitExpression m
  · exact follows_checkExpression m
  · exact follows_typeInit m
  · exact follows_lambda m
  · exact follows_tableQuery
  · exact follows_keywordExpression m

/-! ## Operators -/

theorem sees_expressionOperator : Sees L expressionOperator? := by
  refine .bind (sees_kind _) fun _ => .bind (sees_isKind _ _) fun _ => ?_
  split
  · exact .done _
  · exact .done _

theorem follows_matchArm : Follows L matchArm matchArm :=
  .bind follows_mark fun _ => .bind (.call _) fun type => .bind follows_optionalIdentifier fun binding =>
    .bind (follows_expect _) fun _ => .bind (.call _) fun value => .node fun info =>
      congr(Tree.matchArm $(info.alike) $(type.alike) $(binding.alike) $(value.alike))

section

variable (m : Twins L Mark) (left : Twins L Expression) (op : Operator)

theorem follows_matchExpression :
    Follows L (matchExpression m.first left.first) (matchExpression m.second left.second) :=
  .bind follows_bump fun _ => .bind follows_bump fun opening =>
    .bind (follows_listUntil _ follows_matchArm) fun arms =>
      .bind (follows_expectClosing opening _ _) fun _ => .delimited fun info =>
        congr(Tree.matching $(info.alike) $(left.alike) $(arms.ofList.alike))

theorem follows_ternaryExpression :
    Follows L (ternaryExpression m.first left.first op) (ternaryExpression m.second left.second op) :=
  .bind follows_bump fun _ => .bind (.call _) fun yes => .bind (follows_expect _) fun _ =>
    .bind (.call _) fun no => .node fun info =>
      congr(Tree.ternary $(info.alike) $(left.alike) $(yes.alike) $(no.alike))

theorem follows_infixExpression :
    Follows L (infixExpression m.first left.first op) (infixExpression m.second left.second op) := by
  refine .bind follows_bump fun operator => .bind (.call _) fun right => .node fun info => ?_
  split
  · exact congr(Tree.range $(info.alike) $(left.alike) $(operator.alike) $(right.alike))
  · exact congr(Tree.elvis $(info.alike) $(left.alike) $(operator.alike) $(right.alike))
  · exact congr(Tree.binary $(info.alike) $(left.alike) $(operator.alike) $(right.alike))

theorem follows_applyExpression :
    Follows L (applyExpression m.first left.first op) (applyExpression m.second left.second op) := by
  unfold applyExpression
  split
  · exact follows_matchExpression m left
  · exact follows_ternaryExpression m left op
  · exact follows_infixExpression m left op

end

theorem following_expressionRule : OperatorRule.Following L expressionRule where
  primary := follows_primaryExpression
  operator? := sees_expressionOperator
  apply := follows_applyExpression

end BallerinaSyntax
