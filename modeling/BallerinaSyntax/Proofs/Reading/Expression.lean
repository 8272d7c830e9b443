import BallerinaSyntax.Proofs.Reading.Query
import BallerinaSyntax.Proofs.Reading.Xml
import BallerinaSyntax.Grammar.Expression

/-! The contracts of expressions: of primaries, and of the operators between and behind them. -/

namespace BallerinaSyntax

open Parse Condition Grammar

/-! ## References and calls -/

theorem builds_referenceExpression (m : Mark) (start : Option Leaf) :
    Builds m (pieces start) any (referenceExpression m start) :=
  .bind reads_reference fun _ => .node (fun _ => rfl) (by simp)

theorem builds_actionExpression (m : Mark) (start : Option Leaf) :
    Builds m (pieces start) any (actionExpression m start) :=
  .bind reads_nameReference fun _ => .skipBump fun _ => .bind reads_invocation fun _ =>
    .node (fun _ => rfl) (by simp)

/-- Whether an action on an endpoint stands here. -/
def Scope.isActionInvocation (scope : Scope) (s : State) (ahead : Nat) : Bool :=
  let package := scope.buffer.get (s.position + ahead)
  let colon := scope.buffer.get (s.position + (ahead + 1))
  let name := scope.buffer.get (s.position + (ahead + 2))
  let qualified := package.kind == .identifier && colon.kind == .colonToken &&
    name.kind == .identifier && package.range.stop == colon.range.start &&
    colon.range.stop == name.range.start
  let arrow := ahead + if qualified then 3 else 1
  scope.kindAt s ahead == .identifier && (scope.kindAt s arrow == .rightArrowToken &&
    Operator.isName scope.options.allowAnyIdentifierNames (scope.kindAt s (arrow + 1)) &&
    scope.kindAt s (arrow + 2) == .openParenToken)

theorem looks_isActionInvocation (ahead : Nat) :
    Looks (isActionInvocation ahead) fun scope s => scope.isActionInvocation s ahead := by
  intro r scope s
  unfold isActionInvocation Scope.isActionInvocation
  change (if (scope.kindAt s ahead != .identifier) = true then pure false else _ : Parse Bool)
    r scope s = _
  cases h : scope.kindAt s ahead == .identifier <;> simp only [bne, h] <;> rfl

theorem builds_actionOrReference (m : Mark) (start : Option Leaf) :
    Builds m (pieces start) any (actionOrReference m start) :=
  .look (looks_isActionInvocation 0) fun _ => .ite
    (fun _ => (builds_actionExpression m start).onward (by simp))
    fun _ => (builds_referenceExpression m start).onward (by simp)

theorem builds_startExpression (m : Mark) : Builds m [] solid (startExpression m) :=
  .bump (fun _ _ h => h) fun start => (builds_actionOrReference m start).onward (by simp)

/-! ## Other primaries -/

theorem builds_parenthesizedExpression (m : Mark) : Builds m [] any (parenthesizedExpression m) := by
  refine .skipBump fun opening => .bind reads_expression fun first => .look (looks_atKind _) fun _ =>
    .ite (fun _ => ?_) fun _ => ?_
  · exact .bind (reads_expectClosing _ _ nofun) fun _ => .delimited (fun _ => rfl) (by simp)
  · exact .bind (reads_moreBehind _ reads_expression) fun _ => .bind (reads_expectClosing _ _ nofun)
      fun _ => .delimited (fun _ => rfl) (by simp)

theorem builds_typeConversion (m : Mark) : Builds m [] any (typeConversion m) :=
  .skipBump fun _ => .bind reads_typeName fun _ => .bind (reads_behind _ reads_invocation) fun _ =>
    .skip (reads_expect nofun) fun _ => .bind (reads_expressionAt _) fun _ =>
    .node (fun _ => rfl) (by simp)

theorem builds_unaryExpression (m : Mark) : Builds m [] solid (unaryExpression m) :=
  .bump (fun _ _ h => h) fun _ => .bind (reads_expressionAt _) fun _ => .node (fun _ => rfl) (by simp)

theorem builds_awaitExpression (m : Mark) : Builds m [] any (awaitExpression m) :=
  .skipBump fun _ => .bind (reads_expressionAt _) fun _ => .node (fun _ => rfl) (by simp)

theorem builds_checkExpression (m : Mark) : Builds m [] any (checkExpression m) :=
  .skipBump fun _ => .bind (reads_expressionAt _) fun _ => .node (fun _ => rfl) (by simp)

theorem builds_typeInit (m : Mark) : Builds m [] any (typeInit m) := by
  refine .skipBump fun _ => .look (looks_atKind _) fun _ => ?_
  extract_lets node
  have hn : ∀ type, Builds m (pieces type) any (node type) := fun _ =>
    .bind (reads_whenAt _ reads_argumentList) fun _ => .node (fun _ => rfl) (by simp)
  clear_value node
  refine .ite (fun _ => ?_) fun _ => .give ((hn _).onward (by simp))
  exact .bind reads_userDefinedType fun _ => .give ((hn _).onward (by simp))

theorem builds_lambda (m : Mark) : Builds m [] any (lambda m) :=
  .skipBump fun _ => .bind reads_parameterList fun _ => .bind reads_optionalReturn fun _ =>
    .bind reads_callableBody fun _ => .node (fun _ => rfl) (by simp)

theorem builds_typeAccess (m : Mark) : Builds m [] any (typeAccess m) :=
  .bind (reads_typeNameAt _) fun _ => .node (fun _ => rfl) (by simp)

theorem looks_startsLiteral :
    Looks startsLiteral fun scope s =>
      startsSimpleLiteral (scope.kindAt s 0) ||
        (scope.kindAt s 0 == .minusToken && isNumber (scope.kindAt s 1)) ||
        (scope.kindAt s 0 == .openParenToken && scope.kindAt s 1 == .closeParenToken) :=
  fun _ _ _ => rfl

theorem builds_keywordExpression (m : Mark) : Builds m [] any (keywordExpression m) := by
  refine .look (looks_kind 0) fun k => .look (looks_isKind _ _) fun opening => .ite
    (fun _ => reads_tableLiteral _ _) fun _ => .look looks_isCall fun call => .ite (fun _ => ?_) fun _ =>
    .ite (fun hk => ?_) fun _ => .ite (fun _ => ?_) fun _ => ?_
  · exact (builds_referenceExpression m none).onward (by simp)
  · refine (builds_startExpression m).weaken fun scope s hs he => ?_
    simp_all
  · exact (builds_typeAccess m).onward (by simp)
  · refine .complain (reads_errorExpected _) (complains_errorExpected _) fun _ => ?_
    exact (builds_placeholder m _).andThen fun _ => .done (.refl _)

@[simp] theorem pieces_literal (t : Literal) : pieces (Tree.literal t) = pieces t := rfl

@[simp] theorem pieces_record (t : Tree .recordLiteral) : pieces (Tree.record t) = pieces t := rfl

theorem reads_primaryExpression : Reads primaryExpression := by
  refine .marked fun m => .look looks_startsLiteral fun _ => .ite (fun _ => ?_) fun _ =>
    .look (looks_kind 0) fun k => ?_
  · exact .bind reads_simpleLiteral fun _ => .done (by simp)
  have unary : k ≠ .endOfFileToken → ∀ P : Condition,
      Builds m [] (fun scope s => P scope s ∧ scope.kindAt s 0 = k) (unaryExpression m) := fun hk P =>
    (builds_unaryExpression m).weaken fun _ _ h => solid_of_kind hk h
  split
  · exact (builds_actionOrReference m none).onward (by simp)
  · exact (builds_parenthesizedExpression m).onward (by simp)
  · exact reads_arrayLiteral _ _
  · exact .bind reads_recordLiteral fun _ => .done (by simp)
  · exact reads_xmlLiteral _ _
  · exact reads_stringTemplate _ _
  · exact (builds_typeConversion m).onward (by simp)
  · exact unary (by simp) _
  · exact unary (by simp) _
  · exact unary (by simp) _
  · exact unary (by simp) _
  · exact unary (by simp) _
  · exact (builds_awaitExpression m).onward (by simp)
  · exact (builds_checkExpression m).onward (by simp)
  · exact (builds_typeInit m).onward (by simp)
  · exact (builds_lambda m).onward (by simp)
  · exact reads_tableQuery _ _
  · exact (builds_keywordExpression m).onward (by simp)

/-! ## Operators -/

/-- The operator of expressions at the current token. -/
def Scope.expressionOperator? (scope : Scope) (s : State) : Option Operator :=
  if scope.kindAt s 0 == .butKeyword && !(scope.kindAt s 1 == .openBraceToken) then none
  else Operator.expression? (scope.kindAt s 0)

theorem looks_expressionOperator? : Looks expressionOperator? Scope.expressionOperator? := by
  intro r scope s
  unfold expressionOperator? Scope.expressionOperator?
  change (if (scope.kindAt s 0 == .butKeyword && !(scope.kindAt s 1 == .openBraceToken)) = true then
    pure none else _ : Parse (Option Operator)) r scope s = _
  split <;> rfl

theorem reads_matchArm : Reads matchArm :=
  .marked fun _ => .bind reads_typeName fun _ => .bind reads_optionalIdentifier fun _ =>
    .skip (reads_expect nofun) fun _ => .bind reads_expression fun _ => .node (fun _ => rfl) (by simp)

theorem builds_matchExpression (m : Mark) (subject : Expression) :
    Builds m (pieces subject) any (matchExpression m subject) :=
  .skipBump fun _ => .skipBump fun _ => .bind (reads_listUntil _ reads_matchArm) fun _ =>
    .bind (reads_expectClosing _ _ nofun) fun _ => .delimited (fun _ => rfl) (by simp)

theorem reads_rightOperand (op : Operator) : Reads (rightOperand op) := .call _

theorem builds_ternaryExpression (m : Mark) (condition : Expression) (op : Operator) :
    Builds m (pieces condition) any (ternaryExpression m condition op) :=
  .skipBump fun _ => .bind reads_expression fun _ => .skip (reads_expect nofun) fun _ =>
    .bind (reads_rightOperand op) fun _ => .node (fun _ => rfl) (by simp)

theorem builds_infixExpression (m : Mark) (left : Expression) (op : Operator) :
    Builds m (pieces left) solid (infixExpression m left op) := by
  refine .bump (fun _ _ h => h) fun operator => .bind (reads_rightOperand op) fun right =>
    ?_
  refine .node (fun info =>
    show parts _ = Parts.node info (left.parts ++ parts operator ++ right.parts) from ?_) (by simp)
  split <;> rfl

theorem builds_applyExpression (m : Mark) (left : Expression) (op : Operator) :
    Builds m (pieces left) solid (applyExpression m left op) := by
  unfold applyExpression
  split
  · exact (builds_matchExpression m left).onward (by simp)
  · exact (builds_ternaryExpression m left op).onward (by simp)
  · exact builds_infixExpression m left op

theorem sound_expressionRule : OperatorRule.Sound expressionRule Scope.expressionOperator? where
  primary := reads_primaryExpression
  operator? := looks_expressionOperator?
  solid scope s op h he := by rw [Scope.expressionOperator?, he] at h; cases h
  apply := builds_applyExpression

end BallerinaSyntax
