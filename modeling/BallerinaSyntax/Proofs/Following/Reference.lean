import BallerinaSyntax.Proofs.Following.Literal
import BallerinaSyntax.Grammar.Reference

/-! References in two units that look alike, and precedence climbing in general. -/

namespace BallerinaSyntax

open Grammar Parse

variable {L : Likeness}

/-! ## Climbing -/

/-- A rule that reads the same in both units. -/
structure OperatorRule.Following {c : Category} (L : Likeness) (rule : OperatorRule c) : Prop where
  primary : Follows L rule.primary rule.primary
  operator? : Sees L rule.operator?
  apply : ∀ (m : Twins L Mark) (left : Twins L (Tree c)) (op : Operator),
    Follows L (rule.apply m.first left.first op) (rule.apply m.second left.second op)

theorem follows_climb {c : Category} {rule : OperatorRule c}
    (h : OperatorRule.Following L rule) (power : Nat) :
    Follows L (climb rule power) (climb rule power) := by
  refine .bind follows_mark fun m => .bind h.primary fun first => .loop first.alike fun left => ?_
  refine .see sees_isUnwinding fun _ => .ite (.done congr(Turn.stop $(left.alike))) ?_
  refine .see h.operator? fun op? => ?_
  cases op? with
  | none => exact .done congr(Turn.stop $(left.alike))
  | some op =>
    exact .ite (.done congr(Turn.stop $(left.alike))) <| .bind (h.apply m left op) fun next =>
      .done congr(Turn.again $(next.alike))

/-! ## Arguments -/

theorem follows_argument : Follows L argument argument := by
  refine .bind follows_mark fun m => .give (follows_accept _) fun _ => .ite ?_ ?_
  · exact .bind (.call _) fun value => .node fun info =>
      congr(Tree.restArgument $(info.alike) $(value.alike))
  refine .see (sees_atKind _) fun _ => .see (sees_isKind _ _) fun _ => .ite ?_ ?_
  · exact .bind follows_bumpName fun name => .bind follows_bump fun _ => .bind (.call _) fun value =>
      .node fun info => congr(Tree.named $(info.alike) $(name.alike) $(value.alike))
  · exact .bind (.call _) fun value => .done congr(Tree.positional $(value.alike))

theorem follows_argumentList : Follows L argumentList argumentList :=
  .bind (follows_expect _) fun opening => .bind (follows_listAfter opening _ follows_argument)
    fun arguments => .bind (follows_expectClosing opening _ _) fun _ => .done arguments.ofList.alike

theorem follows_invocation : Follows L invocation invocation :=
  .bind follows_mark fun _ => .bind follows_nameReference fun name =>
    .bind follows_argumentList fun arguments => .node fun info =>
      congr(Tree.invocation $(info.alike) $(name.alike) $(arguments.alike))

/-! ## References -/

theorem sees_isActionInvocation (ahead : Nat) : Sees L (isActionInvocation ahead) := by
  refine .bind (sees_kind _) fun _ => ?_
  split
  · exact .done _
  · exact .bind (sees_isQualifiedName _) fun _ => .bind (sees_isKind _ _) fun _ =>
      .bind (sees_kind _) fun _ => .bind (sees_isName _) fun _ => .bind (sees_isKind _ _) fun _ => .done _

theorem sees_isCall : Sees L isCall :=
  .bind (sees_kind _) fun _ => .bind (sees_isName _) fun _ => .bind (sees_isKind _ _) fun _ => .done _

theorem follows_referencePrimary : Follows L referencePrimary referencePrimary := by
  refine .bind follows_mark fun m => .see (sees_atKind _) fun _ => .see sees_isCall fun _ =>
    .ite (.bind (follows_errorExpected _) fun _ => .placeholder fun info =>
      congr(Tree.missingReference $(info.alike))) ?_
  refine .bind follows_nameReference fun name => .see (sees_atKind _) fun _ => .ite ?_ ?_
  · exact .bind follows_argumentList fun arguments => .node fun info =>
      congr(Tree.functionCall (.invocation $(info.alike) $(name.alike) $(arguments.alike)))
  · exact .node fun info => congr(Tree.simpleReference $(info.alike) $(name.alike))

theorem sees_referenceOperator : Sees L referenceOperator? :=
  .of (f := fun scope s => Operator.reference? (scope.kindAt s 0) (scope.kindAt s 1)
      (scope.kindAt s 2) scope.options.allowAnyIdentifierNames) (fun _ _ _ => rfl)
    fun recovery depth s t h => by
      rw [L.kindAt_eq recovery depth h, L.kindAt_eq recovery depth h, L.kindAt_eq recovery depth h]
      exact congrArg _ L.names.symm

theorem follows_index (construct : String) : Follows L (index construct) (index construct) :=
  .bind follows_bump fun opening => .bind (.call _) fun value =>
    .bind (follows_expectClosing opening _ _) fun _ => .done value.alike

theorem follows_applyReference (m : Twins L Mark) (target : Twins L Reference) (op : Operator) :
    Follows L (applyReference m.first target.first op) (applyReference m.second target.second op) := by
  unfold applyReference
  split
  · exact .bind (follows_index _) fun value => .node fun info =>
      congr(Tree.indexReference $(info.alike) $(target.alike) $(value.alike))
  · exact .bind follows_bump fun _ => .bind follows_callableName fun name =>
      .bind follows_argumentList fun arguments => .node fun info =>
        congr(Tree.methodCall $(info.alike) $(target.alike) $(name.alike) $(arguments.alike))
  · exact .bind follows_bump fun _ =>
      .bind (follows_whenever (sees_atKind _).follows (follows_index _)) fun value => .node fun info =>
        congr(Tree.xmlAttributeReference $(info.alike) $(target.alike) $(value.alike))
  · refine .bind follows_bump fun accessor => .see (sees_atKind _) fun _ => ?_
    extract_lets node node'
    have hn : ∀ field : Twins L FieldName, Follows L (node field.first) (node' field.second) :=
      fun field => .node fun info => congr(Tree.fieldReference $(info.alike) $(target.alike)
        $(accessor.alike) $(field.alike))
    clear_value node node'
    refine .ite (.bind follows_bump fun star => ?_) (.bind follows_identifier fun name => ?_)
    · exact hn (star.map .all fun _ _ => rfl)
    · exact hn (name.map .name fun _ _ => rfl)

theorem following_referenceRule : OperatorRule.Following L referenceRule where
  primary := follows_referencePrimary
  operator? := sees_referenceOperator
  apply := follows_applyReference

end BallerinaSyntax
