import BallerinaSyntax.Proofs.Reading.Literal
import BallerinaSyntax.Grammar.Reference

/-!
The contracts of references, and of precedence climbing in general: what an operator takes is
added to what was read as its left operand.
-/

namespace BallerinaSyntax

open Parse Condition Grammar

/-! ## Climbing -/

/-- A rule whose primaries keep the contract, and whose operators do where one is found. -/
structure OperatorRule.Sound {c : Category} (rule : OperatorRule c)
    (found : Scope → State → Option Operator) : Prop where
  primary : Reads rule.primary
  operator? : Looks rule.operator? found
  solid : ∀ ⦃scope s op⦄, found scope s = some op → solid scope s
  apply : ∀ m left op, Builds m (pieces left) Condition.solid (rule.apply m left op)

theorem reads_climb {c : Category} {rule : OperatorRule c}
    {found : Scope → State → Option Operator} (h : OperatorRule.Sound rule found) (power : Nat) :
    Reads (climb rule power) := by
  refine .marked fun m => .bind h.primary fun first => .loop (fun left => ?_) (.refl _)
  refine .look looks_isUnwinding fun _ => .ite (fun _ => .done (by simp)) fun _ =>
    .look h.operator? fun op? => ?_
  cases op? with
  | none => exact .done (by simp)
  | some op =>
    refine .ite (fun _ => .done (by simp)) fun _ => ?_
    exact ((h.apply m left op).weaken fun _ _ hs => h.solid hs.2).andThen fun _ => .done (by simp)

/-! ## Arguments -/

@[simp] theorem pieces_positional (t : Expression) : pieces (Tree.positional t) = pieces t := rfl

theorem reads_argument : Reads argument := by
  refine .marked fun m => .skip (reads_accept _) fun _ => .ite (fun _ => ?_) fun _ => ?_
  · exact .bind reads_expression fun _ => .node (fun _ => rfl) (by simp)
  refine .look (looks_atKind _) fun here => .look (looks_isKind _ _) fun equals =>
    .ite (fun h => ?_) fun _ => .bind reads_expression fun _ => .done (by simp)
  refine .bumpName (fun scope s hs => ?_) fun _ => .skipBump fun _ => .bind reads_expression fun _ =>
    .node (fun _ => rfl) (by simp)
  simp_all [named, Operator.isName]

theorem reads_argumentList : Reads argumentList :=
  .of fun _ => .skip (reads_expect nofun) fun _ => .bind (reads_listAfter _ _ reads_argument)
    fun _ => .skip (reads_expectClosing _ _ nofun) fun _ => .done (by simp)

theorem reads_invocation : Reads invocation :=
  .marked fun _ => .bind reads_nameReference fun _ => .bind reads_argumentList fun _ =>
    .node (fun _ => rfl) (by simp)

theorem looks_isCall :
    Looks isCall fun scope s =>
      Operator.isName scope.options.allowAnyIdentifierNames (scope.kindAt s 0) &&
        scope.kindAt s 1 == .openParenToken :=
  fun _ _ _ => rfl

/-! ## References -/

@[simp] theorem pieces_functionCall (t : Tree .invocation) :
    pieces (Tree.functionCall t) = pieces t := rfl

theorem reads_referencePrimary : Reads referencePrimary := by
  refine .marked fun m => .look (looks_atKind _) fun here => .look looks_isCall fun call =>
    .ite (fun _ => ?_) fun _ => ?_
  · refine .complain (reads_errorExpected _) (complains_errorExpected _) fun _ => ?_
    exact (builds_placeholder m _).andThen fun _ => .done (.refl _)
  · refine .bind reads_nameReference fun name => .look (looks_atKind _) fun _ => .ite (fun _ => ?_)
      fun _ => .node (fun _ => rfl) (by simp)
    exact .bind reads_argumentList fun _ => .node (fun _ => rfl) (by simp)

theorem looks_referenceOperator? :
    Looks referenceOperator? fun scope s =>
      Operator.reference? (scope.kindAt s 0) (scope.kindAt s 1) (scope.kindAt s 2)
        scope.options.allowAnyIdentifierNames :=
  fun _ _ _ => rfl

theorem reads_index (construct : String) : Reads (index construct) :=
  .of fun _ => .skipBump fun _ => .bind reads_expression fun _ =>
    .skip (reads_expectClosing _ _ nofun) fun _ => .done (by simp)

@[simp] theorem pieces_all (star : Leaf) : pieces (FieldName.all star) = pieces star := rfl

@[simp] theorem pieces_name (n : Identifier) : pieces (FieldName.name n) = pieces n := rfl

theorem builds_applyReference (m : Mark) (target : Reference) (op : Operator) :
    Builds m (pieces target) solid (applyReference m target op) := by
  unfold applyReference
  split
  · exact .bind (reads_index _) fun _ => .node (fun _ => rfl) (by simp)
  · exact .skipBump fun _ => .bind reads_callableName fun _ => .bind reads_argumentList fun _ =>
      .node (fun _ => rfl) (by simp)
  · refine .skipBump fun _ => .bind (reads_whenever ?_ (reads_index _)) fun _ =>
      .node (fun _ => rfl) (by simp)
    exact .look (looks_atKind _) fun _ => rfl
  · refine .bump (fun _ _ h => h) fun accessor => .look (looks_atKind _) fun star => ?_
    extract_lets node
    have hn : ∀ field, Builds m (pieces target ++ pieces accessor ++ pieces field) any
        (node field) := fun _ => .node (fun _ => rfl) (by simp)
    clear_value node
    refine .ite (fun h => ?_) fun _ => .bind reads_identifier fun _ => .give ((hn _).onward (by simp))
    refine .bump (fun scope s hs => ?_) fun _ => .give ((hn _).onward (by simp))
    simp_all [solid]

theorem sound_referenceRule : OperatorRule.Sound referenceRule fun scope s =>
    Operator.reference? (scope.kindAt s 0) (scope.kindAt s 1) (scope.kindAt s 2)
      scope.options.allowAnyIdentifierNames where
  primary := reads_referencePrimary
  operator? := looks_referenceOperator?
  solid scope s op h he := by rw [he] at h; cases h
  apply := builds_applyReference

end BallerinaSyntax
