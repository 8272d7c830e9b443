import BallerinaSyntax.Proofs.Grouping.Literal

/-! References and calls are well grouped. -/

namespace BallerinaSyntax

open Condition Grammar Parse

theorem yields_argument : Yields argument := by
  refine .skip fun m => .skip fun dots => .ite ?rest <| .skip fun named => .skip fun assigned => ?_
  case rest =>
    refine .bind yields_expression fun value hvalue => ?_
    exact .skip fun info => .done ⟨trivial, hvalue⟩
  refine .ite ?named ?positional
  case named =>
    refine .skip fun name => .skip fun equals => .bind yields_expression fun value hvalue => ?_
    exact .skip fun info => .done ⟨trivial, hvalue⟩
  case positional => exact .bind yields_expression fun value hvalue => .done ⟨trivial, hvalue⟩

theorem yields_argumentList : Yields argumentList := by
  refine .skip fun opening => .bind (yields_listAfter yields_argument) fun arguments harguments => ?_
  exact .skip fun close => .done (wellGrouped_ofList harguments)

theorem yields_invocation : Yields invocation := by
  refine .skip fun m => .skip fun name => .bind yields_argumentList fun arguments harguments => ?_
  exact .skip fun info => .done ⟨trivial, harguments⟩

theorem yields_referencePrimary : Yields referencePrimary := by
  refine .skip fun m => .skip fun named => .skip fun called => .ite ?missing ?named
  case missing => exact .skip fun reported => .skip fun info => .done ⟨trivial, trivial⟩
  refine .skip fun name => .skip fun parenNext => .ite ?call ?simple
  case call =>
    refine .bind yields_argumentList fun arguments harguments => ?_
    exact .skip fun info => .done ⟨trivial, trivial, harguments⟩
  case simple => exact .skip fun info => .done ⟨trivial, trivial⟩

theorem yields_index (construct : String) : Yields (index construct) :=
  .skip fun _ => .bind yields_expression fun _ he => .skip fun _ => .done he

theorem yields_applyReference {m : Mark} {target : Reference} (ht : wellGrouped target)
    (op : Operator) : Yields (applyReference m target op) := by
  unfold applyReference
  split
  · exact .bind (yields_index _) fun _ hi => .skip fun _ => .done ⟨trivial, ht, hi⟩
  · exact .skip fun _ => .skip fun _ => .bind yields_argumentList fun _ has => .skip fun _ =>
      .done ⟨trivial, ht, has⟩
  · exact .skip fun _ => .bind (yields_whenever (yields_index _)) fun _ hi => .skip fun _ =>
      .done ⟨trivial, ht, hi⟩
  · refine .skip fun _ => .skip fun _ => ?_
    extract_lets node
    have hn : ∀ field, Yields (node field) := fun _ => .skip fun _ => .done ⟨trivial, ht⟩
    clear_value node
    exact .ite (.skip fun _ => hn _) (.skip fun _ => hn _)

/-- Of references, all powers are alike. -/
theorem groups_referenceRule :
    OperatorRule.Groups referenceRule (fun scope s => Operator.reference? (scope.kindAt s 0)
      (scope.kindAt s 1) (scope.kindAt s 2) scope.options.allowAnyIdentifierNames)
      (fun t _ => wellGrouped t) fun _ _ => True where
  primary := yields_referencePrimary.weaken (fun _ _ h => h) fun _ _ _ h =>
    ⟨fun _ => h, .inr fun _ _ => trivial⟩
  operator? := looks_referenceOperator?
  apply ht _ _ := (yields_applyReference ht _).weaken (fun _ _ _ => trivial) fun _ _ _ h =>
    ⟨h, .inr fun _ _ => trivial⟩

theorem yields_climbReference (power : Nat) : Yields (climb referenceRule power) :=
  (gives_climb groups_referenceRule power).weaken (fun _ _ h => h) fun _ _ _ h => h.1

end BallerinaSyntax
