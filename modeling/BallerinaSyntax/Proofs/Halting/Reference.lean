import BallerinaSyntax.Proofs.Halting.Literal
import BallerinaSyntax.Proofs.Reading.Reference

/-! References come to an end, and precedence climbing in general: an operator is taken. -/

namespace BallerinaSyntax

open Grammar Parse
open Condition (any solid past onward turned)

variable {rank : Nat} {P : Condition}

/-! ## Climbing -/

/-- A rule whose primaries come to an end, and whose operators are taken where one is found. -/
structure OperatorRule.Halting {c : Category} (rule : OperatorRule c)
    (found : Scope → State → Option Operator) (rank : Nat) : Prop where
  primary : Halts rank any rule.primary
  operator? : Looks rule.operator? found
  apply : ∀ m left op,
    Takes (fun scope s => s.unwinding = false ∧ found scope s = some op) (rule.apply m left op)

/-- A round takes an operator, or is the last one. -/
theorem OperatorRule.Halting.climbs {c : Category} {rule : OperatorRule c}
    {found : Scope → State → Option Operator} (h : OperatorRule.Halting rule found rank)
    (power : Nat) (m : Mark) (left : Tree c) (s₁ : State) :
    Settles rank (fun _ s => s = s₁) (do
        if ← isUnwinding then return .stop left
        match ← rule.operator? with
        | none => return .stop left
        | some op =>
          if op.power < power then return .stop left
          return .again (← rule.apply m left op))
      (turned (β := Tree c) (γ := Tree c) s₁ (fun _ => any) fun _ => any) := by
  refine .look looks_isUnwinding fun unwinding => .ite (fun _ => .done fun _ _ _ => trivial)
    fun hu => .look h.operator? fun op? => ?_
  cases op? with
  | none => exact .done fun _ _ _ => trivial
  | some op =>
    refine .ite (fun _ => .done fun _ _ _ => trivial) fun _ => ?_
    refine .takePast (i := s₁.position) (fun scope s hs => ⟨⟨?_, hs.2⟩, ?_⟩) (h.apply m left op)
      fun _ => .done fun _ _ h => ⟨.inl h, trivial⟩
    · exact congrArg State.position hs.1.1
    · rw [hs.1.2]
      simpa using hu

theorem halts_climb {c : Category} {rule : OperatorRule c}
    {found : Scope → State → Option Operator} (h : OperatorRule.Halting rule found rank)
    (power : Nat) : Halts rank P (climb rule power) :=
  .mark fun m => .bind h.primary fun _ =>
    .loop (I := fun _ => any) fun left s₁ => (h.climbs power m left s₁).weaken fun _ _ h => h.1

/-- Behind a primary that takes a token. -/
theorem takes_climb {c : Category} {rule : OperatorRule c} {C : Condition}
    {found : Scope → State → Option Operator} (h : OperatorRule.Halting rule found 3)
    (hp : Takes C rule.primary) (power : Nat) : Takes C (climb rule power) :=
  .mark fun m => hp.andThen (fun _ _ h => h) fun _ =>
    .loop (I := fun _ => any) fun left s₁ => (h.climbs power m left s₁).weaken fun _ _ h => h.1

/-! ## Arguments -/

theorem halts_argument : Halts 3 P argument := by
  refine .mark fun m => .bind (halts_accept _) fun _ => .ite (fun _ => ?_) fun _ => ?_
  · exact .bind halts_expression fun _ => .node
  refine .skim (looks_atKind _) fun _ => .skim (looks_isKind _ _) fun _ => .ite (fun _ => ?_)
    fun _ => .bind halts_expression fun _ => .ended
  exact .bind halts_bumpName fun _ => .bind halts_bump fun _ => .bind halts_expression fun _ => .node

theorem halts_argumentList : Halts rank P argumentList :=
  .enclosed (by decide) halts_argument fun _ _ => .bind (halts_expectClosing _ _ _) fun _ => .ended

theorem halts_invocation : Halts rank P invocation :=
  .mark fun _ => .bind halts_nameReference fun _ => .bind halts_argumentList fun _ => .node

theorem takes_invocation : Takes (Condition.atKind .identifier) invocation :=
  .mark fun _ => takes_nameReference.andThen (fun _ _ h => h) fun _ => .bind halts_argumentList
    fun _ => .node

/-! ## References -/

theorem halts_referencePrimary : Halts rank P referencePrimary := by
  refine .mark fun m => .skim (looks_atKind _) fun _ => .skim looks_isCall fun _ =>
    .ite (fun _ => ?_) fun _ => ?_
  · exact .bind (halts_errorExpected _) fun _ => .bind (halts_placeholder _) fun _ => .ended
  · refine .bind halts_nameReference fun _ => .skim (looks_atKind _) fun _ => .ite (fun _ => ?_)
      fun _ => .node
    exact .bind halts_argumentList fun _ => .node

theorem takes_index (construct : String) : Takes solid (index construct) :=
  .bump fun _ => .bind halts_expression fun _ => .bind (halts_expectClosing _ _ _) fun _ => .ended

theorem takes_applyReference (m : Mark) (target : Reference) (op : Operator) :
    Takes solid (applyReference m target op) := by
  unfold applyReference
  split
  · exact (takes_index _).andThen (fun _ _ h => h) fun _ => .node
  · exact .bump fun _ => .bind halts_callableName fun _ => .bind halts_argumentList fun _ => .node
  · exact .bump fun _ => .bind ((takes_index _).wheneverAt (by decide)) fun _ => .node
  · refine .bump fun accessor => .skim (looks_atKind _) fun _ => ?_
    extract_lets node
    have hn : ∀ field, Halts 3 any (node field) := fun _ => .node
    clear_value node
    exact .ite (fun _ => .bind halts_bump fun _ => hn _) fun _ => .bind halts_identifier fun _ => hn _

theorem halting_referenceRule : OperatorRule.Halting referenceRule (fun scope s =>
    Operator.reference? (scope.kindAt s 0) (scope.kindAt s 1) (scope.kindAt s 2)
      scope.options.allowAnyIdentifierNames) rank where
  primary := halts_referencePrimary
  operator? := looks_referenceOperator?
  apply m left op := (takes_applyReference m left op).weaken fun _ _ h =>
    sound_referenceRule.solid h.2

end BallerinaSyntax
