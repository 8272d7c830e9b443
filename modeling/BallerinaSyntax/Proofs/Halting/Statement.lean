import BallerinaSyntax.Proofs.Halting.Compound
import BallerinaSyntax.Proofs.Halting.Expression
import BallerinaSyntax.Proofs.Reading.Statement

/-!
Statements come to an end. What is looked ahead for leaves a statement where it began, so a type, a
tuple and an expression may all be tried at its first token.
-/

namespace BallerinaSyntax

open Grammar Parse
open Condition (any solid past onward gave turned)

variable {rank : Nat} {P : Condition}

/-! ## Definitions of variables -/

theorem settles_startsVariableDefinition :
    Settles (rank + 1) P startsVariableDefinition fun _ => P :=
  .foresee <| .bind halts_typeName fun _ => .skim (looks_atKind _) fun _ =>
    .skim (looks_isKind _ _) fun _ => .ended

theorem halts_variableDefinition : Halts (rank + 1) P variableDefinition :=
  .mark fun _ => .bind halts_typeName fun _ => .bind halts_identifier fun _ =>
    .bind (halts_behind (by decide) halts_expression) fun _ => .bind (halts_expect _) fun _ => .node

/-! ## Statements led by an expression -/

theorem halts_lastExpression : Halts (rank + 2) P lastExpression :=
  .bind halts_expression fun _ => .bind (halts_expect _) fun _ => .ended

theorem halts_assignmentTarget (left : Expression) : Halts rank P (assignmentTarget left) := by
  unfold assignmentTarget
  extract_lets info flags missing
  have hm : ∀ u, Halts rank any (missing u) := fun _ => .ended
  clear_value missing
  split
  · exact .ended
  · refine .ite (fun _ => ?_) fun _ => (hm _).weaken fun _ _ _ => trivial
    exact .skim (looks_located _ _ _) fun _ => .bind (halts_report _ _) fun _ => hm _

theorem halts_assignment (m : Mark) (left : Expression) :
    Halts (rank + 2) P (assignment m left) :=
  .bind (halts_assignmentTarget left) fun _ => .bind halts_bump fun _ =>
    .bind halts_lastExpression fun _ => .node

theorem halts_compoundAssignment (m : Mark) (left : Expression) :
    Halts (rank + 2) P (compoundAssignment m left) :=
  .bind (halts_assignmentTarget left) fun _ => .bind halts_bump fun _ =>
    .bind halts_lastExpression fun _ => .node

theorem halts_workerTarget : Halts rank P workerTarget :=
  .skim (looks_atKind _) fun _ => .ite (fun _ => .bind halts_bump fun _ => .ended) fun _ =>
    .bind halts_identifier fun _ => .ended

theorem halts_workerSend (m : Mark) (value : Expression) : Halts rank P (workerSend m value) :=
  .bind halts_bump fun _ => .bind halts_workerTarget fun _ =>
    .bind (halts_behind (by decide) halts_expression) fun _ => .bind (halts_expect _) fun _ => .node

theorem halts_workerReceive (m : Mark) (target : Expression) :
    Halts rank P (workerReceive m target) :=
  .bind halts_bump fun _ => .bind halts_identifier fun _ =>
    .bind (halts_behind (by decide) halts_expression) fun _ => .bind (halts_expect _) fun _ => .node

theorem halts_expressionStatement :
    Halts (rank + 2) P expressionStatement := by
  refine .mark fun m => .bind halts_expression fun first => .skim (looks_kind 0) fun k =>
    .ite (fun _ => halts_compoundAssignment m first) fun _ => ?_
  split
  · exact halts_assignment m first
  · exact halts_workerSend m first
  · exact halts_workerReceive m first
  · exact .bind (halts_expect _) fun _ => .node

/-! ## Destructuring -/

theorem halts_destructuringReferences (varKeyword : Leaf) (m : Mark) :
    Halts 3 P (destructuringReferences varKeyword m) := by
  refine .bind halts_bump fun opening => .bind (halts_listUntil _ halts_reference) fun targets => ?_
  refine .bind (halts_expectClosing _ _ _) fun close => .bind (halts_expect _) fun equals => ?_
  exact .bind halts_lastExpression fun value => .node

theorem takes_varStatement : Takes solid varStatement := by
  refine .mark fun m => .bump fun varKeyword => .skim (looks_atKind _) fun _ =>
    .ite (fun _ => halts_destructuringReferences varKeyword m) fun _ => ?_
  exact .bind halts_reference fun _ => .bind (halts_expect _) fun _ =>
    .bind halts_lastExpression fun _ => .node

theorem takes_destructuringMembers {c : Category} {item : Parse (Tree c)} (h : Halts 3 any item) :
    Takes solid (destructuringMembers item) :=
  .bump fun _ => .bind (halts_commaList h) fun _ => .skim (looks_atKind _) fun _ =>
    .skim (looks_isKind _ _) fun _ => .ite (fun _ => .bind halts_bump fun _ => .ended)
      fun _ => .ended

/-- If the items have no types, they are read once more. -/
theorem halts_destructuring? : Halts rank solid destructuring? := by
  refine .thenAt (.attempt ((takes_destructuringMembers halts_simpleParameter).halts
    fun _ _ h => h)) fun parameters => ?_
  cases parameters with
  | some parameters => exact .ended
  | none =>
    refine .thenAt (.attempt ((takes_destructuringMembers halts_reference).halts
      fun _ _ h => h)) fun references => ?_
    cases references with
    | some references => exact .ended
    | none => exact .ended

theorem halts_parenthesizedStatement : Halts 2 solid parenthesizedStatement := by
  refine .thenAt settles_startsVariableDefinition fun _ => .ite
    (fun _ => .bind halts_variableDefinition fun _ => .ended) fun _ => .mark fun m =>
    .thenAt halts_destructuring? fun targets => ?_
  cases targets with
  | some targets => exact .bind halts_bump fun _ => .bind halts_lastExpression fun _ => .node
  | none => exact halts_expressionStatement

theorem halts_definitionOrExpression : Halts 2 P definitionOrExpression :=
  .thenAt settles_startsVariableDefinition fun _ => .ite
    (fun _ => .bind halts_variableDefinition fun _ => .ended) fun _ => halts_expressionStatement

/-! ## Statements -/

theorem takes_keywordStatement (k : Kind) : Takes solid (keywordStatement k) :=
  .mark fun m => .bump fun _ => .bind (halts_expect _) fun _ => Looks.halts (finish_eq m k)

theorem takes_throwStatement : Takes solid throwStatement :=
  .mark fun _ => .bump fun _ => .bind halts_lastExpression fun _ => .node

theorem takes_returnStatement : Takes solid returnStatement := by
  refine .mark fun m => .bump fun _ => .bind (halts_whenever ?_ halts_expression) fun _ =>
    .bind (halts_expect _) fun _ => .node
  exact .skim (looks_atKind _) fun _ => .ended

theorem halts_statementFrom (start : StatementStart) : Halts 2 solid (statementFrom start) := by
  have take : ∀ {p : Parse Statement}, Takes solid p → Halts 2 solid p := fun hp =>
    hp.halts fun _ _ h => h
  have keyword : ∀ {k : Kind} {f : NodeInfo → Statement},
      Halts 2 solid (keywordStatement k >>= fun info => pure (f info)) := fun {k f} =>
    .take (fun _ _ h => h) (takes_keywordStatement k) fun _ => .ended
  match start with
  | .ifElse => exact take takes_ifStatement
  | .matchCases => exact take takes_matchStatement
  | .foreach => exact take takes_foreachStatement
  | .whileLoop => exact take takes_whileStatement
  | .continueLoop => exact keyword
  | .breakLoop => exact keyword
  | .forkJoin => exact take takes_forkStatement
  | .tryCatch => exact take takes_tryStatement
  | .throwError => exact take takes_throwStatement
  | .returnValue => exact take takes_returnStatement
  | .transaction => exact take takes_transactionStatement
  | .abortTransaction => exact keyword
  | .retryTransaction => exact keyword
  | .lock => exact take takes_lockStatement
  | .declareNamespace =>
    exact .take (fun _ _ h => h) takes_namespaceDeclaration fun _ => .ended
  | .forever => exact take takes_foreverStatement
  | .varKeyword => exact take takes_varStatement
  | .parenthesis => exact halts_parenthesizedStatement
  | .typeOrExpression => exact halts_definitionOrExpression
  | .expression => exact halts_expressionStatement

theorem halts_statementBody : Halts 2 P statementBody := by
  refine .skim looks_startsReservedCall fun _ => .ite (fun _ => halts_expressionStatement) fun _ =>
    .look (looks_kind 0) fun k => ?_
  split
  · rename_i start h
    refine (halts_statementFrom start).weaken fun scope s hs he => ?_
    rw [← hs.2, he] at h
    cases h
  · exact .bind (halts_errorExpected _) fun _ => .bind (halts_placeholder _) fun _ => .ended

end BallerinaSyntax
