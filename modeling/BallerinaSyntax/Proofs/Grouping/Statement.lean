import BallerinaSyntax.Proofs.Grouping.Compound
import BallerinaSyntax.Proofs.Grouping.Query
import BallerinaSyntax.Grammar.Statement

/-! Statements are well grouped. -/

namespace BallerinaSyntax

open Grammar Parse

theorem yields_variableDefinition : Yields variableDefinition := by
  refine .skip fun m => .bind yields_typeName fun type htype => .skip fun name => ?_
  refine .bind (yields_behind yields_expression) fun value hvalue => .skip fun semicolon => ?_
  exact .skip fun info => .done ⟨trivial, htype, hvalue⟩

/-! ## Statements led by an expression -/

theorem yields_lastExpression : Yields lastExpression :=
  .bind yields_expression fun _ he => .skip fun _ => .done he

theorem wellGrouped_asReference {e : Expression} (he : wellGrouped e) : wellGrouped e.asReference? := by
  cases e with
  | «variable» info start target =>
    cases start with
    | none => exact he.2
    | some _ => trivial
  | _ => trivial

theorem yields_assignmentTarget {left : Expression} (hl : wellGrouped left) :
    Yields (assignmentTarget left) := by
  have hr := wellGrouped_asReference hl
  have hmissing : ∀ info, wellGrouped (Tree.missingReference info) := fun info => ⟨trivial, trivial⟩
  unfold assignmentTarget
  revert hr
  cases left.asReference? with
  | some target => exact fun hr => .done hr
  | none =>
    refine fun _ => .ite ?_ (.done (hmissing _))
    exact .skip fun found => .skip fun reported => .done (hmissing _)

section

variable {left : Expression} (hl : wellGrouped left) (m : Mark)
include hl

theorem yields_assignment : Yields (assignment m left) := by
  refine .bind (yields_assignmentTarget hl) fun target htarget => .skip fun operator => ?_
  refine .bind yields_lastExpression fun value hvalue => ?_
  exact .skip fun info => .done ⟨trivial, htarget, hvalue⟩

theorem yields_compoundAssignment : Yields (compoundAssignment m left) := by
  refine .bind (yields_assignmentTarget hl) fun target htarget => .skip fun operator => ?_
  refine .bind yields_lastExpression fun value hvalue => ?_
  exact .skip fun info => .done ⟨trivial, htarget, hvalue⟩

theorem yields_workerSend : Yields (workerSend m left) := by
  refine .skip fun arrow => .skip fun target => .bind (yields_behind yields_expression) fun key hkey => ?_
  exact .skip fun semicolon => .skip fun info => .done ⟨trivial, hl, hkey⟩

theorem yields_workerReceive : Yields (workerReceive m left) := by
  refine .skip fun arrow => .skip fun worker => .bind (yields_behind yields_expression) fun key hkey => ?_
  exact .skip fun semicolon => .skip fun info => .done ⟨trivial, hl, hkey⟩

end

theorem yields_expressionStatement : Yields expressionStatement := by
  refine .skip fun m => .bind yields_expression fun _ hf => .skip fun k =>
    .ite (yields_compoundAssignment hf m) ?_
  split
  · exact yields_assignment hf m
  · exact yields_workerSend hf m
  · exact yields_workerReceive hf m
  · exact .skip fun _ => .skip fun _ => .done ⟨trivial, hf⟩

/-! ## Destructuring -/

theorem yields_destructuringReferences (varKeyword : Leaf) (m : Mark) :
    Yields (destructuringReferences varKeyword m) := by
  refine .skip fun opening => .bind (yields_listUntil yields_reference) fun targets htargets => ?_
  refine .skip fun close => .skip fun equals => .bind yields_lastExpression fun value hvalue => ?_
  exact .skip fun info => .done ⟨trivial, ⟨trivial, wellGrouped_ofList htargets⟩, hvalue⟩

theorem yields_varStatement : Yields varStatement := by
  refine .skip fun m => .skip fun keyword => .skip fun opened => .ite ?tuple ?single
  case tuple => exact yields_destructuringReferences keyword m
  case single =>
    refine .bind yields_reference fun target htarget => .skip fun equals => ?_
    refine .bind yields_lastExpression fun value hvalue => ?_
    exact .skip fun info => .done ⟨trivial, htarget, hvalue⟩

theorem yields_destructuringMembers {c : Category} {item : Parse (Tree c)} (h : Yields item) :
    Yields (destructuringMembers item) := by
  refine .skip fun opening => .bind (yields_commaList h) fun members hmembers => ?_
  refine .skip fun closed => .skip fun equals => .ite ?_ (.done trivial)
  exact .skip fun close => .done (wellGrouped_ofList hmembers)

theorem yields_destructuring : Yields destructuring? := by
  refine .bind (.attempt (yields_destructuringMembers yields_simpleParameter)) fun parameters hp => ?_
  cases parameters with
  | some parameters => exact .done ⟨trivial, hp⟩
  | none =>
    refine .bind (.attempt (yields_destructuringMembers yields_reference)) fun references hr => ?_
    cases references with
    | some references => exact .done ⟨trivial, hr⟩
    | none => exact .done trivial

theorem yields_definedVariable :
    Yields (variableDefinition >>= fun d => pure (Tree.defineVariable d)) :=
  .bind yields_variableDefinition fun _ hd => .done ⟨trivial, hd⟩

theorem yields_parenthesizedStatement : Yields parenthesizedStatement := by
  refine .skip fun defined => .ite yields_definedVariable <| .skip fun m => ?_
  refine .bind yields_destructuring fun targets htargets => ?_
  cases targets with
  | some targets =>
    refine .skip fun equals => .bind yields_lastExpression fun value hvalue => ?_
    exact .skip fun info => .done ⟨trivial, htargets, hvalue⟩
  | none => exact yields_expressionStatement

theorem yields_definitionOrExpression : Yields definitionOrExpression :=
  .skip fun _ => .ite yields_definedVariable yields_expressionStatement

/-! ## Statements -/

theorem yields_throwStatement : Yields throwStatement :=
  .skip fun _ => .skip fun _ => .bind yields_lastExpression fun _ hv => .skip fun _ =>
    .done ⟨trivial, hv⟩

theorem yields_returnStatement : Yields returnStatement := by
  refine .skip fun m => .skip fun keyword => ?_
  refine .bind (yields_whenever yields_expression) fun value hvalue => .skip fun semicolon => ?_
  exact .skip fun info => .done ⟨trivial, hvalue⟩

theorem yields_statementFrom (start : StatementStart) : Yields (statementFrom start) := by
  cases start with
  | ifElse => exact yields_ifStatement
  | matchCases => exact yields_matchStatement
  | «foreach» => exact yields_foreachStatement
  | whileLoop => exact yields_whileStatement
  | forkJoin => exact yields_forkStatement
  | tryCatch => exact yields_tryStatement
  | «throwError» => exact yields_throwStatement
  | returnValue => exact yields_returnStatement
  | transaction => exact yields_transactionStatement
  | lock => exact yields_lockStatement
  | forever => exact yields_foreverStatement
  | varKeyword => exact yields_varStatement
  | parenthesis => exact yields_parenthesizedStatement
  | typeOrExpression => exact yields_definitionOrExpression
  | expression => exact yields_expressionStatement
  | continueLoop | breakLoop | abortTransaction | retryTransaction | declareNamespace =>
    exact .skip fun _ => .done ⟨trivial, trivial⟩

theorem yields_statementBody : Yields statementBody := by
  refine .skip fun _ => .ite yields_expressionStatement <| .skip fun k => ?_
  cases StatementStart.ofKind? k with
  | some start => exact yields_statementFrom start
  | none => exact .skip fun _ => .skip fun _ => .done ⟨trivial, trivial⟩

end BallerinaSyntax
