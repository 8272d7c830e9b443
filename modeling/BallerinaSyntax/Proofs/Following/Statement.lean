import BallerinaSyntax.Proofs.Following.Compound
import BallerinaSyntax.Proofs.Following.Expression
import BallerinaSyntax.Grammar.Statement

/-! Statements in two units that look alike. -/

namespace BallerinaSyntax

open Grammar Parse

variable {L : Likeness}

/-! ## Definitions of variables -/

theorem follows_startsVariableDefinition :
    Follows L startsVariableDefinition startsVariableDefinition :=
  follows_foresee <| .bind (.call _) fun _ => .see (sees_atKind _) fun _ =>
    .see (sees_isKind _ _) fun _ => .done rfl

theorem follows_variableDefinition : Follows L variableDefinition variableDefinition :=
  .bind follows_mark fun _ => .bind (.call _) fun type => .bind follows_identifier fun name =>
    .bind (follows_behind _ (.call _)) fun initializer => .bind (follows_expect _) fun _ =>
      .node fun info => congr(Tree.variableDefinition $(info.alike) $(type.alike) $(name.alike)
        $(initializer.alike))

/-! ## Statements led by an expression -/

theorem follows_lastExpression : Follows L lastExpression lastExpression :=
  .bind (.call _) fun value => .bind (follows_expect _) fun _ => .done value.alike

/-- Every expression has a node, and it moves with the expression. -/
theorem info_relabel (ρ : Relabelling) (e : Expression) :
    ∃ info, e.info? = some info ∧ (relabel ρ e).info? = some (relabel ρ info) := by
  cases e
  case record t =>
    cases t
    exact ⟨_, rfl, rfl⟩
  all_goals exact ⟨_, rfl, rfl⟩

theorem Twins.info_alike (e : Twins L Expression) :
    L.Alike (e.first.info?.getD default) (e.second.info?.getD default) := by
  obtain ⟨i, hi, hm⟩ := info_relabel L.moved e.first
  obtain ⟨j, hj, hs⟩ := info_relabel L.stayed e.second
  rw [hi, hj]
  exact Option.some_inj.mp (hm.symm.trans ((congrArg Tree.info? e.alike).trans hs))

theorem asReference_relabel (ρ : Relabelling) (e : Expression) :
    relabel ρ e.asReference? = (relabel ρ e).asReference? := by
  cases e
  case «variable» _ start _ => cases start <;> rfl
  all_goals rfl

theorem follows_assignmentTarget (left : Twins L Expression) :
    Follows L (assignmentTarget left.first) (assignmentTarget left.second) := by
  have hi := left.info_alike
  unfold assignmentTarget
  refine Likeness.Alike.optional (x := left.first.asReference?) (y := left.second.asReference?)
    (left.map Tree.asReference? asReference_relabel).alike ?_ fun target => .done target.alike
  extract_lets info flags missing info' flags' missing'
  have hm : Follows L (missing ()) (missing' ()) := .done congr(Tree.missingReference
    { ($hi : NodeInfo) with
      kind := .missingReference
      flags := { ($hi : NodeInfo).flags with missing := true, hasError := true } })
  clear_value missing missing'
  refine .iteOf congr(!NodeInfo.isMissing $hi) ?_ hm
  exact .located (congrArg NodeInfo.range hi) (fun _ => rfl) fun _ _ hp hd =>
    .bind (follows_report hi.opposite hp hd) fun _ => hm

section

variable (m : Twins L Mark) (left : Twins L Expression)

theorem follows_assignment :
    Follows L (assignment m.first left.first) (assignment m.second left.second) :=
  .bind (follows_assignmentTarget left) fun target => .bind follows_bump fun _ =>
    .bind follows_lastExpression fun value => .node fun info =>
      congr(Tree.assign $(info.alike) none $(target.alike) $(value.alike))

theorem follows_compoundAssignment :
    Follows L (compoundAssignment m.first left.first) (compoundAssignment m.second left.second) :=
  .bind (follows_assignmentTarget left) fun target => .bind follows_bump fun operator =>
    .bind follows_lastExpression fun value => .node fun info =>
      congr(Tree.compoundAssign $(info.alike) $(target.alike) $(operator.alike) $(value.alike))

theorem follows_workerTarget : Follows L workerTarget workerTarget :=
  .see (sees_atKind _) fun _ => .ite
    (.bind follows_bump fun keyword => .done congr(WorkerTarget.fork $(keyword.alike)))
    (.bind follows_identifier fun name => .done congr(WorkerTarget.worker $(name.alike)))

theorem follows_workerSend :
    Follows L (workerSend m.first left.first) (workerSend m.second left.second) :=
  .bind follows_bump fun _ => .bind follows_workerTarget fun target =>
    .bind (follows_behind _ (.call _)) fun key => .bind (follows_expect _) fun _ => .node fun info =>
      congr(Tree.workerSend $(info.alike) $(left.alike) $(target.alike) $(key.alike))

theorem follows_workerReceive :
    Follows L (workerReceive m.first left.first) (workerReceive m.second left.second) :=
  .bind follows_bump fun _ => .bind follows_identifier fun worker =>
    .bind (follows_behind _ (.call _)) fun key => .bind (follows_expect _) fun _ => .node fun info =>
      congr(Tree.workerReceive $(info.alike) $(left.alike) $(worker.alike) $(key.alike))

end

theorem follows_expressionStatement : Follows L expressionStatement expressionStatement := by
  refine .bind follows_mark fun m => .bind (.call _) fun first => .see (sees_kind 0) fun k =>
    .ite (follows_compoundAssignment m first) ?_
  split
  · exact follows_assignment m first
  · exact follows_workerSend m first
  · exact follows_workerReceive m first
  · exact .bind (follows_expect _) fun _ => .node fun info =>
      congr(Tree.evaluate $(info.alike) $(first.alike))

/-! ## Destructuring -/

theorem follows_destructuringReferences (varKeyword : Twins L Leaf) (m : Twins L Mark) :
    Follows L (destructuringReferences varKeyword.first m.first)
      (destructuringReferences varKeyword.second m.second) :=
  .bind follows_bump fun opening => .bind (follows_listUntil _ (.call _)) fun targets =>
    .bind (follows_expectClosing opening _ _) fun _ => .bind (follows_expect _) fun _ =>
      .bind follows_lastExpression fun value => .node fun info =>
        congr(Tree.destructure $(info.alike) (some $(varKeyword.alike))
          (.targetReferences $(targets.ofList.alike)) $(value.alike))

theorem follows_varStatement : Follows L varStatement varStatement :=
  .bind follows_mark fun m => .bind follows_bump fun varKeyword => .see (sees_atKind _) fun _ =>
    .ite (follows_destructuringReferences varKeyword m) <| .bind (.call _) fun target =>
      .bind (follows_expect _) fun _ => .bind follows_lastExpression fun value => .node fun info =>
        congr(Tree.assign $(info.alike) (some $(varKeyword.alike)) $(target.alike) $(value.alike))

theorem follows_destructuringMembers {c : Category} {item item' : Parse (Tree c)}
    (h : Follows L item item') :
    Follows L (destructuringMembers item) (destructuringMembers item') :=
  .bind follows_bump fun _ => .bind (follows_commaList h) fun members => .see (sees_atKind _) fun _ =>
    .see (sees_isKind _ _) fun _ =>
      .ite (.bind follows_bump fun _ => .done members.ofList.some.alike) (.done rfl)

theorem follows_destructuring : Follows L destructuring? destructuring? := by
  refine .bind (follows_attempt (follows_destructuringMembers follows_simpleParameter)) fun read =>
    read.alike.optional ?_ fun parameters => .done congr(some (.targetParameters $(parameters.alike)))
  exact .bind (follows_attempt (follows_destructuringMembers (.call _))) fun read =>
    read.alike.optional (.done rfl) fun references =>
      .done congr(some (.targetReferences $(references.alike)))

theorem follows_parenthesizedStatement :
    Follows L parenthesizedStatement parenthesizedStatement := by
  refine .give follows_startsVariableDefinition fun _ => .ite (.bind follows_variableDefinition
    fun definition => .done congr(Tree.defineVariable $(definition.alike))) ?_
  exact .bind follows_mark fun m => .bind follows_destructuring fun read =>
    read.alike.optional follows_expressionStatement fun targets => .bind follows_bump fun _ =>
      .bind follows_lastExpression fun value => .node fun info =>
        congr(Tree.destructure $(info.alike) none $(targets.alike) $(value.alike))

theorem follows_definitionOrExpression :
    Follows L definitionOrExpression definitionOrExpression :=
  .give follows_startsVariableDefinition fun _ => .ite (.bind follows_variableDefinition
    fun definition => .done congr(Tree.defineVariable $(definition.alike))) follows_expressionStatement

/-! ## Statements -/

theorem follows_keywordStatement (k : Kind) :
    Follows L (keywordStatement k) (keywordStatement k) :=
  .bind follows_mark fun m => .bind follows_bump fun _ => .bind (follows_expect _) fun _ =>
    follows_finish m k

theorem follows_throwStatement : Follows L throwStatement throwStatement :=
  .bind follows_mark fun _ => .bind follows_bump fun _ => .bind follows_lastExpression fun value =>
    .node fun info => congr(Tree.throwError $(info.alike) $(value.alike))

theorem follows_returnStatement : Follows L returnStatement returnStatement :=
  .bind follows_mark fun _ => .bind follows_bump fun _ =>
    .bind (follows_whenever (.see (sees_atKind _) fun _ => .done rfl) (.call _)) fun value =>
      .bind (follows_expect _) fun _ => .node fun info =>
        congr(Tree.returnValue $(info.alike) $(value.alike))

theorem follows_statementFrom (start : StatementStart) :
    Follows L (statementFrom start) (statementFrom start) := by
  cases start with
  | ifElse => exact follows_ifStatement
  | matchCases => exact follows_matchStatement
  | «foreach» => exact follows_foreachStatement
  | whileLoop => exact follows_whileStatement
  | continueLoop =>
    exact .bind (follows_keywordStatement _) fun info => .done congr(Tree.continueLoop $(info.alike))
  | breakLoop =>
    exact .bind (follows_keywordStatement _) fun info => .done congr(Tree.breakLoop $(info.alike))
  | forkJoin => exact follows_forkStatement
  | tryCatch => exact follows_tryStatement
  | «throwError» => exact follows_throwStatement
  | returnValue => exact follows_returnStatement
  | transaction => exact follows_transactionStatement
  | abortTransaction =>
    exact .bind (follows_keywordStatement _) fun info =>
      .done congr(Tree.abortTransaction $(info.alike))
  | retryTransaction =>
    exact .bind (follows_keywordStatement _) fun info =>
      .done congr(Tree.retryTransaction $(info.alike))
  | lock => exact follows_lockStatement
  | declareNamespace =>
    exact .bind follows_namespaceDeclaration fun declaration =>
      .done congr(Tree.declareNamespace $(declaration.alike))
  | forever => exact follows_foreverStatement
  | varKeyword => exact follows_varStatement
  | parenthesis => exact follows_parenthesizedStatement
  | typeOrExpression => exact follows_definitionOrExpression
  | expression => exact follows_expressionStatement

theorem sees_startsReservedCall : Sees L startsReservedCall :=
  .bind (sees_kind _) fun _ => .bind sees_isCall fun _ => .done _

theorem follows_statementBody : Follows L statementBody statementBody := by
  refine .see sees_startsReservedCall fun _ => .ite follows_expressionStatement <|
    .see (sees_kind 0) fun k => ?_
  split
  · exact follows_statementFrom _
  · exact .bind (follows_errorExpected _) fun _ => .placeholder fun info =>
      congr(Tree.missingStatement $(info.alike))

end BallerinaSyntax
