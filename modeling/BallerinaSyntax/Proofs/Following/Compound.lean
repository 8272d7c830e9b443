import BallerinaSyntax.Proofs.Following.Reference
import BallerinaSyntax.Proofs.Following.Signature
import BallerinaSyntax.Grammar.Compound

/-! Blocks, bodies and statements made of blocks in two units that look alike. -/

namespace BallerinaSyntax

open Grammar Parse

variable {L : Likeness}

/-! ## Blocks -/

theorem follows_statementRound : Follows L statementRound statementRound := by
  refine .see (sees_kind 0) fun k => .ite ?semicolon <| .see (sees_isName k) fun named =>
    .ite ?passed ?read
  case semicolon => exact .bind (follows_bumpUnexpected _) fun _ => .done rfl
  case passed => exact .bind (follows_skipUntil _ _) fun _ => .done rfl
  case read => exact .item (follows_progressing _ (.call _))

theorem follows_statements : Follows L statements statements := by
  refine .bind (.withRecovery <| .loop Likeness.alike_empty fun read => ?round) fun read => ?_
  case round =>
    refine .see (sees_atListEnd _) fun ended => .ite (.done congr(Turn.stop $(read.alike))) ?_
    refine .bind follows_statementRound fun item => item.alike.optional ?_ fun item => ?_
    · exact .done congr(Turn.again $(read.alike))
    · exact .done congr(Turn.again $((read.push item).alike))
  exact .done read.toList.ofList.alike

theorem follows_blockBody : Follows L blockBody blockBody := by
  refine .bind follows_mark fun m => .bind (follows_expect _) fun opening =>
    .iteOf opening.missing_eq (.node fun info => congr(Tree.block $(info.alike) .nil)) ?_
  exact .bind follows_statements fun read => .bind (follows_expectClosing opening _ _) fun _ =>
    .delimited fun info => congr(Tree.block $(info.alike) $(read.alike))

theorem follows_worker : Follows L worker worker :=
  .bind follows_mark fun _ => .bind follows_bump fun _ => .bind follows_identifier fun name =>
    .bind (.call _) fun body => .node fun info =>
      congr(Tree.worker $(info.alike) $(name.alike) $(body.alike))

theorem follows_workers : Follows L workers workers :=
  .many <| .see (sees_goesOn _) fun _ => .ite (.item follows_worker) (.done rfl)

theorem follows_endpointValue : Follows L endpointValue endpointValue := by
  refine .see (sees_atKind _) fun _ => .ite (.bind follows_recordLiteral fun record => .done ?_) <|
    .give (follows_accept _) fun _ => .ite (.bind (.call _) fun target => .done ?_) (.done rfl)
  · exact congr(Tree.present (.endpointRecord $(record.alike)))
  · exact congr(Tree.present (.endpointReference $(target.alike)))

theorem follows_endpoint (m : Twins L Mark) (annotations : Twins L (Tree (.list .attachment))) :
    Follows L (endpoint m.first annotations.first) (endpoint m.second annotations.second) :=
  .bind (follows_expect _) fun _ => .bind follows_nameReference fun type =>
    .bind follows_identifier fun name => .bind follows_endpointValue fun value =>
      .bind (follows_expect _) fun _ => .node fun info => congr(Tree.endpoint $(info.alike)
        $(annotations.alike) $(type.alike) $(name.alike) $(value.alike))

theorem follows_localEndpoints : Follows L localEndpoints localEndpoints := by
  refine .many <| .see sees_isUnwinding fun unwinding => .see (sees_atKind _) fun keyword => ?_
  refine .see (sees_atKind _) fun sign => .ite ?_ (.done rfl)
  refine .bind follows_mark fun m => .bind follows_attachments fun annotations => ?_
  exact .item (follows_endpoint m annotations)

theorem follows_callableBodyInner : Follows L callableBodyInner callableBodyInner := by
  refine .bind follows_mark fun m => .bind (follows_expect _) fun opening =>
    .iteOf opening.missing_eq (.node fun info =>
      congr(Tree.callableBody $(info.alike) .nil .nil .nil)) ?_
  refine .bind follows_localEndpoints fun endpoints => .see (sees_atKind _) fun workersFirst => ?_
  extract_lets rest rest'
  have hr : ∀ workers : Twins L (List (Tree .worker)),
      Follows L (rest workers.first) (rest' workers.second) := fun workers => by
    unfold rest rest'
    extract_lets node node'
    have hn : ∀ read : Twins L (Tree (.list .statement)),
        Follows L (node read.first) (node' read.second) := fun read =>
      .bind (follows_expectClosing opening _ _) fun _ => .delimited fun info =>
        congr(Tree.callableBody $(info.alike) $(endpoints.ofList.alike) $(read.alike)
          $(workers.ofList.alike))
    clear_value node node'
    exact .ite (hn ⟨.nil, .nil, rfl⟩) (.bind follows_statements hn)
  clear_value rest rest'
  exact .ite (.bind follows_workers hr) (hr ⟨[], [], rfl⟩)

theorem follows_keywordBlock (k : Kind) : Follows L (keywordBlock k) (keywordBlock k) :=
  .bind follows_mark fun _ => .bind follows_bump fun _ => .bind (.call _) fun body =>
    .node fun info => congr(($(info.alike), $(body.alike)))

/-! ## Branches -/

theorem follows_ifClause (m : Twins L Mark) (k : Kind) :
    Follows L (ifClause m.first k) (ifClause m.second k) :=
  .bind (.call _) fun condition => .bind (.call _) fun body => .node fun info =>
    congr(Tree.ifClause $(info.alike) $(condition.alike) $(body.alike))

theorem follows_elseIfClause : Follows L elseIfClause? elseIfClause? := by
  refine .see (sees_goesOn _) fun elseNext => .see (sees_isKind _ _) fun ifBehind => ?_
  refine .ite (.bind follows_mark fun m => ?_) (.done rfl)
  refine .bind follows_bump fun elseKeyword => .bind follows_bump fun ifKeyword => ?_
  exact .item (follows_ifClause m _)

theorem follows_elseClause : Follows L elseClause elseClause :=
  .bind (follows_keywordBlock _) fun x => x.pair fun info body =>
    .done congr(Tree.elseClause $(info.alike) $(body.alike))

theorem follows_ifStatement : Follows L ifStatement ifStatement :=
  .bind follows_mark fun m => .bind follows_bump fun _ => .bind (follows_ifClause m _) fun first =>
    .bind (.many follows_elseIfClause) fun others =>
      .bind (follows_whenever (sees_goesOn _).follows follows_elseClause) fun last =>
        .node fun info =>
          congr(Tree.ifElse $(info.alike) $(first.alike) $(others.ofList.alike) $(last.alike))

theorem follows_matchBody : Follows L matchBody matchBody := by
  refine .see (sees_atKind _) fun _ => .ite (.bind (.call _) fun body => .done ?_)
    (.bind (.call _) fun body => .done ?_)
  · exact congr(Tree.matchBlockBody $(body.alike))
  · exact congr(Tree.matchStatementBody $(body.alike))

theorem follows_matchClause : Follows L matchClause matchClause :=
  .bind follows_mark fun _ => .bind (.call _) fun type =>
    .bind follows_optionalIdentifier fun binding => .bind (follows_expect _) fun _ =>
      .bind follows_matchBody fun body => .node fun info =>
        congr(Tree.matchClause $(info.alike) $(type.alike) $(binding.alike) $(body.alike))

theorem follows_matchClauses : Follows L matchClauses matchClauses :=
  .many <| .see (sees_atListEnd _) fun _ => .ite (.done rfl) <|
    .item (follows_progressing _ follows_matchClause)

theorem follows_matchStatement : Follows L matchStatement matchStatement := by
  refine .bind follows_mark fun m => .bind follows_bump fun _ => .bind (.call _) fun subject =>
    .bind (follows_expect _) fun opening => ?_
  extract_lets node node'
  have hn : ∀ clauses : Twins L (List (Tree .matchClause)),
      Follows L (node clauses.first) (node' clauses.second) := fun clauses =>
    .bind (follows_expectClosing opening _ _) fun _ => .delimited fun info =>
      congr(Tree.matchStatement $(info.alike) $(subject.alike) $(clauses.ofList.alike))
  clear_value node node'
  exact .iteOf opening.missing_eq (hn ⟨[], [], rfl⟩) (.bind follows_matchClauses hn)

/-! ## Loops -/

theorem follows_iterableRange : Follows L iterableRange iterableRange :=
  .bind follows_intRange fun range => .see (sees_atAny _) fun _ =>
    .ite (.done range.some.alike) (.done rfl)

theorem follows_iterable : Follows L iterable iterable := by
  refine .see (sees_atAny _) fun _ => ?_
  extract_lets rest
  have hr : ∀ range : Twins L (Option (Tree .intRange)),
      Follows L (rest range.first) (rest range.second) := fun range => range.alike.optional
    (.bind (.call _) fun value => .done congr(Tree.iterableExpression $(value.alike)))
    fun range => .done congr(Tree.iterableRange $(range.alike))
  clear_value rest
  exact .ite (.bind (follows_attempt follows_iterableRange) hr) (hr .none)

theorem follows_foreachStatement : Follows L foreachStatement foreachStatement := by
  refine .bind follows_mark fun m => .bind follows_bump fun _ => .bind (follows_optional _) fun opening =>
    .bind (follows_commaList (.call _)) fun targets => .bind (follows_expect _) fun _ =>
      .bind follows_iterable fun iterated => ?_
  extract_lets node node'
  have hn : Follows L (node ()) (node' ()) := .bind (.call _) fun body => .node fun info =>
    congr(Tree.foreach $(info.alike) $(targets.ofList.alike) $(iterated.alike) $(body.alike))
  clear_value node node'
  exact opening.alike.optional hn fun opening =>
    .bind (follows_expectClosing opening _ _) fun _ => hn

theorem follows_whileStatement : Follows L whileStatement whileStatement :=
  .bind follows_mark fun _ => .bind follows_bump fun _ => .bind (.call _) fun condition =>
    .bind (.call _) fun body => .node fun info =>
      congr(Tree.whileLoop $(info.alike) $(condition.alike) $(body.alike))

theorem follows_lockStatement : Follows L lockStatement lockStatement :=
  .bind (follows_keywordBlock _) fun x => x.pair fun info body =>
    .done congr(Tree.lock $(info.alike) $(body.alike))

/-! ## Workers -/

theorem follows_binding (construct : String) : Follows L (binding construct) (binding construct) :=
  .bind (follows_expect _) fun opening => .bind (.call _) fun type =>
    .bind follows_identifier fun name => .bind (follows_expectClosing opening _ _) fun _ =>
      .done congr(($(type.alike), $(name.alike)))

theorem follows_joinConditions : Follows L joinConditions joinConditions := by
  refine .bind follows_mark fun m => .bind follows_bump fun opening =>
    .give (follows_accept _) fun some? => ?_
  extract_lets rest rest'
  have hr : ∀ count : Twins L (Option Leaf), Follows L (rest count.first) (rest' count.second) :=
    fun count => by
      unfold rest rest'
      extract_lets node workers node' workers'
      have hn : ∀ workers : Twins L (List Identifier),
          Follows L (node workers.first) (node' workers.second) := fun workers =>
        .bind (follows_expectClosing opening _ _) fun _ => .delimited fun info =>
          congr(JoinConditions.mk $(info.alike) (if some? then .some else .all) $(count.alike)
            $(workers.alike))
      have hw : Follows L (workers ()) (workers' ()) := .see (sees_atKind _) fun _ =>
        .ite (.bind (follows_commaList follows_identifier) hn) (hn ⟨[], [], rfl⟩)
      clear_value workers workers'
      exact .ite (.bind follows_bump fun _ => hw) hw
  clear_value rest rest'
  exact .ite (.bind (follows_expect _) fun count => hr count.some) (hr .none)

theorem sees_startsJoinConditions : Sees L startsJoinConditions :=
  .bind (sees_atKind _) fun _ => .bind (sees_kind _) fun _ => .done _

theorem follows_joinClause : Follows L joinClause joinClause := by
  refine .bind follows_mark fun m => .bind follows_bump fun _ => .see sees_startsJoinConditions fun _ => ?_
  extract_lets node node'
  have hn : ∀ conditions : Twins L (Option JoinConditions),
      Follows L (node conditions.first) (node' conditions.second) := fun conditions =>
    .bind (follows_binding _) fun x => x.pair fun type result => .bind (.call _) fun body =>
      .node fun info => congr(Tree.joinClause $(info.alike) $(conditions.alike) $(type.alike)
        $(result.alike) $(body.alike))
  clear_value node node'
  exact .ite (.bind follows_joinConditions fun conditions => hn conditions.some) (hn .none)

theorem follows_timeoutClause : Follows L timeoutClause timeoutClause :=
  .bind follows_mark fun _ => .bind follows_bump fun _ => .bind (follows_expect _) fun opening =>
    .bind (.call _) fun duration => .bind (follows_expectClosing opening _ _) fun _ =>
      .bind (follows_binding _) fun x => x.pair fun type result => .bind (.call _) fun body =>
        .node fun info => congr(Tree.timeoutClause $(info.alike) $(duration.alike) $(type.alike)
          $(result.alike) $(body.alike))

theorem follows_forkStatement : Follows L forkStatement forkStatement := by
  refine .bind follows_mark fun m => .bind follows_bump fun _ => .bind (follows_expect _) fun opening => ?_
  extract_lets node node'
  have hn : ∀ forked : Twins L (List (Tree .worker)),
      Follows L (node forked.first) (node' forked.second) := fun forked =>
    .bind (follows_expectClosing opening _ _) fun _ =>
      .bind (follows_whenever (sees_goesOn _).follows follows_joinClause) fun join =>
        .bind (follows_whenever (sees_goesOn _).follows follows_timeoutClause) fun timeout =>
          .node fun info =>
            congr(Tree.forkJoin $(info.alike) $(forked.ofList.alike) $(join.alike) $(timeout.alike))
  clear_value node node'
  exact .iteOf opening.missing_eq (hn ⟨[], [], rfl⟩) (.bind follows_workers hn)

/-! ## Errors -/

theorem follows_catchClause : Follows L catchClause catchClause :=
  .bind follows_mark fun _ => .bind follows_bump fun _ => .bind (follows_binding _) fun x =>
    x.pair fun type name => .bind (.call _) fun body => .node fun info =>
      congr(Tree.catchClause $(info.alike) $(type.alike) $(name.alike) $(body.alike))

theorem follows_finallyClause : Follows L finallyClause finallyClause :=
  .bind (follows_keywordBlock _) fun x => x.pair fun info body =>
    .done congr(Tree.finallyClause $(info.alike) $(body.alike))

theorem follows_tryStatement : Follows L tryStatement tryStatement := by
  refine .bind follows_mark fun m => .bind follows_bump fun _ => .bind (.call _) fun body => ?_
  refine .bind (.many ?clause) fun catches => ?_
  case clause => exact .see (sees_goesOn _) fun here => .ite (.item follows_catchClause) (.done rfl)
  refine .bind (follows_whenever (sees_goesOn _).follows follows_finallyClause) fun last => ?_
  extract_lets node node'
  have hn : Follows L (node ()) (node' ()) := .node fun info =>
    congr(Tree.tryCatch $(info.alike) $(body.alike) $(catches.ofList.alike) $(last.alike))
  clear_value node node'
  have hc : (catches.first.isEmpty && last.first.toOption.isNone) =
      (catches.second.isEmpty && last.second.toOption.isNone) :=
    congrArg₂ (· && ·) catches.isEmpty_eq last.toOption.isNone_eq
  exact .iteOf hc (.bind (follows_errorExpected _) fun _ => hn) hn

/-! ## Transactions -/

theorem follows_transactionProperty : Follows L transactionProperty transactionProperty :=
  .bind follows_mark fun _ => .bind (follows_expectAny _ _) fun keyword =>
    .bind (follows_expect _) fun _ => .bind (.call _) fun value => .node fun info =>
      congr(Tree.transactionProperty $(info.alike) $(keyword.alike) $(value.alike))

theorem follows_onRetryClause : Follows L onRetryClause onRetryClause :=
  .bind (follows_keywordBlock _) fun x => x.pair fun info body =>
    .done congr(Tree.onRetryClause $(info.alike) $(body.alike))

theorem follows_transactionStatement : Follows L transactionStatement transactionStatement := by
  refine .bind follows_mark fun m => .bind follows_bump fun _ => .give (follows_accept _) fun _ => ?_
  extract_lets node node'
  have hn : ∀ properties : Twins L (List (Tree .transactionProperty)),
      Follows L (node properties.first) (node' properties.second) := fun properties =>
    .bind (.call _) fun body =>
      .bind (follows_whenever (sees_goesOn _).follows follows_onRetryClause) fun onRetry =>
        .node fun info => congr(Tree.transaction $(info.alike) $(properties.ofList.alike)
          $(body.alike) $(onRetry.alike))
  clear_value node node'
  exact .ite (.bind (follows_commaList follows_transactionProperty) hn) (hn ⟨[], [], rfl⟩)

end BallerinaSyntax
