import BallerinaSyntax.Proofs.Following.Reference
import BallerinaSyntax.Proofs.Following.Signature
import BallerinaSyntax.Grammar.Query

/-! Streams, patterns and queries in two units that look alike. -/

namespace BallerinaSyntax

open Grammar Parse

variable {L : Likeness}

/-! ## Inputs -/

theorem follows_whereClause : Follows L whereClause whereClause :=
  .bind follows_mark fun _ => .bind follows_bump fun _ => .bind (.call _) fun condition =>
    .node fun info => congr(Tree.whereClause $(info.alike) $(condition.alike))

theorem follows_optionalWhere : Follows L optionalWhere optionalWhere :=
  follows_whenever (sees_atKind _).follows follows_whereClause

theorem follows_windowClause : Follows L windowClause windowClause :=
  .bind follows_mark fun _ => .bind follows_bump fun _ => .bind follows_invocation fun call =>
    .node fun info => congr(Tree.windowClause $(info.alike) $(call.alike))

theorem follows_streamFunctions : Follows L streamFunctions streamFunctions := by
  refine .bind (.many ?call) fun calls => .done calls.ofList.alike
  refine .see (sees_isQualifiedName _) fun qualified => .see (sees_goesOn _) fun named => ?_
  exact .see (sees_isKind _ _) fun called => .ite (.item follows_invocation) (.done rfl)

theorem follows_streamingInput : Follows L streamingInput streamingInput :=
  .bind follows_mark fun _ => .bind (.call _) fun stream => .bind follows_optionalWhere fun preFilter =>
    .bind follows_streamFunctions fun preFunctions =>
    .bind (follows_whenever (sees_atKind _).follows follows_windowClause) fun window =>
    .bind follows_streamFunctions fun postFunctions => .bind follows_optionalWhere fun postFilter =>
    .bind follows_optionalAlias fun asName => .node fun info =>
      congr(Tree.streamingInput $(info.alike) $(stream.alike) $(preFilter.alike)
        $(preFunctions.alike) $(window.alike) $(postFunctions.alike) $(postFilter.alike)
        $(asName.alike))

/-! ## Patterns -/

theorem follows_timeScale : Follows L timeScale timeScale := follows_expectAny ..

theorem follows_patternEdge : Follows L patternEdge patternEdge :=
  .bind follows_mark fun _ => .bind (.call _) fun stream => .bind follows_optionalWhere fun filter =>
    .bind (follows_whenever (sees_atKind _).follows follows_intRange) fun count =>
    .bind follows_optionalAlias fun asName => .node fun info =>
      congr(Tree.patternEdge $(info.alike) $(stream.alike) $(filter.alike) $(count.alike)
        $(asName.alike))

theorem edgeCount_relabel (ρ : Relabelling) (edge : Tree .patternEdge) :
    (edgeCount (relabel ρ edge)).isSome = (edgeCount edge).isSome := by
  cases edge with
  | patternEdge _ _ _ count => cases count <;> rfl

theorem follows_startsPattern : Follows L startsPattern startsPattern := by
  refine .see (sees_atAny _) fun _ => .ite (.done rfl) ?_
  refine follows_foresee (.bind follows_patternEdge fun edge => .see (sees_atAny _) fun _ => .done ?_)
  exact congrArg (· || _) (edge.keep (f := fun edge => (edgeCount edge).isSome) edgeCount_relabel)

theorem follows_groupedPattern (m : Twins L Mark) :
    Follows L (groupedPattern m.first) (groupedPattern m.second) :=
  .bind follows_bump fun opening => .bind (.call _) fun inner =>
    .bind (follows_expectClosing opening _ _) fun _ => .delimited fun info =>
      congr(Tree.groupedPattern $(info.alike) $(inner.alike))

theorem follows_negatedPattern (m : Twins L Mark) :
    Follows L (negatedPattern m.first) (negatedPattern m.second) := by
  refine .bind follows_bump fun _ => .bind follows_patternEdge fun edge =>
    .give (follows_accept _) fun _ => .ite ?_ (.give (follows_accept _) fun _ => .ite ?_ ?_)
  · exact .bind follows_patternEdge fun other => .node fun info =>
      congr(Tree.negatedPattern $(info.alike) $(edge.alike) (.present $(other.alike)) none none)
  · exact .bind follows_simpleLiteral fun duration => .bind follows_timeScale fun scale =>
      .node fun info => congr(Tree.negatedPattern $(info.alike) $(edge.alike) .absent
        (some $(duration.alike)) (some $(scale.alike)))
  · exact .bind (follows_errorExpected _) fun _ => .node fun info =>
      congr(Tree.negatedPattern $(info.alike) $(edge.alike) .absent none none)

theorem follows_sequencePattern (m : Twins L Mark) :
    Follows L (sequencePattern m.first) (sequencePattern m.second) := by
  refine .bind follows_patternEdge fun left => .see (sees_kind 0) fun k => ?_
  split
  case h_1 | h_2 =>
    refine .bind follows_bump fun separator => ?_
    extract_lets rest rest'
    have hr : Follows L (rest ()) (rest' ()) := .bind (.call _) fun right => .node fun info =>
      congr(Tree.followedBy $(info.alike) $(left.alike) $(right.alike))
    clear_value rest rest'
    exact .iteOf (congrArg (· == Kind.followedKeyword) separator.kind_eq)
      (.bind (follows_expect _) fun _ => hr) hr
  case h_3 | h_4 =>
    exact .bind follows_bump fun operator => .bind follows_patternEdge fun right => .node fun info =>
      congr(Tree.logicalPattern $(info.alike) $(left.alike) $(operator.alike) $(right.alike))
  case h_5 => exact .done congr(Tree.edgePattern $(left.alike))

theorem follows_patternBody : Follows L patternBody patternBody := by
  refine .bind follows_mark fun m => .see (sees_kind 0) fun k => ?_
  split
  · exact follows_groupedPattern m
  · exact follows_negatedPattern m
  · exact follows_sequencePattern m

theorem follows_withinClause : Follows L withinClause withinClause :=
  .bind follows_mark fun _ => .bind follows_bump fun _ => .bind (follows_expect _) fun duration =>
    .bind follows_timeScale fun scale => .node fun info =>
      congr(WithinClause.mk $(info.alike) $(duration.alike) $(scale.alike))

theorem follows_patternClause : Follows L patternClause patternClause := by
  refine .bind follows_mark fun m => .bind (follows_optional _) fun every =>
    .bind (.call _) fun input => .see (sees_atKind _) fun _ => ?_
  extract_lets node node'
  have hn : ∀ within : Twins L (Option WithinClause),
      Follows L (node within.first) (node' within.second) := fun within => .node fun info =>
    congr(Tree.patternClause $(info.alike) $(every.alike) $(input.alike) $(within.alike))
  clear_value node node'
  exact .ite (.bind follows_withinClause fun within => hn within.some) (hn .none)

/-! ## Joins -/

theorem follows_joinKind : Follows L joinKind joinKind := by
  refine .see (sees_kind 0) fun k => ?_
  split
  case h_1 | h_2 | h_3 =>
    exact .bind follows_bump fun side => .bind (follows_expect _) fun _ =>
      .done (congrArg joinKindOfSide side.kind_eq)
  case h_4 | h_5 => exact .bind follows_bump fun _ => .done rfl
  case h_6 => exact .done rfl

theorem follows_joinType : Follows L joinType joinType :=
  .bind follows_mark fun _ => .give follows_joinKind fun kind => .bind (follows_expect _) fun _ =>
    .node fun info => congr(JoinType.mk $(info.alike) kind)

theorem follows_joinInput : Follows L joinInput joinInput := by
  refine .bind follows_mark fun m => .bind (follows_optional _) fun before =>
    .bind follows_joinType fun type => ?_
  extract_lets node node'
  have hn : ∀ unidirectional : Twins L (Option Leaf),
      Follows L (node unidirectional.first) (node' unidirectional.second) := fun unidirectional =>
    .bind follows_streamingInput fun input => .bind (follows_expect _) fun _ =>
      .bind (.call _) fun condition => .node fun info => congr(Tree.joinInput $(info.alike)
        $(unidirectional.alike) $(type.alike) $(input.alike) $(condition.alike))
  clear_value node node'
  exact .iteOf before.isSome_eq (hn before) (.bind (follows_optional _) hn)

theorem follows_optionalJoin : Follows L optionalJoin optionalJoin :=
  follows_whenever (.see (sees_kind 0) fun _ => .done rfl) follows_joinInput

/-! ## Selection -/

theorem follows_selectItem : Follows L selectItem selectItem :=
  .bind follows_mark fun _ => .bind (.call _) fun value => .bind follows_optionalAlias fun asName =>
    .node fun info => congr(Tree.selectItem $(info.alike) $(value.alike) $(asName.alike))

theorem follows_groupByClause : Follows L groupByClause groupByClause :=
  .bind follows_mark fun _ => .bind follows_bump fun _ => .bind (follows_expect _) fun _ =>
    .bind (follows_commaList (.call _)) fun references => .node fun info =>
      congr(Tree.groupByClause $(info.alike) $(references.ofList.alike))

theorem follows_havingClause : Follows L havingClause havingClause :=
  .bind follows_mark fun _ => .bind follows_bump fun _ => .bind (.call _) fun condition =>
    .node fun info => congr(Tree.havingClause $(info.alike) $(condition.alike))

theorem follows_selectClause : Follows L selectClause selectClause := by
  refine .bind follows_mark fun m => .bind follows_bump fun _ => .bind (follows_optional _) fun star => ?_
  extract_lets node node'
  have hn : ∀ items : Twins L (List (Tree .selectItem)),
      Follows L (node items.first) (node' items.second) := fun items =>
    .bind (follows_whenever (sees_atKind _).follows follows_groupByClause) fun groupBy =>
      .bind (follows_whenever (sees_atKind _).follows follows_havingClause) fun having =>
        .node fun info => congr(Tree.selectClause $(info.alike) $(star.alike) $(items.ofList.alike)
          $(groupBy.alike) $(having.alike))
  clear_value node node'
  exact .iteOf star.isSome_eq (hn ⟨[], [], rfl⟩) (.bind (follows_commaList follows_selectItem) hn)

theorem follows_optionalSelect : Follows L optionalSelect optionalSelect :=
  follows_whenever (sees_atKind _).follows follows_selectClause

theorem follows_orderByItem : Follows L orderByItem orderByItem := by
  refine .bind follows_mark fun m => .bind (.call _) fun key => .see (sees_atAny _) fun _ => ?_
  extract_lets node node'
  have hn : ∀ direction : Twins L (Option Leaf),
      Follows L (node direction.first) (node' direction.second) := fun direction => .node fun info =>
    congr(Tree.orderByItem $(info.alike) $(key.alike) $(direction.alike))
  clear_value node node'
  exact .ite (.bind follows_bump fun direction => hn direction.some) (hn .none)

theorem follows_orderByClause : Follows L orderByClause orderByClause :=
  .bind follows_mark fun _ => .bind follows_bump fun _ => .bind (follows_expect _) fun _ =>
    .bind (follows_commaList follows_orderByItem) fun items => .node fun info =>
      congr(Tree.orderByClause $(info.alike) $(items.ofList.alike))

theorem follows_optionalOrderBy : Follows L optionalOrderBy optionalOrderBy :=
  follows_whenever (sees_atKind _).follows follows_orderByClause

/-! ## Output -/

theorem follows_outputRateLimit : Follows L outputRateLimit outputRateLimit := by
  refine .bind follows_mark fun m => .bind follows_bump fun _ =>
    .bind (follows_optional _) fun snapshot => .see (sees_atAny _) fun _ => ?_
  extract_lets rest rest'
  have hr : ∀ selector : Twins L (Option Leaf),
      Follows L (rest selector.first) (rest' selector.second) := fun selector => by
    refine .bind (follows_expect _) fun _ => .bind (follows_expect _) fun amount => ?_
    extract_lets node node'
    have hn : ∀ unit : Twins L Leaf, Follows L (node unit.first) (node' unit.second) := fun unit =>
      .node fun info => congr(OutputRateLimit.mk $(info.alike) $(selector.alike) $(snapshot.alike)
        $(amount.alike) $(unit.alike))
    clear_value node node'
    exact .iteOf snapshot.isSome_eq (.bind follows_timeScale hn) (.bind (follows_expectAny _ _) hn)
  clear_value rest rest'
  exact .iteOf (congrArg (· && _) snapshot.isNone_eq)
    (.bind follows_bump fun selector => hr selector.some) (hr .none)

theorem follows_streamingAction : Follows L streamingAction streamingAction :=
  .bind follows_mark fun _ => .bind (follows_expect _) fun _ =>
    .bind follows_parameterList fun parameters => .bind (.call _) fun body => .node fun info =>
      congr(Tree.streamingAction $(info.alike) $(parameters.alike) $(body.alike))

/-! ## Queries -/

theorem follows_querySource : Follows L querySource querySource := by
  refine .give follows_startsPattern fun _ => .ite ?_ ?_
  · exact .bind follows_patternClause fun clause => .done congr(Tree.querySourcePattern $(clause.alike))
  · exact .bind follows_streamingInput fun input => .bind follows_optionalJoin fun join =>
      .done congr(Tree.querySourceInput $(input.alike) $(join.alike))

theorem follows_streamingQuery : Follows L streamingQuery streamingQuery := by
  refine .bind follows_mark fun m => .bind follows_bump fun _ => .bind follows_querySource fun source => ?_
  refine .bind follows_optionalSelect fun select => .bind follows_optionalOrderBy fun orderBy => ?_
  refine .see (sees_atKind _) fun limited => ?_
  extract_lets node node'
  have hn : ∀ limit : Twins L (Option OutputRateLimit),
      Follows L (node limit.first) (node' limit.second) := fun limit =>
    .bind follows_streamingAction fun action => .node fun info =>
      congr(Tree.streamingQuery $(info.alike) $(source.alike) $(select.alike) $(orderBy.alike)
        $(limit.alike) $(action.alike))
  clear_value node node'
  exact .ite (.bind follows_outputRateLimit fun limit => hn limit.some) (hn .none)

theorem follows_limitClause : Follows L limitClause limitClause :=
  .bind follows_mark fun _ => .bind follows_bump fun _ => .bind (follows_expect _) fun count =>
    .node fun info => congr(LimitClause.mk $(info.alike) $(count.alike))

theorem follows_tableQuery : Follows L tableQuery tableQuery := by
  refine .bind follows_mark fun m => .bind follows_bump fun _ => ?_
  refine .bind follows_streamingInput fun input => .bind follows_optionalJoin fun join => ?_
  refine .bind follows_optionalSelect fun select => .bind follows_optionalOrderBy fun orderBy => ?_
  refine .see (sees_atKind _) fun limited => ?_
  extract_lets node node'
  have hn : ∀ limit : Twins L (Option LimitClause),
      Follows L (node limit.first) (node' limit.second) := fun limit => .node fun info =>
    congr(Tree.tableQuery $(info.alike) $(input.alike) $(join.alike) $(select.alike)
      $(orderBy.alike) $(limit.alike))
  clear_value node node'
  exact .ite (.bind follows_limitClause fun limit => hn limit.some) (hn .none)

theorem follows_streamingQueries : Follows L streamingQueries streamingQueries := by
  refine .bind (.withRecovery <| .loop Likeness.alike_empty fun read => ?round)
    fun read => .done read.toList.alike
  have again : L.Alike (Turn.again read.first : Turn _ (Array (Tree .streamingQuery)))
      (Turn.again read.second) := congr(Turn.again $(read.alike))
  refine .see (sees_atListEnd _) fun ended => .ite (.done congr(Turn.stop $(read.alike))) ?_
  refine .see (sees_atKind _) fun fromNext => .ite ?query ?skipped
  case query =>
    exact .bind follows_streamingQuery fun query => .done congr(Turn.again $((read.push query).alike))
  case skipped =>
    refine .give (follows_skipUntil _ _) fun count => .ite ?_ (.done again)
    exact .bind (follows_bumpUnexpected _) fun _ => .done again

theorem follows_foreverStatement : Follows L foreverStatement foreverStatement := by
  refine .bind follows_mark fun m => .bind follows_bump fun _ => .bind (follows_expect _) fun opening => ?_
  extract_lets rest rest'
  have hr : ∀ queries : Twins L (List (Tree .streamingQuery)),
      Follows L (rest queries.first) (rest' queries.second) := fun queries => by
    unfold rest rest'
    extract_lets node node'
    have hn : Follows L (node ()) (node' ()) := .bind (follows_expectClosing opening _ _) fun _ =>
      .delimited fun info => congr(Tree.forever $(info.alike) $(queries.ofList.alike))
    clear_value node node'
    have hc : (queries.first.isEmpty && !opening.first.missing) =
        (queries.second.isEmpty && !opening.second.missing) := by
      rw [queries.isEmpty_eq, opening.missing_eq]
    exact .iteOf hc (.bind (follows_errorExpected _) fun _ => hn) hn
  clear_value rest rest'
  exact .iteOf opening.missing_eq (hr ⟨[], [], rfl⟩) (.bind follows_streamingQueries hr)

end BallerinaSyntax
