import BallerinaSyntax.Proofs.Grouping.Reference
import BallerinaSyntax.Grammar.Query

/-! Streaming queries and table queries are well grouped. -/

namespace BallerinaSyntax

open Condition Grammar Parse

/-! ## Inputs -/

theorem yields_whereClause : Yields whereClause :=
  .skip fun _ => .skip fun _ => .bind yields_expression fun _ hc => .skip fun _ => .done ⟨trivial, hc⟩

theorem yields_optionalWhere : Yields optionalWhere := yields_whenever yields_whereClause

theorem yields_windowClause : Yields windowClause :=
  .skip fun _ => .skip fun _ => .bind yields_invocation fun _ hc => .skip fun _ => .done ⟨trivial, hc⟩

theorem yields_streamFunctions : Yields streamFunctions := by
  refine .bind (.many ?call) fun calls hcalls => .done (wellGrouped_ofList hcalls)
  refine .skip fun qualified => .skip fun named => .skip fun called => ?_
  exact .ite (.item yields_invocation) (.done trivial)

theorem yields_streamingInput : Yields streamingInput := by
  refine .skip fun m => .bind yields_reference fun stream hstream => ?_
  refine .bind yields_optionalWhere fun preFilter hpreFilter => ?_
  refine .bind yields_streamFunctions fun preFunctions hpreFunctions => ?_
  refine .bind (yields_whenever yields_windowClause) fun window hwindow => ?_
  refine .bind yields_streamFunctions fun postFunctions hpostFunctions => ?_
  refine .bind yields_optionalWhere fun postFilter hpostFilter => .skip fun asName => ?_
  refine .skip fun info => .done ?_
  exact ⟨trivial, hstream, hpreFilter, hpreFunctions, hwindow, hpostFunctions, hpostFilter⟩

/-! ## Patterns -/

theorem yields_patternEdge : Yields patternEdge := by
  refine .skip fun m => .bind yields_reference fun stream hstream => ?_
  refine .bind yields_optionalWhere fun filter hfilter => ?_
  refine .bind (yields_whenever yields_intRange) fun count hcount => .skip fun asName => ?_
  exact .skip fun info => .done ⟨trivial, hstream, hfilter, hcount⟩

theorem yields_groupedPattern (m : Mark) : Yields (groupedPattern m) := by
  refine .skip fun opening => .bind yields_pattern fun inner hinner => .skip fun close => ?_
  exact .skip fun info => .done ⟨trivial, hinner⟩

theorem yields_negatedPattern (m : Mark) : Yields (negatedPattern m) := by
  refine .skip fun keyword => .bind yields_patternEdge fun edge hedge => ?_
  refine .skip fun andNext => .ite ?other <| .skip fun forNext => .ite ?duration ?neither
  case other =>
    refine .bind yields_patternEdge fun other hother => ?_
    exact .skip fun info => .done ⟨trivial, hedge, trivial, hother⟩
  case duration =>
    refine .skip fun duration => .skip fun scale => ?_
    exact .skip fun info => .done ⟨trivial, hedge, wellGrouped_absent⟩
  case neither =>
    exact .skip fun reported => .skip fun info => .done ⟨trivial, hedge, wellGrouped_absent⟩

theorem yields_sequencePattern (m : Mark) : Yields (sequencePattern m) := by
  refine .bind yields_patternEdge fun left hleft => .skip fun k => ?_
  have followed : Yields (pattern >>= fun right => finish m .followedByPattern >>= fun info =>
      pure (Tree.followedBy info left right)) := by
    refine .bind yields_pattern fun right hright => ?_
    exact .skip fun info => .done ⟨trivial, hleft, hright⟩
  have combined : Yields (do
      let operator ← bump
      let right ← patternEdge
      return Tree.logicalPattern (← finish m .logicalPattern) left operator right) := by
    refine .skip fun operator => .bind yields_patternEdge fun right hright => ?_
    exact .skip fun info => .done ⟨trivial, hleft, hright⟩
  split
  · exact .skip fun word => .ite (.skip fun byWord => followed) followed
  · exact .skip fun comma => .ite (.skip fun byWord => followed) followed
  · exact combined
  · exact combined
  · exact .done ⟨trivial, hleft⟩

theorem yields_patternBody : Yields patternBody := by
  refine .skip fun m => .skip fun k => ?_
  split
  · exact yields_groupedPattern m
  · exact yields_negatedPattern m
  · exact yields_sequencePattern m

theorem yields_patternClause : Yields patternClause := by
  refine .skip fun _ => .skip fun _ => .bind yields_pattern fun _ hp => .skip fun _ => ?_
  extract_lets node
  have hn : ∀ within, Yields (node within) := fun _ => .skip fun _ => .done ⟨trivial, hp⟩
  clear_value node
  exact .ite (.skip fun _ => hn _) (hn _)

/-! ## Joins -/

theorem yields_joinInput : Yields joinInput := by
  refine .skip fun m => .skip fun before => .skip fun type => ?_
  extract_lets node
  have hnode : ∀ unidirectional, Yields (node unidirectional) := fun unidirectional => by
    refine .bind yields_streamingInput fun input hinput => .skip fun word => ?_
    refine .bind yields_expression fun condition hcondition => ?_
    exact .skip fun info => .done ⟨trivial, hinput, hcondition⟩
  clear_value node
  exact .ite (hnode _) (.skip hnode)

theorem yields_optionalJoin : Yields optionalJoin := yields_whenever yields_joinInput

/-! ## Selection -/

theorem yields_selectItem : Yields selectItem := by
  refine .skip fun m => .bind yields_expression fun value hvalue => .skip fun asName => ?_
  exact .skip fun info => .done ⟨trivial, hvalue⟩

theorem yields_groupByClause : Yields groupByClause := by
  refine .skip fun m => .skip fun keyword => .skip fun word => ?_
  refine .bind (yields_commaList yields_reference) fun references hreferences => ?_
  exact .skip fun info => .done ⟨trivial, wellGrouped_ofList hreferences⟩

theorem yields_havingClause : Yields havingClause :=
  .skip fun _ => .skip fun _ => .bind yields_expression fun _ hc => .skip fun _ => .done ⟨trivial, hc⟩

theorem yields_selectClause : Yields selectClause := by
  refine .skip fun m => .skip fun keyword => .skip fun star => ?_
  extract_lets node
  have hnode : ∀ items, wellGrouped items → Yields (node items) := fun items hitems => by
    refine .bind (yields_whenever yields_groupByClause) fun groupBy hgroupBy => ?_
    refine .bind (yields_whenever yields_havingClause) fun having hhaving => ?_
    exact .skip fun info => .done ⟨trivial, wellGrouped_ofList hitems, hgroupBy, hhaving⟩
  clear_value node
  exact .ite (hnode _ wellGrouped_nil) (.bind (yields_commaList yields_selectItem) hnode)

theorem yields_optionalSelect : Yields optionalSelect := yields_whenever yields_selectClause

theorem yields_orderByItem : Yields orderByItem := by
  refine .skip fun _ => .bind yields_reference fun _ hr => .skip fun _ => ?_
  extract_lets node
  have hn : ∀ direction, Yields (node direction) := fun _ => .skip fun _ => .done ⟨trivial, hr⟩
  clear_value node
  exact .ite (.skip fun _ => hn _) (hn _)

theorem yields_orderByClause : Yields orderByClause := by
  refine .skip fun m => .skip fun keyword => .skip fun word => ?_
  refine .bind (yields_commaList yields_orderByItem) fun items hitems => ?_
  exact .skip fun info => .done ⟨trivial, wellGrouped_ofList hitems⟩

theorem yields_optionalOrderBy : Yields optionalOrderBy := yields_whenever yields_orderByClause

/-! ## Queries -/

theorem yields_streamingAction : Yields streamingAction := by
  refine .skip fun m => .skip fun arrow => .bind yields_parameterList fun parameters hparameters => ?_
  refine .bind yields_block fun body hbody => ?_
  exact .skip fun info => .done ⟨trivial, hparameters, hbody⟩

theorem yields_querySource : Yields querySource := by
  refine .skip fun patterned => .ite ?pattern ?input
  case pattern => exact .bind yields_patternClause fun source hsource => .done ⟨trivial, hsource⟩
  case input =>
    refine .bind yields_streamingInput fun input hinput => ?_
    exact .bind yields_optionalJoin fun join hjoin => .done ⟨trivial, hinput, hjoin⟩

theorem yields_streamingQuery : Yields streamingQuery := by
  refine .skip fun m => .skip fun keyword => .bind yields_querySource fun source hsource => ?_
  refine .bind yields_optionalSelect fun select hselect => ?_
  refine .bind yields_optionalOrderBy fun orderBy horderBy => .skip fun limited => ?_
  extract_lets node
  have hnode : ∀ rateLimit, Yields (node rateLimit) := fun rateLimit => by
    refine .bind yields_streamingAction fun action haction => ?_
    exact .skip fun info => .done ⟨trivial, hsource, hselect, horderBy, haction⟩
  clear_value node
  exact .ite (.skip fun rateLimit => hnode _) (hnode _)

theorem gives_tableQuery : Gives any tableQuery unapplied := by
  refine .skip fun m => .skip fun keyword => .after yields_streamingInput fun input hinput => ?_
  refine .after yields_optionalJoin fun join hjoin => ?_
  refine .after yields_optionalSelect fun select hselect => ?_
  refine .after yields_optionalOrderBy fun orderBy horderBy => .skip fun limited => ?_
  extract_lets node
  have hnode : ∀ limit, Gives any (node limit) unapplied := fun limit =>
    .skip fun info => .done fun _ _ _ => ⟨⟨trivial, hinput, hjoin, hselect, horderBy⟩, rfl⟩
  clear_value node
  exact .ite (fun _ => .skip fun limit => hnode _) fun _ => hnode _

theorem yields_streamingQueries : Yields streamingQueries := by
  refine .bind (.withRecovery (.loop wellGrouped_empty fun queries hqueries => ?round))
    fun queries hqueries => .done hqueries
  refine .skip fun ended => .ite (.done hqueries) <| .skip fun fromNext => .ite ?query ?skipped
  case query =>
    refine .bind yields_streamingQuery fun query hquery => .done ?_
    exact (wellGrouped_push queries query).mpr ⟨hqueries, hquery⟩
  case skipped =>
    exact .skip fun count => .ite (.skip fun reported => .done hqueries) (.done hqueries)

theorem yields_foreverStatement : Yields foreverStatement := by
  refine .skip fun m => .skip fun keyword => .skip fun opening => ?_
  extract_lets node
  have hnode : ∀ queries, wellGrouped queries → Yields (node queries) := fun queries hqueries => by
    have htree : ∀ info, wellGrouped (Tree.forever info (.ofList queries)) := fun info =>
      ⟨trivial, wellGrouped_ofList hqueries⟩
    refine .ite ?empty (.skip fun close => .skip fun info => .done (htree _))
    exact .skip fun reported => .skip fun close => .skip fun info => .done (htree _)
  clear_value node
  exact .ite (hnode _ wellGrouped_nil) (.bind yields_streamingQueries hnode)

end BallerinaSyntax
