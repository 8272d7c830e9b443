import BallerinaSyntax.Proofs.Reading.Reference
import BallerinaSyntax.Proofs.Reading.Signature
import BallerinaSyntax.Grammar.Query

/-! The contracts of streaming queries and table queries. -/

namespace BallerinaSyntax

open Parse Condition Grammar

theorem reads_whenAt {c : Category} (k : Kind) {p : Parse (Tree c)} (hp : Reads p) :
    Reads (whenever (atKind k) p) :=
  reads_whenever (.look (looks_atKind _) fun _ => rfl) hp

/-! ## Inputs -/

theorem reads_whereClause : Reads whereClause :=
  .marked fun _ => .skipBump fun _ => .bind reads_expression fun _ => .node (fun _ => rfl) (by simp)

theorem reads_optionalWhere : Reads optionalWhere := reads_whenAt _ reads_whereClause

theorem reads_windowClause : Reads windowClause :=
  .marked fun _ => .skipBump fun _ => .bind reads_invocation fun _ => .node (fun _ => rfl) (by simp)

theorem reads_streamFunctions : Reads streamFunctions := by
  refine .of fun m => .bind (.many ?call) fun calls => .done (by simp)
  refine .of fun m => .look (looks_isQualifiedName 0) fun qualified => ?_
  refine .look (looks_goesOn _) fun named => .look (looks_isKind _ _) fun called => ?_
  refine .ite (fun _ => ?_) fun _ => .done (by simp)
  exact .bind reads_invocation fun call => .done (by simp)

theorem reads_streamingInput : Reads streamingInput := by
  refine .marked fun m => .bind reads_reference fun stream => ?_
  refine .bind reads_optionalWhere fun preFilter => .bind reads_streamFunctions fun preFunctions => ?_
  refine .bind (reads_whenAt _ reads_windowClause) fun window => ?_
  refine .bind reads_streamFunctions fun postFunctions => .bind reads_optionalWhere fun postFilter => ?_
  exact .bind reads_optionalAlias fun asName => .node (fun _ => rfl) (by simp)

/-! ## Patterns -/

theorem reads_timeScale : Reads timeScale := reads_expectAny _ rfl

theorem reads_patternEdge : Reads patternEdge :=
  .marked fun _ => .bind reads_reference fun _ => .bind reads_optionalWhere fun _ =>
    .bind (reads_whenAt _ reads_intRange) fun _ => .bind reads_optionalAlias fun _ =>
    .node (fun _ => rfl) (by simp)

theorem reads_startsPattern : Reads startsPattern :=
  .of fun _ => .look (looks_atAny _) fun _ => .ite (fun _ => .done (by simp)) fun _ =>
    reads_foresee _ _ _

theorem builds_groupedPattern (m : Mark) : Builds m [] any (groupedPattern m) :=
  .skipBump fun _ => .bind reads_pattern fun _ => .bind (reads_expectClosing _ _ nofun) fun _ =>
    .delimited (fun _ => rfl) (by simp)

theorem builds_negatedPattern (m : Mark) : Builds m [] any (negatedPattern m) := by
  refine .skipBump fun keyword => .bind reads_patternEdge fun edge => ?_
  refine .skip (reads_accept _) fun andNext => .ite (fun _ => ?other) fun _ => ?_
  case other => exact .bind reads_patternEdge fun other => .node (fun _ => rfl) (by simp)
  refine .skip (reads_accept _) fun forNext => .ite (fun _ => ?duration) fun _ => ?neither
  case duration =>
    refine .bind reads_simpleLiteral fun duration => .bind reads_timeScale fun scale => ?_
    exact .node (fun _ => rfl) (by simp)
  case neither => exact .skip (reads_errorExpected _) fun _ => .node (fun _ => rfl) (by simp)

@[simp] theorem pieces_edgePattern (t : Tree .patternEdge) : pieces (Tree.edgePattern t) = pieces t :=
  rfl

theorem builds_sequencePattern (m : Mark) : Builds m [] any (sequencePattern m) := by
  refine .bind reads_patternEdge fun left => .look (looks_kind 0) fun k => ?_
  have followed : Builds m (pieces left) any (pattern >>= fun right =>
      finish m .followedByPattern >>= fun info => pure (Tree.followedBy info left right)) :=
    .bind reads_pattern fun _ => .node (fun _ => rfl) (by simp)
  have sequence : ∀ P, Builds m ([] ++ pieces left) P (bump >>= fun first =>
      if first.kind == .followedKeyword then expect .byKeyword >>= fun _ =>
        pattern >>= fun right =>
          finish m .followedByPattern >>= fun info => pure (Tree.followedBy info left right)
      else pattern >>= fun right =>
        finish m .followedByPattern >>= fun info => pure (Tree.followedBy info left right)) :=
    fun P => .skipBump fun _ => .ite (fun _ => .skip (reads_expect nofun) fun _ => followed)
      fun _ => followed
  have logical : k ≠ .endOfFileToken →
      Builds m ([] ++ pieces left) (fun scope s => any scope s ∧ scope.kindAt s 0 = k)
        (bump >>= fun operator => patternEdge >>= fun right =>
          finish m .logicalPattern >>= fun info =>
            pure (Tree.logicalPattern info left operator right)) := fun hk =>
    .bump (fun _ _ => solid_of_kind hk) fun _ => .bind reads_patternEdge fun _ =>
      .node (fun _ => rfl) (by simp)
  split
  · exact sequence _
  · exact sequence _
  · exact logical (by simp)
  · exact logical (by simp)
  · exact .done (by simp)

theorem reads_patternBody : Reads patternBody := by
  refine .marked fun m => .look (looks_kind 0) fun k => ?_
  split
  · exact (builds_groupedPattern m).onward (by simp)
  · exact (builds_negatedPattern m).onward (by simp)
  · exact (builds_sequencePattern m).onward (by simp)

theorem reads_withinClause : Reads withinClause :=
  .marked fun _ => .skipBump fun _ => .bind (reads_expect nofun) fun _ => .bind reads_timeScale
    fun _ => .node (fun _ => rfl) (by simp)

theorem reads_patternClause : Reads patternClause := by
  refine .marked fun m => .bind (reads_optional nofun) fun every => .bind reads_pattern fun input =>
    .look (looks_atKind _) fun _ => ?_
  extract_lets node
  have hn : ∀ within, Builds m (pieces every ++ pieces input ++ pieces within) any (node within) :=
    fun _ => .node (fun _ => rfl) (by simp)
  clear_value node
  refine .ite (fun _ => ?_) fun _ => .give ((hn _).onward (by simp))
  exact .bind reads_withinClause fun _ => .give ((hn _).onward (by simp))

/-! ## Joins -/

instance : HasParts JoinKind := ⟨fun _ => .nil⟩

@[simp] theorem pieces_joinKind (k : JoinKind) : pieces k = [] := rfl

theorem reads_joinKind : Reads joinKind := by
  refine .of fun m => .look (looks_kind 0) fun k => ?_
  have side : ∀ P, Builds m [] P (bump >>= fun side => expect .outerKeyword >>= fun _ =>
      pure (joinKindOfSide side.kind)) := fun P =>
    .skipBump fun _ => .skip (reads_expect nofun) fun _ => .done (by simp)
  split
  · exact side _
  · exact side _
  · exact side _
  · exact .skipBump fun _ => .done (by simp)
  · exact .skipBump fun _ => .done (by simp)
  · exact .done (by simp)

theorem reads_joinType : Reads joinType :=
  .marked fun _ => .skip reads_joinKind fun _ => .skip (reads_expect nofun) fun _ =>
    .node (fun _ => rfl) (by simp)

theorem reads_joinInput : Reads joinInput := by
  refine .marked fun m => .bind (reads_optional nofun) fun before => .bind reads_joinType fun type => ?_
  extract_lets node
  have hn : ∀ unidirectional, Builds m (pieces unidirectional ++ pieces type) any
      (node unidirectional) := fun _ =>
    .bind reads_streamingInput fun _ => .skip (reads_expect nofun) fun _ => .bind reads_expression
      fun _ => .node (fun _ => rfl) (by simp)
  clear_value node
  refine .ite (fun _ => .give ((hn _).onward (by simp))) fun h => .bind (reads_optional nofun) fun _ =>
    (hn _).onward ?_
  have : before = none := by simpa using h
  simpa [this] using subperm_insert [] (pieces type) _

theorem reads_optionalJoin : Reads optionalJoin :=
  reads_whenever (.of fun _ => .look (looks_kind 0) fun _ => .done (by simp)) reads_joinInput

/-! ## Selection -/

theorem reads_selectItem : Reads selectItem :=
  .marked fun _ => .bind reads_expression fun _ => .bind reads_optionalAlias fun _ =>
    .node (fun _ => rfl) (by simp)

theorem reads_groupByClause : Reads groupByClause :=
  .marked fun _ => .skipBump fun _ => .skip (reads_expect nofun) fun _ =>
    .bind (reads_commaList reads_reference) fun _ => .node (fun _ => rfl) (by simp)

theorem reads_havingClause : Reads havingClause :=
  .marked fun _ => .skipBump fun _ => .bind reads_expression fun _ => .node (fun _ => rfl) (by simp)

theorem reads_selectClause : Reads selectClause := by
  refine .marked fun m => .skipBump fun _ => .bind (reads_optional nofun) fun star => ?_
  extract_lets node
  have hn : ∀ items, Builds m (pieces star ++ pieces items) any (node items) := fun _ =>
    .bind (reads_whenAt _ reads_groupByClause) fun _ => .bind (reads_whenAt _ reads_havingClause)
      fun _ => .node (fun _ => rfl) (by simp)
  clear_value node
  refine .ite (fun _ => .give ((hn _).onward (by simp))) fun _ => ?_
  exact .bind (reads_commaList reads_selectItem) fun _ => (hn _).onward (by simp)

theorem reads_optionalSelect : Reads optionalSelect := reads_whenAt _ reads_selectClause

theorem reads_orderByItem : Reads orderByItem := by
  refine .marked fun m => .bind reads_reference fun key => .look (looks_atAny _) fun here => ?_
  extract_lets node
  have hn : ∀ direction, Builds m (pieces key ++ pieces direction) any (node direction) := fun _ =>
    .node (fun _ => rfl) (by simp)
  clear_value node
  refine .ite (fun h => ?_) fun _ => .give ((hn _).onward (by simp))
  refine .bump (fun scope s hs he => ?_) fun _ => .give ((hn _).onward (by simp))
  rw [← hs.2, he] at h
  cases h

theorem reads_orderByClause : Reads orderByClause :=
  .marked fun _ => .skipBump fun _ => .skip (reads_expect nofun) fun _ =>
    .bind (reads_commaList reads_orderByItem) fun _ => .node (fun _ => rfl) (by simp)

theorem reads_optionalOrderBy : Reads optionalOrderBy := reads_whenAt _ reads_orderByClause

/-! ## Output -/

theorem reads_outputRateLimit : Reads outputRateLimit := by
  refine .marked fun m => .skipBump fun _ => .bind (reads_optional nofun) fun snapshot =>
    .look (looks_atAny _) fun here => ?_
  extract_lets node
  have hn : ∀ selector, Builds m (pieces snapshot ++ pieces selector) any (node selector) := by
    intro selector
    refine .skip (reads_expect nofun) fun _ => .bind (reads_expect nofun) fun amount => ?_
    exact .ite (fun _ => .bind reads_timeScale fun _ => .node (fun _ => rfl) (by simp)) fun _ =>
      .bind (reads_expectAny _ rfl) fun _ => .node (fun _ => rfl) (by simp)
  clear_value node
  refine .ite (fun h => ?_) fun _ => .give ((hn _).onward (by simp))
  refine .bump (fun scope s hs he => ?_) fun _ => .give ((hn _).onward (by simp))
  rw [← hs.2, he] at h
  simp at h

theorem reads_streamingAction : Reads streamingAction :=
  .marked fun _ => .skip (reads_expect nofun) fun _ => .bind reads_parameterList fun _ =>
    .bind reads_block fun _ => .node (fun _ => rfl) (by simp)

/-! ## Queries -/

@[simp] theorem pieces_querySourcePattern (t : Tree .patternClause) :
    pieces (Tree.querySourcePattern t) = pieces t := rfl

@[simp] theorem pieces_querySourceInput (t : Tree .streamingInput)
    (u : Tree (.option .joinInput)) :
    pieces (Tree.querySourceInput t u) = pieces t ++ pieces u := Forest.trees_append ..

theorem reads_querySource : Reads querySource := by
  refine .of fun m => .skip reads_startsPattern fun patterned => .ite (fun _ => ?pattern) fun _ => ?input
  case pattern => exact .bind reads_patternClause fun source => .done (by simp)
  case input =>
    exact .bind reads_streamingInput fun input => .bind reads_optionalJoin fun join => .done (by simp)

theorem reads_streamingQuery : Reads streamingQuery := by
  refine .marked fun m => .skipBump fun _ => .bind reads_querySource fun source =>
    .bind reads_optionalSelect fun select => .bind reads_optionalOrderBy fun orderBy =>
    .look (looks_atKind _) fun _ => ?_
  extract_lets node
  have hn : ∀ limit, Builds m (pieces source ++ pieces select ++ pieces orderBy ++ pieces limit) any
      (node limit) := fun _ => .bind reads_streamingAction fun _ => .node (fun _ => rfl) (by simp)
  clear_value node
  refine .ite (fun _ => ?_) fun _ => .give ((hn _).onward (by simp))
  exact .bind reads_outputRateLimit fun _ => .give ((hn _).onward (by simp))

theorem reads_limitClause : Reads limitClause :=
  .marked fun _ => .skipBump fun _ => .bind (reads_expect nofun) fun _ => .node (fun _ => rfl) (by simp)

theorem reads_tableQuery : Reads tableQuery := by
  refine .marked fun m => .skipBump fun _ => .bind reads_streamingInput fun input =>
    .bind reads_optionalJoin fun join => .bind reads_optionalSelect fun select =>
    .bind reads_optionalOrderBy fun orderBy => .look (looks_atKind _) fun _ => ?_
  extract_lets node
  have hn : ∀ limit, Builds m (pieces input ++ pieces join ++ pieces select ++ pieces orderBy ++
      pieces limit) any (node limit) := fun _ => .node (fun _ => rfl) (by simp)
  clear_value node
  refine .ite (fun _ => ?_) fun _ => .give ((hn _).onward (by simp))
  exact .bind reads_limitClause fun _ => .give ((hn _).onward (by simp))

theorem reads_streamingQueries : Reads streamingQueries := by
  refine .of fun m => .bind (.withRecovery (.of fun m => .loop (fun read => ?_) List.nil_subperm))
    fun _ => .done (by simp)
  refine .look (looks_atListEnd _) fun _ => .ite (fun _ => .done (by simp)) fun _ =>
    .look (looks_atKind _) fun _ => .ite (fun _ => ?_) fun _ => ?_
  · exact .bind reads_streamingQuery fun _ => .done (by simp)
  · exact .skip (reads_skipUntil _ _) fun _ => .ite
      (fun _ => .skip (reads_bumpUnexpected _) fun _ => .done (by simp)) fun _ => .done (by simp)

theorem reads_foreverStatement : Reads foreverStatement := by
  refine .marked fun m => .skipBump fun _ => .skip (reads_expect nofun) fun opening => ?_
  extract_lets node
  have hn : ∀ queries, Builds m (pieces queries) any (node queries) := by
    intro queries
    have close : Builds m (pieces queries) any (expectClosing opening .closeBraceToken
        "forever block" >>= fun close => finishDelimited m .foreverStatement close >>= fun info =>
          pure (Tree.forever info (.ofList queries))) :=
      .bind (reads_expectClosing _ _ nofun) fun _ => .delimited (fun _ => rfl) (by simp)
    exact .ite (fun _ => .skip (reads_errorExpected _) fun _ => close) fun _ => close
  clear_value node
  refine .ite (fun _ => .give ((hn _).onward (by simp))) fun _ => ?_
  exact .bind reads_streamingQueries fun _ => (hn _).onward (by simp)

end BallerinaSyntax
