import BallerinaSyntax.Proofs.Halting.Reference
import BallerinaSyntax.Proofs.Halting.Signature
import BallerinaSyntax.Grammar.Query

/-! Streaming queries and table queries come to an end. -/

namespace BallerinaSyntax

open Grammar Parse
open Condition (any solid past onward turned)

variable {rank : Nat} {P : Condition}

/-! ## Inputs -/

theorem takes_whereClause : Takes solid whereClause :=
  .mark fun _ => .bump fun _ => .bind halts_expression fun _ => .node

theorem halts_optionalWhere : Halts rank P optionalWhere := takes_whereClause.wheneverAt nofun

theorem takes_windowClause : Takes solid windowClause :=
  .mark fun _ => .bump fun _ => .bind halts_invocation fun _ => .node

theorem halts_streamFunctions : Halts rank P streamFunctions := by
  refine .bind (.many fun s₀ => .skim (looks_isQualifiedName 0) fun _ => .look (looks_goesOn _)
    fun here => .skim (looks_isKind _ _) fun _ => .ite (fun h => ?_) fun _ => ?_) fun _ => .ended
  · simp only [Bool.and_eq_true] at h
    refine .takePast (i := s₀.position) (fun scope s hs => ⟨?_, congrArg State.position hs.1⟩)
      takes_invocation fun _ => .done fun _ _ h => .inl h
    exact beq_iff_eq.mp (Bool.and_eq_true_iff.mp (hs.2.trans h.1)).1
  · exact .done fun _ _ _ => trivial

theorem halts_streamingInput : Halts (rank + 1) P streamingInput := by
  refine .mark fun m => .bind halts_reference fun stream => ?_
  refine .bind halts_optionalWhere fun preFilter => .bind halts_streamFunctions fun preFunctions => ?_
  refine .bind (takes_windowClause.wheneverAt nofun) fun window => ?_
  refine .bind halts_streamFunctions fun postFunctions => .bind halts_optionalWhere fun postFilter => ?_
  exact .bind halts_optionalAlias fun asName => .node

/-! ## Patterns -/

theorem halts_timeScale : Halts rank P timeScale := halts_expectAny _ _

theorem halts_patternEdge : Halts (rank + 2) P patternEdge :=
  .mark fun _ => .bind halts_reference fun _ => .bind halts_optionalWhere fun _ =>
    .bind (halts_whenever (looks_atKind _).halts halts_intRange) fun _ =>
    .bind halts_optionalAlias fun _ => .node

theorem halts_startsPattern : Halts 3 P startsPattern := by
  refine .skim (looks_atAny _) fun _ => .ite (fun _ => .ended) fun _ => ?_
  refine (Settles.foresee (.bind halts_patternEdge fun _ => ?_)).post fun _ _ _ _ => trivial
  exact .skim (looks_atAny _) fun _ => .ended

theorem takes_groupedPattern (m : Mark) : Takes solid (groupedPattern m) :=
  .bump fun _ => .bind halts_pattern fun _ => .bind (halts_expectClosing _ _ _) fun _ => .delimited

theorem takes_negatedPattern (m : Mark) : Takes solid (negatedPattern m) := by
  refine .bump fun keyword => .bind halts_patternEdge fun edge => ?_
  refine .bind (halts_accept _) fun andNext => .ite (fun _ => ?other) fun _ => ?_
  case other => exact .bind halts_patternEdge fun other => .node
  refine .bind (halts_accept _) fun forNext => .ite (fun _ => ?duration) fun _ => ?neither
  case duration =>
    exact .bind halts_simpleLiteral fun duration => .bind halts_timeScale fun scale => .node
  case neither => exact .bind (halts_errorExpected _) fun _ => .node

theorem halts_sequencePattern (m : Mark) : Halts 2 P (sequencePattern m) := by
  refine .bind halts_patternEdge fun left => .look (looks_kind 0) fun k => ?_
  have solid : k ≠ .endOfFileToken → ∀ scope s, any scope s ∧ scope.kindAt s 0 = k → solid scope s :=
    fun hk _ _ h => solid_of_eq h.2 hk
  split
  · refine .bump (solid (by decide)) fun _ => .ite (fun _ => .bind (halts_expect _) fun _ => ?_) fun _ => ?_
    · exact .bind halts_pattern fun _ => .node
    · exact .bind halts_pattern fun _ => .node
  · refine .bump (solid (by decide)) fun _ => .ite (fun _ => .bind (halts_expect _) fun _ => ?_) fun _ => ?_
    · exact .bind halts_pattern fun _ => .node
    · exact .bind halts_pattern fun _ => .node
  · exact .bump (solid (by decide)) fun _ => .bind halts_patternEdge fun _ => .node
  · exact .bump (solid (by decide)) fun _ => .bind halts_patternEdge fun _ => .node
  · exact .ended

theorem halts_patternBody : Halts 2 P patternBody := by
  refine .mark fun m => .look (looks_kind 0) fun k => ?_
  split
  · exact (takes_groupedPattern m).halts fun _ _ h => solid_of_eq h.2 (by decide)
  · exact (takes_negatedPattern m).halts fun _ _ h => solid_of_eq h.2 (by decide)
  · exact halts_sequencePattern m

theorem halts_withinClause : Halts rank P withinClause :=
  .mark fun _ => .bind halts_bump fun _ => .bind (halts_expect _) fun _ => .bind halts_timeScale
    fun _ => .node

theorem halts_patternClause : Halts 3 P patternClause := by
  refine .mark fun m => .bind (halts_optional _) fun _ => .bind halts_pattern fun _ =>
    .skim (looks_atKind _) fun _ => ?_
  extract_lets node
  have hn : ∀ within, Halts 3 any (node within) := fun _ => .node
  clear_value node
  exact .ite (fun _ => .bind halts_withinClause fun _ => hn _) fun _ => hn _

/-! ## Joins -/

theorem halts_joinKind : Halts rank P joinKind := by
  refine .skim (looks_kind 0) fun k => ?_
  split
  · exact .bind halts_bump fun _ => .bind (halts_expect _) fun _ => .ended
  · exact .bind halts_bump fun _ => .bind (halts_expect _) fun _ => .ended
  · exact .bind halts_bump fun _ => .bind (halts_expect _) fun _ => .ended
  · exact .bind halts_bump fun _ => .ended
  · exact .bind halts_bump fun _ => .ended
  · exact .ended

theorem halts_joinType : Halts rank P joinType :=
  .mark fun _ => .bind halts_joinKind fun _ => .bind (halts_expect _) fun _ => .node

theorem halts_joinInput : Halts 3 P joinInput := by
  refine .mark fun m => .bind (halts_optional _) fun _ => .bind halts_joinType fun _ => ?_
  extract_lets node
  have hn : ∀ unidirectional, Halts 3 any (node unidirectional) := fun _ =>
    .bind halts_streamingInput fun _ => .bind (halts_expect _) fun _ => .bind halts_expression
      fun _ => .node
  clear_value node
  exact .ite (fun _ => hn _) fun _ => .bind (halts_optional _) fun _ => hn _

theorem halts_optionalJoin : Halts 3 P optionalJoin :=
  halts_whenever (.skim (looks_kind 0) fun _ => .ended) halts_joinInput

/-! ## Selection -/

theorem halts_selectItem : Halts 3 P selectItem :=
  .mark fun _ => .bind halts_expression fun _ => .bind halts_optionalAlias fun _ => .node

theorem takes_groupByClause : Takes solid groupByClause :=
  .mark fun _ => .bump fun _ => .bind (halts_expect _) fun _ =>
    .bind (halts_commaList halts_reference) fun _ => .node

theorem takes_havingClause : Takes solid havingClause :=
  .mark fun _ => .bump fun _ => .bind halts_expression fun _ => .node

theorem takes_selectClause : Takes solid selectClause := by
  refine .mark fun m => .bump fun _ => .bind (halts_optional _) fun star => ?_
  extract_lets node
  have hn : ∀ items, Halts 3 any (node items) := fun _ =>
    .bind (takes_groupByClause.wheneverAt nofun) fun _ =>
    .bind (takes_havingClause.wheneverAt nofun) fun _ => .node
  clear_value node
  exact .ite (fun _ => hn _) fun _ => .bind (halts_commaList halts_selectItem) fun _ => hn _

theorem halts_optionalSelect : Halts rank P optionalSelect := takes_selectClause.wheneverAt nofun

theorem halts_orderByItem : Halts 3 P orderByItem := by
  refine .mark fun m => .bind halts_reference fun key => .skim (looks_atAny _) fun _ => ?_
  extract_lets node
  have hn : ∀ direction, Halts 3 any (node direction) := fun _ => .node
  clear_value node
  exact .ite (fun _ => .bind halts_bump fun _ => hn _) fun _ => hn _

theorem takes_orderByClause : Takes solid orderByClause :=
  .mark fun _ => .bump fun _ => .bind (halts_expect _) fun _ =>
    .bind (halts_commaList halts_orderByItem) fun _ => .node

theorem halts_optionalOrderBy : Halts rank P optionalOrderBy := takes_orderByClause.wheneverAt nofun

/-! ## Output -/

theorem halts_outputRateLimit : Halts rank P outputRateLimit := by
  refine .mark fun m => .bind halts_bump fun keyword => .bind (halts_optional _) fun snapshot => ?_
  refine .skim (looks_atAny _) fun selected => ?_
  extract_lets node
  have hnode : ∀ selector, Halts rank any (node selector) := fun selector => by
    refine .bind (halts_expect _) fun word => .bind (halts_expect _) fun amount => ?_
    refine .ite (fun _ => .bind halts_timeScale fun unit => .node) fun _ => ?_
    exact .bind (halts_expectAny _ _) fun unit => .node
  clear_value node
  exact .ite (fun _ => .bind halts_bump fun selector => hnode _) fun _ => hnode _

theorem halts_streamingAction : Halts 3 P streamingAction :=
  .mark fun _ => .bind (halts_expect _) fun _ => .bind halts_parameterList fun _ =>
    .bind halts_block fun _ => .node

/-! ## Queries -/

theorem halts_querySource : Halts 3 P querySource := by
  refine .bind halts_startsPattern fun patterned => .ite (fun _ => ?_) fun _ => ?_
  · exact .bind halts_patternClause fun source => .ended
  · exact .bind halts_streamingInput fun input => .bind halts_optionalJoin fun join => .ended

theorem takes_streamingQuery : Takes solid streamingQuery := by
  refine .mark fun m => .bump fun keyword => .bind halts_querySource fun source => ?_
  refine .bind halts_optionalSelect fun select => .bind halts_optionalOrderBy fun orderBy => ?_
  refine .skim (looks_atKind _) fun limited => ?_
  extract_lets node
  have hnode : ∀ limit, Halts 3 any (node limit) := fun limit =>
    .bind halts_streamingAction fun action => .node
  clear_value node
  exact .ite (fun _ => .bind halts_outputRateLimit fun limit => hnode _) fun _ => hnode _

theorem halts_limitClause : Halts rank P limitClause :=
  .mark fun _ => .bind halts_bump fun _ => .bind (halts_expect _) fun _ => .node

theorem takes_tableQuery : Takes solid tableQuery := by
  refine .mark fun m => .bump fun keyword => .bind halts_streamingInput fun input => ?_
  refine .bind halts_optionalJoin fun join => .bind halts_optionalSelect fun select => ?_
  refine .bind halts_optionalOrderBy fun orderBy => .skim (looks_atKind _) fun limited => ?_
  extract_lets node
  have hnode : ∀ limit, Halts 3 any (node limit) := fun limit => .node
  clear_value node
  exact .ite (fun _ => .bind halts_limitClause fun limit => hnode _) fun _ => hnode _

theorem querySync_settles : ∀ k ∈ querySync, settlesStatements k = true := by decide

/-- What is no query is skipped, one token at least. -/
theorem halts_streamingQueries : Halts 3 P streamingQueries := by
  refine .bind (.withRecovery ((Settles.loop (I := fun _ => any) (Q := fun _ => any)
    fun read s₁ => ?_).weaken fun _ _ _ => trivial) fun _ _ _ _ _ _ h => querySync_settles _ h)
    fun _ => .ended
  refine .untilEnd (.done (b := Turn.stop read) fun _ _ _ => trivial) (.ifAt ?_ ?_)
  · refine .takePast (i := s₁.position) (fun _ _ h => ⟨solid_of_eq h.2 (by decide), ?_⟩)
      takes_streamingQuery fun _ => .done fun _ _ h => ⟨.inl h, trivial⟩
    exact congrArg State.position h.1.1.1
  · refine .thenAt (R := fun n scope s => s₁.position + n = s.position ∧ solid scope s₁)
      (fun _ _ scope s hv hs hc h => ?_) fun n => .ite (fun hn => ?_) fun hn => .done fun _ _ h => ?_
    · obtain ⟨⟨rfl, -⟩, -, -, hk⟩ := h
      obtain ⟨n, t, hr, -, hn, -⟩ := settles_skipUntil querySync.contains _ s hv hs hc rfl
      exact ⟨n, t, hr, hn, hk⟩
    · refine .takePast (i := s₁.position) (fun scope s h => ?_) (takes_bumpUnexpected _)
        fun _ => .done (b := Turn.again read) fun _ _ h => ⟨.inl h, trivial⟩
      have : s.position = s₁.position := by simp at hn; omega
      exact ⟨by simpa [solid, Scope.kindAt, this] using h.2, this⟩
    · refine ⟨.inl ?_, trivial⟩
      have := h.1
      simp at hn
      omega

theorem takes_foreverStatement : Takes solid foreverStatement := by
  refine .mark fun m => .bump fun _ => .bind (halts_expect _) fun opening => ?_
  extract_lets node
  have hn : ∀ queries, Halts 3 any (node queries) := fun _ =>
    .ite (fun _ => .bind (halts_errorExpected _) fun _ => .bind (halts_expectClosing _ _ _)
      fun _ => .delimited) fun _ => .bind (halts_expectClosing _ _ _) fun _ => .delimited
  clear_value node
  exact .ite (fun _ => hn _) fun _ => .bind halts_streamingQueries fun _ => hn _

end BallerinaSyntax
