import BallerinaSyntax.Proofs.Grouping.Reference
import BallerinaSyntax.Grammar.Compound

/-! Blocks, the bodies of functions, and statements made of blocks are well grouped. -/

namespace BallerinaSyntax

open Grammar Parse

/-! ## Blocks -/

theorem yields_statementRound : Yields statementRound := by
  refine .skip fun k => .ite ?semicolon <| .skip fun named => .ite ?passed ?read
  case semicolon => exact .skip fun reported => .done trivial
  case passed => exact .skip fun skipped => .done trivial
  case read => exact .item (yields_progressing yields_statement)

theorem yields_statements : Yields statements := by
  refine .bind (.withRecovery (.loop wellGrouped_empty fun items hitems => ?round))
    fun items hitems => ?_
  case round =>
    refine .skip fun ended => .ite (.done hitems) (.bind yields_statementRound fun item hitem => ?_)
    cases item with
    | some item => exact .done ((wellGrouped_push items item).mpr ⟨hitems, hitem⟩)
    | none => exact .done hitems
  exact .done (wellGrouped_ofList hitems)

theorem yields_blockBody : Yields blockBody := by
  refine .skip fun m => .skip fun opening => .ite ?missing ?read
  case missing => exact .skip fun info => .done ⟨trivial, trivial, trivial⟩
  case read =>
    refine .bind yields_statements fun read hread => .skip fun close => ?_
    exact .skip fun info => .done ⟨trivial, hread⟩

theorem yields_worker : Yields worker := by
  refine .skip fun m => .skip fun keyword => .skip fun name => ?_
  refine .bind yields_block fun body hbody => ?_
  exact .skip fun info => .done ⟨trivial, hbody⟩

theorem yields_workers : Yields workers := by
  exact .many <| .skip fun here => .ite (.item yields_worker) (.done trivial)

theorem yields_endpointValue : Yields endpointValue := by
  refine .skip fun braced => .ite ?record <| .skip fun assigned => .ite ?reference ?absent
  case record => exact .bind yields_recordLiteral fun r hr => .done ⟨trivial, trivial, hr⟩
  case reference => exact .bind yields_reference fun r hr => .done ⟨trivial, trivial, hr⟩
  case absent => exact .done wellGrouped_absent

theorem yields_endpoint (m : Mark) {annotations : Tree (.list .attachment)}
    (ha : wellGrouped annotations) : Yields (endpoint m annotations) := by
  refine .skip fun keyword => .skip fun type => .skip fun name => ?_
  refine .bind yields_endpointValue fun value hvalue => .skip fun semicolon => ?_
  exact .skip fun info => .done ⟨trivial, ha, hvalue⟩

theorem yields_localEndpoints : Yields localEndpoints := by
  refine .many <| .skip fun unwinding => .skip fun keyword => .skip fun annotated => ?_
  refine .ite (.skip fun m => ?_) (.done trivial)
  refine .bind yields_attachments fun annotations ha => ?_
  exact .item (yields_endpoint m ha)

theorem yields_callableBodyInner : Yields callableBodyInner := by
  refine .skip fun m => .skip fun opening => .ite ?missing ?read
  case missing =>
    refine .skip fun info => .done ?_
    exact ⟨trivial, ⟨trivial, trivial⟩, ⟨trivial, trivial⟩, ⟨trivial, trivial⟩⟩
  refine .bind yields_localEndpoints fun endpoints hendpoints => .skip fun workersFirst => ?_
  extract_lets rest
  have hrest : ∀ workers, wellGrouped workers → Yields (rest workers) := fun workers hworkers => by
    unfold rest
    extract_lets node
    have hnode : ∀ read, wellGrouped read → Yields (node read) := fun read hread =>
      .skip fun close => .skip fun info =>
        .done ⟨trivial, wellGrouped_ofList hendpoints, hread, wellGrouped_ofList hworkers⟩
    clear_value node
    exact .ite (hnode _ ⟨trivial, trivial⟩) (.bind yields_statements hnode)
  clear_value rest
  exact .ite (.bind yields_workers hrest) (hrest _ wellGrouped_nil)

/-- A node and the block in it. -/
theorem yields_keywordBlock (k : Kind) : Yields (keywordBlock k) :=
  .skip fun _ => .skip fun _ => .bind yields_block fun _ hb => .skip fun _ => .done ⟨trivial, hb⟩

/-! ## Branches -/

theorem yields_ifClause (m : Mark) (k : Kind) : Yields (ifClause m k) :=
  .bind yields_expression fun _ hc => .bind yields_block fun _ hb => .skip fun _ =>
    .done ⟨trivial, hc, hb⟩

theorem yields_elseIfClause : Yields elseIfClause? := by
  refine .skip fun elseNext => .skip fun ifBehind => .ite ?_ (.done trivial)
  refine .skip fun m => .skip fun elseKeyword => .skip fun ifKeyword => ?_
  exact .item (yields_ifClause m _)

theorem yields_elseClause : Yields elseClause :=
  .bind (yields_keywordBlock _) fun _ hb => .done ⟨trivial, hb.2⟩

theorem yields_ifStatement : Yields ifStatement := by
  refine .skip fun m => .skip fun keyword => .bind (yields_ifClause m _) fun first hfirst => ?_
  refine .bind (.many yields_elseIfClause) fun others hothers => ?_
  refine .bind (yields_whenever yields_elseClause) fun last hlast => ?_
  exact .skip fun info => .done ⟨trivial, hfirst, wellGrouped_ofList hothers, hlast⟩

theorem yields_matchBody : Yields matchBody := by
  refine .skip fun braced => .ite ?block ?statement
  case block => exact .bind yields_block fun body hbody => .done ⟨trivial, hbody⟩
  case statement => exact .bind yields_statement fun body hbody => .done ⟨trivial, hbody⟩

theorem yields_matchClause : Yields matchClause := by
  refine .skip fun m => .bind yields_typeName fun type htype => ?_
  refine .skip fun binding => .skip fun arrow => .bind yields_matchBody fun body hbody => ?_
  exact .skip fun info => .done ⟨trivial, htype, hbody⟩

theorem yields_matchClauses : Yields matchClauses := by
  refine .many <| .skip fun ended => .ite (.done trivial) ?_
  exact .item (yields_progressing yields_matchClause)

theorem yields_matchStatement : Yields matchStatement := by
  refine .skip fun m => .skip fun keyword => .bind yields_expression fun subject hsubject => ?_
  refine .skip fun opening => ?_
  extract_lets node
  have hnode : ∀ clauses, wellGrouped clauses → Yields (node clauses) := fun clauses hclauses =>
    .skip fun close => .skip fun info => .done ⟨trivial, hsubject, wellGrouped_ofList hclauses⟩
  clear_value node
  exact .ite (hnode _ wellGrouped_nil) (.bind yields_matchClauses hnode)

/-! ## Loops -/

theorem yields_iterableRange : Yields iterableRange :=
  .bind yields_intRange fun _ hr => .skip fun _ => .ite (.done hr) (.done trivial)

theorem yields_iterable : Yields iterable := by
  refine .skip fun _ => ?_
  extract_lets node
  have hn : ∀ range, wellGrouped range → Yields (node range) := by
    rintro (_ | range) hr
    · exact .bind yields_expression fun _ he => .done ⟨trivial, he⟩
    · exact .done ⟨trivial, hr⟩
  clear_value node
  exact .ite (.bind (.attempt yields_iterableRange) hn) (hn none trivial)

theorem yields_foreachStatement : Yields foreachStatement := by
  refine .skip fun m => .skip fun keyword => .skip fun opening => ?_
  refine .bind (yields_commaList yields_reference) fun targets htargets => .skip fun word => ?_
  refine .bind yields_iterable fun iterated hiterated => ?_
  extract_lets node
  have hnode : ∀ u, Yields (node u) := fun _ => .bind yields_block fun body hbody =>
    .skip fun info => .done ⟨trivial, wellGrouped_ofList htargets, hiterated, hbody⟩
  clear_value node
  cases opening with
  | some opening => exact .skip fun close => hnode _
  | none => exact hnode _

theorem yields_whileStatement : Yields whileStatement := by
  refine .skip fun m => .skip fun keyword => .bind yields_expression fun condition hcondition => ?_
  refine .bind yields_block fun body hbody => ?_
  exact .skip fun info => .done ⟨trivial, hcondition, hbody⟩

theorem yields_lockStatement : Yields lockStatement :=
  .bind (yields_keywordBlock _) fun _ hb => .done ⟨trivial, hb.2⟩

/-! ## Workers -/

instance : HasGrouping Identifier := ⟨fun _ => True⟩

theorem yields_binding (construct : String) : Yields (Grammar.binding construct) :=
  .skip fun _ => .bind yields_typeName fun _ ht => .skip fun _ => .skip fun _ => .done ⟨ht, trivial⟩

theorem yields_joinClause : Yields joinClause := by
  refine .skip fun m => .skip fun keyword => .skip fun conditional => ?_
  extract_lets node
  have hnode : ∀ conditions, Yields (node conditions) := fun conditions => by
    refine .bind (yields_binding _) fun result hresult => .bind yields_block fun body hbody => ?_
    exact .skip fun info => .done ⟨trivial, hresult.1, hbody⟩
  clear_value node
  exact .ite (.skip fun conditions => hnode _) (hnode _)

theorem yields_timeoutClause : Yields timeoutClause := by
  refine .skip fun m => .skip fun keyword => .skip fun opening => ?_
  refine .bind yields_expression fun duration hduration => .skip fun close => ?_
  refine .bind (yields_binding _) fun result hresult => .bind yields_block fun body hbody => ?_
  exact .skip fun info => .done ⟨trivial, hduration, hresult.1, hbody⟩

theorem yields_forkStatement : Yields forkStatement := by
  refine .skip fun m => .skip fun keyword => .skip fun opening => ?_
  extract_lets node
  have hnode : ∀ forked, wellGrouped forked → Yields (node forked) := fun forked hforked => by
    refine .skip fun close => .bind (yields_whenever yields_joinClause) fun join hjoin => ?_
    refine .bind (yields_whenever yields_timeoutClause) fun timeout htimeout => ?_
    exact .skip fun info => .done ⟨trivial, wellGrouped_ofList hforked, hjoin, htimeout⟩
  clear_value node
  exact .ite (hnode _ wellGrouped_nil) (.bind yields_workers hnode)

/-! ## Errors -/

theorem yields_catchClause : Yields catchClause := by
  refine .skip fun m => .skip fun keyword => .bind (yields_binding _) fun caught hcaught => ?_
  refine .bind yields_block fun body hbody => ?_
  exact .skip fun info => .done ⟨trivial, hcaught.1, hbody⟩

theorem yields_finallyClause : Yields finallyClause :=
  .bind (yields_keywordBlock _) fun _ hb => .done ⟨trivial, hb.2⟩

theorem yields_tryStatement : Yields tryStatement := by
  refine .skip fun m => .skip fun keyword => .bind yields_block fun body hbody => ?_
  refine .bind (.many ?clause) fun catches hcatches => ?_
  case clause => exact .skip fun here => .ite (.item yields_catchClause) (.done trivial)
  refine .bind (yields_whenever yields_finallyClause) fun last hlast => ?_
  have hnode : ∀ info, wellGrouped (Tree.tryCatch info body (.ofList catches) last) := fun info =>
    ⟨trivial, hbody, wellGrouped_ofList hcatches, hlast⟩
  refine .ite ?bare (.skip fun info => .done (hnode info))
  case bare => exact .skip fun reported => .skip fun info => .done (hnode info)

/-! ## Transactions -/

theorem yields_transactionProperty : Yields transactionProperty := by
  refine .skip fun m => .skip fun keyword => .skip fun equals => ?_
  refine .bind yields_expression fun value hvalue => ?_
  exact .skip fun info => .done ⟨trivial, hvalue⟩

theorem yields_onRetryClause : Yields onRetryClause :=
  .bind (yields_keywordBlock _) fun _ hb => .done ⟨trivial, hb.2⟩

theorem yields_transactionStatement : Yields transactionStatement := by
  refine .skip fun m => .skip fun keyword => .skip fun withNext => ?_
  extract_lets node
  have hnode : ∀ properties, wellGrouped properties → Yields (node properties) :=
    fun properties hproperties => by
      refine .bind yields_block fun body hbody => ?_
      refine .bind (yields_whenever yields_onRetryClause) fun onRetry honRetry => ?_
      exact .skip fun info => .done ⟨trivial, wellGrouped_ofList hproperties, hbody, honRetry⟩
  clear_value node
  exact .ite (.bind (yields_commaList yields_transactionProperty) hnode) (hnode _ wellGrouped_nil)

end BallerinaSyntax
