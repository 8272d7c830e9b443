import BallerinaSyntax.Proofs.Halting.Callable
import BallerinaSyntax.Grammar.Compound

/-! Statements made of blocks come to an end: behind their keywords everything may be read. -/

namespace BallerinaSyntax

open Grammar Parse
open Condition (any solid past onward gave turned)

variable {rank : Nat} {P : Condition}

theorem takes_keywordBlock (k : Kind) : Takes solid (keywordBlock k) :=
  .mark fun _ => .bump fun _ => .bind halts_block fun _ => .node

/-- A clause that consists of a keyword and a block. -/
theorem takes_keywordClause {α : Type} {f : NodeInfo → Block → α} (k : Kind) :
    Takes solid (keywordBlock k >>= fun x => pure (f x.1 x.2)) :=
  (takes_keywordBlock k).andThen (fun _ _ h => h) fun _ => .ended

/-! ## Branches -/

theorem halts_ifClause (m : Mark) (k : Kind) : Halts 3 P (ifClause m k) :=
  .bind halts_expression fun _ => .bind halts_block fun _ => .node

theorem steps_elseIfClause? : Steps 3 elseIfClause? := by
  refine fun s₀ => .look (looks_goesOn _) fun _ => .look (looks_isKind _ _) fun _ => .ite
    (fun h => .mark fun m => ?_) fun _ => .done fun _ _ _ => trivial
  have he := (Bool.and_eq_true_iff.mp h).1
  refine .takePast (i := s₀.position) (fun scope s hs => ⟨?_, congrArg State.position hs.1.1⟩)
    takes_bump fun _ => .keep halts_bump fun _ => .keep (halts_ifClause m _) fun _ =>
    .done fun _ _ h => .inl h
  exact solid_of_eq (beq_iff_eq.mp (Bool.and_eq_true_iff.mp (hs.1.2.trans he)).1) (by decide)

theorem takes_elseClause : Takes solid elseClause := takes_keywordClause _

theorem takes_ifStatement : Takes solid ifStatement := by
  refine .mark fun m => .bump fun keyword => .bind (halts_ifClause m _) fun first => ?_
  refine .bind (.many steps_elseIfClause?) fun others => ?_
  exact .bind (takes_elseClause.wheneverGoesOn (by decide)) fun last => .node

theorem halts_matchBody : Halts 3 P matchBody :=
  .skim (looks_atKind _) fun _ => .ite (fun _ => .bind halts_block fun _ => .ended) fun _ =>
    .bind halts_statement fun _ => .ended

theorem halts_matchClause : Halts 3 P matchClause :=
  .mark fun _ => .bind halts_typeName fun _ => .bind halts_optionalIdentifier fun _ =>
    .bind (halts_expect _) fun _ => .bind halts_matchBody fun _ => .node

theorem halts_matchClauses : Halts 3 P matchClauses := .many (Steps.progressing halts_matchClause)

theorem takes_matchStatement : Takes solid matchStatement := by
  refine .mark fun m => .bump fun _ => .bind halts_expression fun subject =>
    .bind (halts_expect _) fun opening => ?_
  extract_lets node
  have hn : ∀ clauses, Halts 3 any (node clauses) := fun _ =>
    .bind (halts_expectClosing _ _ _) fun _ => .delimited
  clear_value node
  exact .ite (fun _ => hn _) fun _ => .bind halts_matchClauses fun _ => hn _

/-! ## Loops -/

theorem halts_iterableRange : Halts 3 P iterableRange :=
  .bind halts_intRange fun _ => .skim (looks_atAny _) fun _ =>
    .ite (fun _ => .ended) fun _ => .ended

theorem halts_iterable : Halts 3 P iterable := by
  refine .skim (looks_atAny _) fun _ => ?_
  extract_lets choice
  have hc : ∀ {P} range, Halts 3 P (choice range) := by
    rintro P (_ | range)
    · exact .bind halts_expression fun _ => .ended
    · exact .ended
  clear_value choice
  exact .ite (fun _ => .thenAt (.attempt halts_iterableRange) fun _ => hc _) fun _ => hc _

theorem takes_foreachStatement : Takes solid foreachStatement := by
  refine .mark fun m => .bump fun _ => .bind (halts_optional _) fun opening =>
    .bind (halts_commaList halts_reference) fun targets => .bind (halts_expect _) fun _ =>
    .bind halts_iterable fun iterated => ?_
  have body : Halts 3 any (block >>= fun body => finish m .foreachStatement >>= fun info =>
      pure (Tree.foreach info (.ofList targets) iterated body)) :=
    .bind halts_block fun _ => .node
  cases opening with
  | some opening => exact .bind (halts_expectClosing _ _ _) fun _ => body
  | none => exact body

theorem takes_whileStatement : Takes solid whileStatement :=
  .mark fun _ => .bump fun _ => .bind halts_expression fun _ => .bind halts_block fun _ => .node

theorem takes_lockStatement : Takes solid lockStatement := takes_keywordClause _

/-! ## Workers -/

theorem halts_binding (construct : String) : Halts 3 P (binding construct) :=
  .bind (halts_expect _) fun _ => .bind halts_typeName fun _ => .bind halts_identifier fun _ =>
    .bind (halts_expectClosing _ _ _) fun _ => .ended

theorem halts_joinConditions : Halts 3 P joinConditions := by
  refine .mark fun m => .bind halts_bump fun opening => .bind (halts_accept _) fun some? => ?_
  extract_lets node
  have hn : ∀ count, Halts 3 any (node count) := by
    intro count
    unfold node
    extract_lets close listed
    have hc : ∀ workers, Halts 3 any (close workers) := fun _ =>
      .bind (halts_expectClosing _ _ _) fun _ => .delimited
    have hl : Halts 3 any (listed ()) := .skim (looks_atKind _) fun _ => .ite
      (fun _ => .bind (halts_commaList halts_identifier) fun _ => hc _) fun _ => hc _
    clear_value listed
    exact .ite (fun _ => .bind halts_bump fun _ => hl) fun _ => hl
  clear_value node
  exact .ite (fun _ => .bind (halts_expect _) fun _ => hn _) fun _ => hn _

theorem takes_joinClause : Takes solid joinClause := by
  refine .mark fun m => .bump fun _ => .bind ?_ fun _ => ?_
  · exact .skim (looks_atKind _) fun _ => .skim (looks_kind 1) fun _ => .ended
  extract_lets node
  have hn : ∀ conditions, Halts 3 any (node conditions) := fun _ =>
    .bind (halts_binding _) fun _ => .bind halts_block fun _ => .node
  clear_value node
  exact .ite (fun _ => .bind halts_joinConditions fun _ => hn _) fun _ => hn _

theorem takes_timeoutClause : Takes solid timeoutClause := by
  refine .mark fun m => .bump fun keyword => .bind (halts_expect _) fun opening => ?_
  refine .bind halts_expression fun duration => .bind (halts_expectClosing _ _ _) fun close => ?_
  exact .bind (halts_binding _) fun result => .bind halts_block fun body => .node

theorem takes_forkStatement : Takes solid forkStatement := by
  refine .mark fun m => .bump fun _ => .bind (halts_expect _) fun opening => ?_
  extract_lets node
  have hn : ∀ forked, Halts 3 any (node forked) := fun _ =>
    .bind (halts_expectClosing _ _ _) fun _ =>
    .bind (takes_joinClause.wheneverGoesOn (by decide)) fun _ =>
    .bind (takes_timeoutClause.wheneverGoesOn (by decide)) fun _ => .node
  clear_value node
  exact .ite (fun _ => hn _) fun _ => .bind halts_workers fun _ => hn _

/-! ## Errors -/

theorem takes_catchClause : Takes solid catchClause :=
  .mark fun _ => .bump fun _ => .bind (halts_binding _) fun _ => .bind halts_block fun _ => .node

theorem takes_finallyClause : Takes solid finallyClause := takes_keywordClause _

theorem takes_tryStatement : Takes solid tryStatement := by
  have hcatches := Picks.goesOn (k := .catchKeyword) takes_catchClause (by decide)
  refine .mark fun m => .bump fun keyword => .bind halts_block fun body => ?_
  refine .bind (.many hcatches.steps) fun catches => ?_
  refine .bind (takes_finallyClause.wheneverGoesOn (by decide)) fun last => ?_
  exact .ite (fun _ => .bind (halts_errorExpected _) fun _ => .node) fun _ => .node

/-! ## Transactions -/

theorem halts_transactionProperty : Halts 3 P transactionProperty :=
  .mark fun _ => .bind (halts_expectAny _ _) fun _ => .bind (halts_expect _) fun _ =>
    .bind halts_expression fun _ => .node

theorem takes_onRetryClause : Takes solid onRetryClause := takes_keywordClause _

theorem takes_transactionStatement : Takes solid transactionStatement := by
  refine .mark fun m => .bump fun _ => .bind (halts_accept _) fun _ => ?_
  extract_lets node
  have hn : ∀ properties, Halts 3 any (node properties) := fun _ => .bind halts_block fun _ =>
    .bind (takes_onRetryClause.wheneverGoesOn (by decide)) fun _ => .node
  clear_value node
  exact .ite (fun _ => .bind (halts_commaList halts_transactionProperty) fun _ => hn _) fun _ => hn _

end BallerinaSyntax
