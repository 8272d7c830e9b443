import BallerinaSyntax.Proofs.Reading.Callable
import BallerinaSyntax.Grammar.Compound

/-! The contracts of statements made of blocks. -/

namespace BallerinaSyntax

open Parse Condition Grammar

/-- The node and what is in it. -/
instance : HasParts (NodeInfo × Block) := ⟨fun x => Parts.node x.1 (parts x.2)⟩

theorem reads_keywordBlock (k : Kind) : Reads (keywordBlock k) :=
  .marked fun _ => .skipBump fun _ => .bind reads_block fun _ => .node (fun _ => rfl) (by simp)

theorem reads_whenGoesOn {c : Category} (k : Kind) {p : Parse (Tree c)} (hp : Reads p) :
    Reads (whenever (goesOn k) p) :=
  reads_whenever (.look (looks_goesOn _) fun _ => rfl) hp

/-! ## Branches -/

theorem builds_ifClause (m : Mark) (k : Kind) : Builds m [] any (ifClause m k) :=
  .bind reads_expression fun _ => .bind reads_block fun _ => .node (fun _ => rfl) (by simp)

theorem reads_elseIfClause? : Reads elseIfClause? := by
  refine .of fun m => .look (looks_goesOn _) fun _ => .look (looks_isKind _ _) fun _ => .ite
    (fun _ => ?_) fun _ => .done (by simp)
  exact .mark fun n => .skipBump fun _ => .skipBump fun _ =>
    ((builds_ifClause n _).onward (by simp)).andThen fun _ => .done (by simp)

theorem reads_elseClause : Reads elseClause :=
  .of fun _ => .bind (reads_keywordBlock _) fun ⟨_, _⟩ => .done (.refl _)

theorem reads_ifStatement : Reads ifStatement :=
  .marked fun m => .skipBump fun _ => (builds_ifClause m _).onward (by simp) |>.andThen fun _ =>
    .bind (.many reads_elseIfClause?) fun _ => .bind (reads_whenGoesOn _ reads_elseClause) fun _ =>
    .node (fun _ => rfl) (by simp)

@[simp] theorem pieces_matchBlockBody (t : Block) : pieces (Tree.matchBlockBody t) = pieces t := rfl

@[simp] theorem pieces_matchStatementBody (t : Statement) :
    pieces (Tree.matchStatementBody t) = pieces t := rfl

theorem reads_matchBody : Reads matchBody := by
  refine .of fun m => .look (looks_atKind _) fun braced => .ite (fun _ => ?block) fun _ => ?statement
  case block => exact .bind reads_block fun body => .done (by simp)
  case statement => exact .bind reads_statement fun body => .done (by simp)

theorem reads_matchClause : Reads matchClause :=
  .marked fun _ => .bind reads_typeName fun _ => .bind reads_optionalIdentifier fun _ =>
    .skip (reads_expect nofun) fun _ => .bind reads_matchBody fun _ => .node (fun _ => rfl) (by simp)

theorem reads_matchClauses : Reads matchClauses := by
  refine .many <| .of fun m => .look (looks_atListEnd _) fun ended => ?_
  refine .ite (fun _ => .done (by simp)) fun _ => ?_
  exact .bind (.progressing _ reads_matchClause) fun clause => .done (by simp)

theorem reads_matchStatement : Reads matchStatement := by
  refine .marked fun m => .skipBump fun _ => .bind reads_expression fun subject =>
    .skip (reads_expect nofun) fun opening => ?_
  extract_lets node
  have hn : ∀ clauses, Builds m (pieces subject ++ pieces clauses) any (node clauses) := fun _ =>
    .bind (reads_expectClosing _ _ nofun) fun _ => .delimited (fun _ => rfl) (by simp)
  clear_value node
  refine .ite (fun _ => .give ((hn _).onward (by simp))) fun _ => ?_
  exact .bind reads_matchClauses fun _ => (hn _).onward (by simp)

/-! ## Loops -/

theorem reads_iterableRange : Reads iterableRange := by
  refine .of fun m => .bind reads_intRange fun range => .look (looks_atAny _) fun ended => ?_
  exact .ite (fun _ => .done (by simp)) fun _ => .done (by simp)

@[simp] theorem pieces_iterableRange (t : Tree .intRange) : pieces (Tree.iterableRange t) = pieces t :=
  rfl

@[simp] theorem pieces_iterableExpression (t : Expression) :
    pieces (Tree.iterableExpression t) = pieces t := rfl

theorem reads_iterable : Reads iterable := by
  refine .of fun m => .look (looks_atAny _) fun _ => ?_
  extract_lets choice
  have hc : ∀ range, Builds m (pieces range) any (choice range) := by
    rintro (_ | range)
    · exact .bind reads_expression fun _ => .done (by simp)
    · exact .done (by simp)
  clear_value choice
  refine .ite (fun _ => ?_) fun _ => .give ((hc _).onward (by simp))
  exact .bind (Reads.attempt reads_iterableRange) fun _ => (hc _).onward (by simp)

theorem reads_foreachStatement : Reads foreachStatement := by
  refine .marked fun m => .skipBump fun _ => .skip (reads_optional nofun) fun opening =>
    .bind (reads_commaList reads_reference) fun targets => .skip (reads_expect nofun) fun _ =>
    .bind reads_iterable fun iterated => ?_
  have body : Builds m ([] ++ pieces targets ++ pieces iterated) any (block >>= fun body =>
      finish m .foreachStatement >>= fun info =>
        pure (Tree.foreach info (.ofList targets) iterated body)) :=
    .bind reads_block fun _ => .node (fun _ => rfl) (by simp)
  cases opening with
  | some opening => exact .skip (reads_expectClosing _ _ nofun) fun _ => body
  | none => exact body

theorem reads_whileStatement : Reads whileStatement :=
  .marked fun _ => .skipBump fun _ => .bind reads_expression fun _ => .bind reads_block fun _ =>
    .node (fun _ => rfl) (by simp)

theorem reads_lockStatement : Reads lockStatement :=
  .of fun _ => .bind (reads_keywordBlock _) fun ⟨_, _⟩ => .done (.refl _)

/-! ## Workers -/

theorem reads_binding (construct : String) : Reads (binding construct) :=
  .of fun _ => .skip (reads_expect nofun) fun _ => .bind reads_typeName fun _ => .bind reads_identifier
    fun _ => .skip (reads_expectClosing _ _ nofun) fun _ => .done (by simp)

theorem reads_joinConditions : Reads joinConditions := by
  refine .marked fun m => .skipBump fun opening => .skip (reads_accept _) fun some? => ?_
  extract_lets node
  have hn : ∀ count, Builds m (pieces count) any (node count) := by
    intro count
    have close : ∀ workers, Builds m (pieces count ++ pieces workers) any
        (expectClosing opening .closeParenToken "join conditions" >>= fun close =>
          finishDelimited m .joinConditions close >>= fun info => pure
            (⟨info, if some? = true then .some else .all, count, workers⟩ : JoinConditions)) :=
      fun workers => .bind (reads_expectClosing _ _ nofun) fun _ => .delimited (fun _ => rfl) (by simp)
    have listed : Builds m (pieces count) any (atKind .identifier >>= fun here =>
        if here = true then commaList identifier >>= fun workers =>
          expectClosing opening .closeParenToken "join conditions" >>= fun close =>
          finishDelimited m .joinConditions close >>= fun info => pure
            (⟨info, if some? = true then .some else .all, count, workers⟩ : JoinConditions)
        else expectClosing opening .closeParenToken "join conditions" >>= fun close =>
          finishDelimited m .joinConditions close >>= fun info => pure
            (⟨info, if some? = true then .some else .all, count, []⟩ : JoinConditions)) :=
      .look (looks_atKind _) fun _ => .ite
        (fun _ => .bind (reads_commaList reads_identifier) fun _ => (close _).onward (by simp))
        fun _ => (close _).onward (by simp)
    exact .ite (fun _ => .skipBump fun _ => listed) fun _ => listed
  clear_value node
  refine .ite (fun _ => ?_) fun _ => .give ((hn _).onward (by simp))
  exact .bind (reads_expect nofun) fun _ => .give ((hn _).onward (by simp))

theorem reads_joinClause : Reads joinClause := by
  refine .marked fun m => .skipBump fun _ => .skip ?_ fun _ => ?_
  · exact .of fun m => .look (looks_atKind _) fun _ => .look (looks_kind 1) fun _ => .done (by simp)
  extract_lets node
  have hn : ∀ conditions, Builds m (pieces conditions) any (node conditions) := fun _ =>
    .bind (reads_binding _) fun ⟨_, _⟩ => .bind reads_block fun _ => .node (fun _ => rfl) (by simp)
  clear_value node
  refine .ite (fun _ => ?_) fun _ => .give ((hn _).onward (by simp))
  exact .bind reads_joinConditions fun _ => .give ((hn _).onward (by simp))

theorem reads_timeoutClause : Reads timeoutClause := by
  refine .marked fun m => .skipBump fun keyword => .skip (reads_expect nofun) fun opening => ?_
  refine .bind reads_expression fun duration => .skip (reads_expectClosing _ _ nofun) fun close => ?_
  refine .bind (reads_binding _) fun ⟨type, result⟩ => .bind reads_block fun body => ?_
  exact .node (fun _ => rfl) (by simp)

theorem reads_forkStatement : Reads forkStatement := by
  refine .marked fun m => .skipBump fun _ => .skip (reads_expect nofun) fun opening => ?_
  extract_lets node
  have hn : ∀ forked, Builds m (pieces forked) any (node forked) := fun _ =>
    .skip (reads_expectClosing _ _ nofun) fun _ => .bind (reads_whenGoesOn _ reads_joinClause) fun _ =>
      .bind (reads_whenGoesOn _ reads_timeoutClause) fun _ => .node (fun _ => rfl) (by simp)
  clear_value node
  refine .ite (fun _ => .give ((hn _).onward (by simp))) fun _ => ?_
  exact .bind reads_workers fun _ => (hn _).onward (by simp)

/-! ## Errors -/

theorem reads_catchClause : Reads catchClause :=
  .marked fun _ => .skipBump fun _ => .bind (reads_binding _) fun ⟨_, _⟩ => .bind reads_block fun _ =>
    .node (fun _ => rfl) (by simp)

theorem reads_finallyClause : Reads finallyClause :=
  .of fun _ => .bind (reads_keywordBlock _) fun ⟨_, _⟩ => .done (.refl _)

theorem reads_tryStatement : Reads tryStatement := by
  refine .marked fun m => .skipBump fun _ => .bind reads_block fun body => .bind (.many ?_)
    fun catches => .bind (reads_whenGoesOn _ reads_finallyClause) fun last => ?_
  · exact .of fun _ => .look (looks_goesOn _) fun _ => .ite
      (fun _ => .bind reads_catchClause fun _ => .done (by simp)) fun _ => .done (by simp)
  have node : Builds m ([] ++ pieces body ++ pieces catches ++ pieces last) any
      (finish m .tryCatchStatement >>= fun info =>
        pure (Tree.tryCatch info body (.ofList catches) last)) := .node (fun _ => rfl) (by simp)
  exact .ite (fun _ => .skip (reads_errorExpected _) fun _ => node) fun _ => node

/-! ## Transactions -/

theorem reads_transactionProperty : Reads transactionProperty :=
  .marked fun _ => .bind (reads_expectAny _ rfl) fun _ => .skip (reads_expect nofun) fun _ =>
    .bind reads_expression fun _ => .node (fun _ => rfl) (by simp)

theorem reads_onRetryClause : Reads onRetryClause :=
  .of fun _ => .bind (reads_keywordBlock _) fun ⟨_, _⟩ => .done (.refl _)

theorem reads_transactionStatement : Reads transactionStatement := by
  refine .marked fun m => .skipBump fun _ => .skip (reads_accept _) fun _ => ?_
  extract_lets node
  have hn : ∀ properties, Builds m (pieces properties) any (node properties) := fun _ =>
    .bind reads_block fun _ => .bind (reads_whenGoesOn _ reads_onRetryClause) fun _ =>
      .node (fun _ => rfl) (by simp)
  clear_value node
  refine .ite (fun _ => ?_) fun _ => .give ((hn _).onward (by simp))
  exact .bind (reads_commaList reads_transactionProperty) fun _ => (hn _).onward (by simp)

end BallerinaSyntax
