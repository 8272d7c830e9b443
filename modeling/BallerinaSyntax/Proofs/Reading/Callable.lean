import BallerinaSyntax.Proofs.Reading.Reference
import BallerinaSyntax.Proofs.Reading.Signature
import BallerinaSyntax.Grammar.Callable

/-! The contracts of blocks, and of the bodies of functions. -/

namespace BallerinaSyntax

open Parse Condition Grammar

theorem reads_statementRound : Reads statementRound := by
  refine .of fun m => .look (looks_kind 0) fun k => .ite (fun _ => ?_) fun _ =>
    .look (looks_isName k) fun _ => .ite (fun _ => ?_) fun _ => ?_
  · exact .skip (reads_bumpUnexpected _) fun _ => .done (by simp)
  · exact .skip (reads_skipUntil _ _) fun _ => .done (by simp)
  · exact .bind (.progressing _ reads_statement) fun _ => .done (by simp)

theorem reads_statements : Reads statements := by
  refine .of fun m => .bind (.withRecovery (.of fun m => .loop (fun read => ?_) List.nil_subperm))
    fun _ => .done (by simp)
  refine .look (looks_atListEnd _) fun _ => .ite (fun _ => .done (by simp)) fun _ =>
    .bind reads_statementRound fun s => ?_
  cases s with
  | some s => exact .done (by simp)
  | none => exact .done (by simp)

theorem reads_blockBody : Reads blockBody := by
  refine .marked fun m => .skip (reads_expect nofun) fun opening => .ite (fun _ => ?_) fun _ => ?_
  · exact .node (fun _ => rfl) (by simp)
  · refine .bind reads_statements fun read => .bind (reads_expectClosing _ _ nofun) fun close => ?_
    exact .delimited (fun _ => rfl) (by simp)

theorem reads_worker : Reads worker :=
  .marked fun _ => .skipBump fun _ => .bind reads_identifier fun _ => .bind reads_block fun _ =>
    .node (fun _ => rfl) (by simp)

theorem reads_workers : Reads workers := by
  refine .many <| .of fun m => .look (looks_goesOn _) fun here => .ite (fun _ => ?_) fun _ => ?_
  · exact .bind reads_worker fun read => .done (by simp)
  · exact .done (by simp)

@[simp] theorem pieces_endpointRecord (t : Tree .recordLiteral) :
    pieces (Tree.endpointRecord t) = pieces t := rfl

@[simp] theorem pieces_endpointReference (t : Reference) :
    pieces (Tree.endpointReference t) = pieces t := rfl

theorem reads_endpointValue : Reads endpointValue := by
  refine .of fun m => .look (looks_atKind _) fun braced => .ite (fun _ => ?record) fun _ => ?_
  case record => exact .bind reads_recordLiteral fun record => .done (by simp)
  refine .skip (reads_accept _) fun assigned => .ite (fun _ => ?reference) fun _ => .done (by simp)
  case reference => exact .bind reads_reference fun reference => .done (by simp)

/-- An endpoint reads on behind its annotations. -/
theorem builds_endpoint (m : Mark) (annotations : Tree (.list .attachment)) :
    Builds m (pieces annotations) any (endpoint m annotations) := by
  refine .skip (reads_expect nofun) fun keyword => .bind reads_nameReference fun type => ?_
  refine .bind reads_identifier fun name => .bind reads_endpointValue fun value => ?_
  exact .skip (reads_expect nofun) fun semicolon => .node (fun _ => rfl) (by simp)

theorem reads_localEndpoints : Reads localEndpoints := by
  refine .many <| .of fun m => .look looks_isUnwinding fun unwinding => ?_
  refine .look (looks_atKind _) fun keyword => .look (looks_atKind _) fun sign => ?_
  refine .ite (fun _ => .mark fun n => ?_) fun _ => .done (by simp)
  refine .bind reads_attachments fun annotations => ?_
  have hendpoint := builds_endpoint n annotations
  exact (hendpoint.onward (by simp)).andThen fun _ => .done (by simp)

theorem reads_callableBodyInner : Reads callableBodyInner := by
  refine .marked fun m => .skip (reads_expect nofun) fun opening => .ite
    (fun _ => .node (fun _ => rfl) (by simp)) fun _ => .bind reads_localEndpoints fun endpoints =>
    .look (looks_atKind _) fun workersFirst => ?_
  extract_lets behindWorkers
  have hb : ∀ workers, Builds m (pieces endpoints ++ pieces workers) any (behindWorkers workers) := by
    intro workers
    have close : ∀ read, Builds m (pieces endpoints ++ pieces workers ++ pieces read) any
        (expectClosing opening .closeBraceToken "function body" >>= fun close =>
          finishDelimited m .callableUnitBody close >>= fun info =>
            pure (Tree.callableBody info (.ofList endpoints) read (.ofList workers))) := fun read =>
      .bind (reads_expectClosing _ _ nofun) fun _ => .delimited (fun _ => rfl) <| by
        simpa using List.perm_append_comm.subperm
    exact .ite (fun _ => .give ((close _).onward (by simp))) fun _ =>
      .bind reads_statements fun _ => (close _).onward (by simp)
  clear_value behindWorkers
  refine .ite (fun _ => ?_) fun _ => .give ((hb _).onward (by simp))
  exact .bind reads_workers fun _ => (hb _).onward (by simp)

end BallerinaSyntax
