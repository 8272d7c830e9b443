import BallerinaSyntax.Proofs.Halting.Signature
import BallerinaSyntax.Proofs.Halting.Reference
import BallerinaSyntax.Grammar.Callable

/-!
Blocks and the bodies of functions come to an end. Tokens that begin no statement are skipped; none
of them is one at which reading resumes, so a skip takes the first of them.
-/

namespace BallerinaSyntax

open Grammar Parse
open Condition (any solid past onward gave turned)

variable {rank : Nat} {P : Condition}

/-! ## Statements -/

theorem statementSync_settles :
    ∀ k ∈ statementSync, k = .workerKeyword ∨ settlesStatements k = true := by decide

/-- Nothing resumes at a token that is no statement's. -/
theorem Scope.Sane.unsettled {scope : Scope} {s : State} (hs : scope.Sane s)
    (hk : settlesStatements (scope.kindAt s 0) = false) :
    scope.resume resumesStatement (scope.kindAt s 0) = false := by
  have hw : scope.kindAt s 0 ≠ .workerKeyword := hs.tame.noWorker s.position
  have hr := hs.resumes s.position (Nat.le_refl _)
  rw [resume, Bool.or_eq_false_iff, resumesStatement, Bool.or_eq_false_iff]
  refine ⟨⟨?_, ?_⟩, ?_⟩
  · rw [List.contains_eq_mem, decide_eq_false_iff_not]
    intro hm
    rcases statementSync_settles _ hm with h | h
    · exact hw h
    · exact Bool.false_ne_true (hk.symm.trans h)
  · exact (Bool.or_eq_false_iff.mp hk).2
  · rw [List.any_eq_false]
    intro sync hm hc
    exact Bool.false_ne_true (hk.symm.trans (hr sync hm (List.contains_iff_mem.mp hc)))

/-- At a token that is no statement's, but at which something around the statements resumes. -/
def Condition.stuck : Condition := fun scope s =>
  s.unwinding = false ∧ scope.kindAt s 0 ≠ .closeBraceToken ∧ solid scope s ∧
    scope.kindAt s 0 ≠ .semicolonToken ∧
    (!startsStatement (scope.kindAt s 0) &&
      !Operator.isName scope.options.allowAnyIdentifierNames (scope.kindAt s 0)) = true ∧
    scope.resume resumesStatement (scope.kindAt s 0) = true

theorem Scope.Sane.not_stuck {scope : Scope} {s : State} (hs : scope.Sane s) :
    ¬Condition.stuck scope s := by
  rintro ⟨-, hclose, -, hsemicolon, hstarts, hresume⟩
  refine Bool.false_ne_true ((hs.unsettled ?_).symm.trans hresume)
  have hn : startsStatement (scope.kindAt s 0) = false := by
    simpa using (Bool.and_eq_true_iff.mp hstarts).1
  simp [settlesStatements, hn, hclose, hsemicolon]

/-- One round of the loop over statements, with those that were read before. -/
def statementsTurn (read : Array Statement) :
    Parse (Turn (Array Statement) (Array Statement)) := do
  if ← atListEnd .closeBraceToken then return .stop read
  match ← statementRound with
  | some s => return .again (read.push s)
  | none => return .again read

theorem statements_eq : statements = do
    let read ← withRecovery statementSync (loop statementsTurn #[])
    return .ofList read.toList := rfl

/-- There a round changes nothing. -/
theorem statementsTurn_of_stuck {scope : Scope} {s : State} (h : Condition.stuck scope s)
    (r : Recursion) (read : Array Statement) :
    statementsTurn read r scope s = some (.again read, s) := by
  obtain ⟨hu, hclose, hsolid, hsemicolon, hstarts, hresume⟩ := h
  have hend : ¬(s.unwinding || scope.kindAt s 0 == .closeBraceToken ||
      scope.kindAt s 0 == .endOfFileToken) = true := by
    have hsolid : scope.kindAt s 0 ≠ .endOfFileToken := hsolid
    simp [hu, hclose, hsolid]
  have hround : statementRound r scope s = some (none, s) := by
    unfold statementRound
    rw [(looks_kind 0).bind_eq, if_neg (by rwa [beq_iff_eq]), (looks_isName _).bind_eq,
      if_pos hstarts]
    exact bind_eq_some.mpr ⟨0, s, skipUntil_of_resume hresume, rfl⟩
  unfold statementsTurn
  rw [(looks_atListEnd .closeBraceToken).bind_eq, if_neg hend]
  exact bind_eq_some.mpr ⟨none, s, hround, rfl⟩

/-- A round takes a token or unwinds, or it is stuck. -/
theorem settles_statementRound (s₁ : State) :
    Settles 3 (fun scope s => s = s₁ ∧ s.unwinding = false ∧
      scope.kindAt s 0 ≠ .closeBraceToken ∧ solid scope s) statementRound fun _ scope s =>
        onward s₁ scope s ∨ Condition.stuck scope s := by
  refine .look (looks_kind 0) fun k => .ite (fun _ => ?_) fun hk => .look (looks_isName k)
    fun name => .ite (fun hn => ?_) fun _ => ?_
  · refine .takePast (i := s₁.position) (fun scope s h => ⟨h.1.2.2.2, ?_⟩)
      (takes_bumpUnexpected _) fun _ => .done fun _ _ h => .inl (.inl h)
    exact congrArg State.position h.1.1
  · refine .thenAt (R := fun _ scope s => onward s₁ scope s ∨ Condition.stuck scope s) ?_ fun _ =>
      .done fun _ _ h => h
    intro cost levels scope s hv hs hc h
    obtain ⟨⟨⟨rfl, hu, hclose, hsolid⟩, rfl⟩, rfl⟩ := h
    cases hresume : scope.resume resumesStatement (scope.kindAt s 0) with
    | true =>
      refine ⟨0, s, ⟨fun _ _ => skipUntil_of_resume hresume, Nat.le_refl _, hs.inside⟩, .inr ?_⟩
      exact ⟨hu, hclose, hsolid, by rwa [beq_iff_eq] at hk, hn, hresume⟩
    | false =>
      have hskip : Settles 3 (fun scope' s' => scope' = scope ∧ s' = s)
          (skipUntil resumesStatement "a statement") fun _ => past s.position := by
        refine .skip fun scope' s' h => ?_
        obtain ⟨rfl, rfl⟩ := h
        exact ⟨rfl, hsolid, hresume⟩
      obtain ⟨n, t, hr, ht⟩ := hskip hv hs hc ⟨rfl, rfl⟩
      exact ⟨n, t, hr, .inl (.inl ht)⟩
  · refine .thenAt (R := fun _ => onward s₁) (.progress halts_statement fun scope s h => ?_)
      fun _ => .done fun _ _ h => .inl h
    exact ⟨h.1.1.1, h.1.1.2.2.2, h.1.1.2.1⟩

theorem halts_statements : Halts 3 P statements := by
  rw [statements_eq]
  refine .bind (.withRecovery ?_ fun scope s hs _ i _ hk => ?_) fun _ => .ended
  · refine .loopOr (W := Condition.stuck) (I := fun _ => any) (fun _ _ hs => hs.not_stuck)
      (fun _ _ h r k read => rounds_waits (statementsTurn_of_stuck h r read) k) fun read s₁ =>
        .untilEnd (.done fun _ _ _ => trivial) ?_
    refine .thenAt (((settles_statementRound s₁).weaken fun _ _ h => ⟨h.1.1, h.2⟩)) ?_
    rintro (_ | s)
    · exact .done fun _ _ h => ⟨h, trivial⟩
    · exact .done fun _ _ h => ⟨h, trivial⟩
  · exact (statementSync_settles _ hk).resolve_left (hs.tame.noWorker i)

theorem halts_blockBody : Halts rank P blockBody :=
  .mark fun _ => .ifOpened (by decide) (fun _ => .node) fun _ => .bind halts_statements fun _ =>
    .bind (halts_expectClosing _ _ _) fun _ => .delimited

/-! ## Workers and endpoints -/

theorem takes_worker : Takes solid worker :=
  .mark fun _ => .bump fun _ => .bind halts_identifier fun _ => .bind halts_block fun _ => .node

theorem halts_workers : Halts rank P workers := .many (Picks.goesOn takes_worker (by decide)).steps

theorem halts_endpointValue : Halts rank P endpointValue := by
  refine .skim (looks_atKind _) fun _ => .ite (fun _ => .bind halts_recordLiteral fun _ => .ended)
    fun _ => .move (moves_accept nofun) (fun b hb => ?_) fun _ _ => ?_
  · exact .ite (fun h => absurd (hb.symm.trans h) nofun) fun _ => .ended
  · exact .ite (fun _ => .bind halts_reference fun _ => .ended) fun _ => .ended

theorem halts_endpoint (m : Mark) (annotations : Tree (.list .attachment)) :
    Halts rank P (endpoint m annotations) := by
  refine .bind (halts_expect _) fun keyword => .bind halts_nameReference fun type => ?_
  refine .bind halts_identifier fun name => .bind halts_endpointValue fun value => ?_
  exact .bind (halts_expect _) fun semicolon => .node

theorem takes_endpoint (m : Mark) (annotations : Tree (.list .attachment)) :
    Takes (Condition.atKind .endpointKeyword) (endpoint m annotations) :=
  (takes_expect (k := .endpointKeyword) (by decide)).andThen (fun _ _ h => h) fun _ =>
    .bind halts_nameReference fun _ => .bind halts_identifier fun _ =>
    .bind halts_endpointValue fun _ => .bind (halts_expect _) fun _ => .node

/-- An endpoint is behind its annotations, or its keyword is next. -/
theorem steps_localEndpoint : Steps rank do
    if !(← isUnwinding) && ((← atKind .endpointKeyword) || (← atKind .atToken)) then
      let m ← mark
      let annotations ← attachments
      return some (← endpoint m annotations)
    else return none := by
  refine fun s₀ => .look looks_isUnwinding fun unwinding => .look (looks_atKind _) fun keyword =>
    .look (looks_atKind _) fun sign => .ite (fun h => .mark fun m => ?_) fun _ =>
    .done fun _ _ _ => trivial
  simp only [Bool.and_eq_true, Bool.not_eq_true'] at h
  refine .thenAt (R := fun _ scope s => past s₀.position scope s ∨
    Condition.atKind .endpointKeyword scope s ∧ s.position = s₀.position) ?_ fun annotations =>
    .thenAt (R := fun _ => past s₀.position) (.or ?_ (takes_endpoint m annotations rank _)) fun _ =>
      .done fun _ _ h => .inl h
  · intro _ _ scope s hv hs hc hP
    obtain ⟨⟨⟨rfl, hu⟩, hk⟩, ha⟩ := hP
    obtain ⟨a, t, hr, ht⟩ := settles_attachments s hv hs hc rfl
    refine ⟨a, t, hr, ht.imp_right fun ht => ?_⟩
    obtain ⟨rfl, hn⟩ := ht
    have hs : sign = false := by simpa [hu, h.1, ha] using hn
    exact ⟨beq_iff_eq.mp (hk.trans (by simpa [hs] using h.2)), rfl⟩
  · exact (halts_endpoint m annotations).stays (Condition.lasting_past _)

theorem halts_localEndpoints : Halts rank P localEndpoints := .many steps_localEndpoint

theorem halts_callableBodyInner : Halts rank P callableBodyInner := by
  refine .mark fun m => .ifOpened (by decide) (fun _ => .node) fun opening =>
    .bind halts_localEndpoints fun endpoints => .skim (looks_atKind _) fun workersFirst => ?_
  extract_lets behindWorkers
  have hb : ∀ workers, Halts 3 any (behindWorkers workers) := by
    intro workers
    have close : ∀ read, Halts 3 any
        (expectClosing opening .closeBraceToken "function body" >>= fun close =>
          finishDelimited m .callableUnitBody close >>= fun info =>
            pure (Tree.callableBody info (.ofList endpoints) read (.ofList workers))) := fun read =>
      .bind (halts_expectClosing _ _ _) fun _ => .delimited
    exact .ite (fun _ => close _) fun _ => .bind halts_statements fun _ => close _
  clear_value behindWorkers
  exact .ite (fun _ => .bind halts_workers fun _ => hb _) fun _ => hb _

end BallerinaSyntax
