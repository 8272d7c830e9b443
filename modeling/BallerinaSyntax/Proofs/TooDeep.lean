import BallerinaSyntax.Proofs.Behind

/-!
The limit on nesting, to the token. A number that a function returns nests two levels deep, and one
more for each pair of parentheses around it. The first token that stands too deep is reported, once;
then everything up to the next definition is given up.
-/

namespace BallerinaSyntax

open Grammar Parse

variable {r : Recursion} {scope : Scope} {s t u : State} {n k levels : Nat} {ts : List Token}

/-! ## Numbers in parentheses -/

/-- A number in `n` pairs of parentheses. -/
inductive Grouped : Nat → List Token → Prop
  | number {t : Token} (hk : t.kind.isIntegerLiteral = true) : Grouped 0 [t]
  | parenthesized {n : Nat} {opening closing : Token} {ts : List Token}
      (ho : opening.kind = .openParenToken) (inner : Grouped n ts)
      (hc : closing.kind = .closeParenToken) : Grouped (n + 1) (opening :: (ts ++ [closing]))

/-- The tokens up to the number. -/
def beginsGroup (k : Kind) : Bool := k == .openParenToken || k.isIntegerLiteral

/-- The tokens that are none of these. -/
def groupEnds : List Kind :=
  topLevelStart ++
    [.endOfFileToken, .closeParenToken, .commaToken, .semicolonToken, .closeBraceToken]

theorem not_mem_groupEnds {k : Kind} (h : beginsGroup k = true) : k ∉ groupEnds := by
  revert h
  cases k <;> decide

namespace Grouped

theorem length (h : Grouped n ts) : ts.length = 2 * n + 1 := by
  induction h with
  | number => rfl
  | parenthesized _ _ _ ih =>
    rw [List.length_cons, List.length_append, ih, List.length_singleton]
    omega

/-- No definition begins at any of these tokens. -/
theorem kinds (h : Grouped n ts) : ∀ t ∈ ts, t.kind ≠ .endOfFileToken ∧ t.kind ∉ topLevelStart := by
  induction h with
  | number hn =>
    intro t ht
    obtain rfl := List.mem_singleton.mp ht
    have hk := not_mem_groupEnds (k := t.kind) (by rw [beginsGroup, hn, Bool.or_true])
    exact ⟨fun he => hk (by rw [he]; decide), fun he => hk (List.mem_append_left _ he)⟩
  | parenthesized ho _ hc ih =>
    intro t ht
    rcases List.mem_cons.mp ht with rfl | ht
    · rw [ho]
      decide
    · rcases List.mem_append.mp ht with ht | ht
      · exact ih t ht
      · obtain rfl := List.mem_singleton.mp ht
        rw [hc]
        decide

/-- Up to the number the tokens are parentheses. -/
theorem get {b : Buffer} {i : Nat} (h : Grouped n ts) (hs : b.Shows i ts) (hk : k ≤ n) :
    beginsGroup (b.get (i + k)).kind = true := by
  induction h generalizing i k with
  | number hn =>
    obtain rfl := Nat.le_zero.mp hk
    rw [Nat.add_zero, Buffer.Shows.get hs.1, beginsGroup, hn, Bool.or_true]
  | parenthesized ho _ _ ih =>
    cases k with
    | zero =>
      rw [Nat.add_zero, Buffer.Shows.get hs.1, ho]
      rfl
    | succ k =>
      have hinner := ih (Buffer.Shows.append.mp hs.2).1 (Nat.le_of_succ_le_succ hk)
      rwa [Nat.add_right_comm i 1 k] at hinner

/-- A number in parentheses begins with neither a semicolon nor what closes any. -/
theorem not_closed {i : Nat} {b : Buffer} (h : Grouped n ts) (hs : b.Shows i ts) :
    (b.get i).kind ≠ .semicolonToken ∧ (b.get i).kind ≠ .closeParenToken := by
  have hfirst := h.get (k := 0) hs (Nat.zero_le n)
  rw [Nat.add_zero] at hfirst
  have hends := not_mem_groupEnds hfirst
  exact ⟨fun hk => hends (by rw [hk]; decide), fun hk => hends (by rw [hk]; decide)⟩

end Grouped

/-! ## Parentheses -/

/-- An expression in parentheses that no comma follows. -/
theorem leads_parenthesizedExpression {m : Mark} {opening : Token} {e : Expression} {close : Leaf}
    (ho : scope.buffer.get s.position = opening) (hk : opening.kind = .openParenToken)
    (he : Leads r scope (s.goTo (s.position + 1)) expression e t)
    (hm : scope.kindAt t 0 ≠ .commaToken)
    (hc : Leads r scope t (expectClosing (opening.leaf s.position) .closeParenToken
      "parenthesized expression") close u) :
    ∃ info, Leads r scope s (parenthesizedExpression m) (.braced info e) u := by
  have hbump : Straight r scope s bump _ _ := .bump ho (by rw [hk]; decide)
  refine ⟨_, .bind hbump.leads (.bind he (.look (looks_atKind _) (.ite_pos ?_
    (.bind hc (.look (finishDelimited_eq _ _ _) (.pure _))))))⟩
  rw [beq_eq_false_iff_ne.mpr hm]
  rfl

theorem leads_primary_parenthesized {opening : Token} {e : Expression}
    (ho : scope.buffer.get s.position = opening) (hk : opening.kind = .openParenToken)
    (hn : scope.kindAt s 1 ≠ .closeParenToken)
    (h : Leads r scope s (parenthesizedExpression s.mark) e t) :
    Leads r scope s primaryExpression e t := by
  have hkind : scope.kindAt s 0 = .openParenToken := (Scope.kindAt_zero ho).trans hk
  refine .look looks_mark (.look looks_startsLiteral (.ite_neg ?_ (.look (looks_kind 0) ?_)))
  · rw [hkind]
    exact startsLiteral_eq_false (by decide) nofun fun _ => hn
  · rw [hkind]
    exact h

/-! ## Within the limit -/

/-- A number in parentheses is read where each pair may nest one level deeper. -/
theorem Grouped.straight (h : Grouped n ts) (hs : scope.buffer.Shows s.position ts)
    (hn : Operator.expression? (scope.buffer.get (s.position + ts.length)).kind = none)
    (hu : s.unwinding = false) (hl : n + 3 ≤ levels)
    (hd : scope.depth + n < scope.options.maxNestingDepth) :
    ∃ e, Straight (recursion levels) scope s expression e (s.position + ts.length) := by
  induction h generalizing s scope levels with
  | number hk => exact ⟨_, straight_numeral hs.1 hk hn hu hl hd⟩
  | @parenthesized n opening closing ts ho inner hc ih =>
    obtain ⟨l, rfl⟩ := Nat.exists_eq_add_of_le' hl
    obtain ⟨hopening, hinner⟩ := hs
    obtain ⟨hbody, hclosing, -⟩ := Buffer.Shows.append.mp hinner
    have hopen : scope.deeper.buffer.get s.position = opening := Buffer.Shows.get hopening
    have hclose : scope.buffer.get (s.position + 1 + ts.length) = closing :=
      Buffer.Shows.get hclosing
    have hroom : scope.deeper.depth + n < scope.deeper.options.maxNestingDepth := by
      change scope.depth + 1 + n < scope.options.maxNestingDepth
      omega
    obtain ⟨e, he⟩ : ∃ e, Straight (recursion (l + (n + 3))) scope.deeper
        (s.goTo (s.position + 1)) expression e (s.position + 1 + ts.length) :=
      ih hbody (by
        change Operator.expression? (scope.buffer.get (s.position + 1 + ts.length)).kind = none
        rw [hclose, hc]
        rfl) hu (Nat.le_add_left _ _) hroom
    have hnext : scope.deeper.kindAt s 1 ≠ .closeParenToken := (inner.not_closed hbody).2
    have hcomma : scope.deeper.kindAt (s.goTo (s.position + 1 + ts.length)) 0 ≠ .commaToken := by
      have hkind : scope.deeper.kindAt (s.goTo (s.position + 1 + ts.length)) 0 = .closeParenToken :=
        (Scope.kindAt_zero hclose).trans hc
      rw [hkind]
      decide
    obtain ⟨info, hbraced⟩ := leads_parenthesizedExpression (m := s.mark) hopen ho he hcomma
      (Straight.expectClosing hclose hc (by decide)).leads
    have hend : s.position + (opening :: (ts ++ [closing])).length =
        s.position + 1 + ts.length + 1 := by
      simp only [List.length_cons, List.length_append, List.length_nil]
      omega
    rw [hend] at hn ⊢
    exact ⟨_, straight_expression (leads_primary_parenthesized hopen ho hnext hbraced) hn hu
      (Nat.le_trans (Nat.le_add_left 2 _) (Nat.le_add_left (n + 3) l))
      (Nat.lt_of_le_of_lt (Nat.le_add_right _ _) hd)⟩

/-! ## Beyond the limit -/

/-- The same state, with another number of errors counted. -/
def State.Recounts (s t : State) : Prop := ∃ errors, t = { s with errorCount := errors }

namespace State.Recounts

theorem refl (s : State) : s.Recounts s := ⟨s.errorCount, rfl⟩

theorem counted (h : s.Recounts t) : s.Recounts t.counted := by
  obtain ⟨errors, rfl⟩ := h
  exact ⟨errors + 1, rfl⟩

theorem position (h : s.Recounts t) : t.position = s.position := by
  obtain ⟨errors, rfl⟩ := h
  rfl

theorem unwinding (h : s.Recounts t) : t.unwinding = s.unwinding := by
  obtain ⟨errors, rfl⟩ := h
  rfl

theorem errors (h : s.Recounts t) :
    t.lastErrorAt = s.lastErrorAt ∧ t.diagnostics = s.diagnostics := by
  obtain ⟨errors, rfl⟩ := h
  exact ⟨rfl, rfl⟩

end State.Recounts

/-- The diagnostic of what nests too deep. -/
def Scope.tooDeepReport (scope : Scope) (s : State) : Diagnostic :=
  .located scope.file (scope.buffer.get s.position).range.toSpan .nestingTooDeep
    [toString scope.options.maxNestingDepth]

/-- The first error is recorded where it is. -/
theorem State.tooDeep_first (hu : s.unwinding = false) (hr : s.depthReported = false)
    (he : s.lastErrorAt = none) :
    (s.tooDeep scope).lastErrorAt = some s.position ∧ (s.tooDeep scope).diagnostics =
      s.diagnostics.record scope.file scope.options.maxDiagnostics (scope.tooDeepReport s) := by
  have hnew : s.lastErrorAt ≠ some s.position := by
    rw [he]
    nofun
  have hreported := State.reported_eq_recorded { s with depthReported := true } scope
    (i := s.position) (scope.tooDeepReport s) hu hnew
  unfold State.tooDeep
  rw [hr, if_neg Bool.false_ne_true]
  exact ⟨congrArg State.lastErrorAt hreported, congrArg State.diagnostics hreported⟩

/-- What nests too deep is reported at its first token and given up. -/
theorem leads_tooDeep (hd : scope.options.maxNestingDepth ≤ scope.depth) :
    ∃ e, Leads (recursion (levels + 1)) scope s expression e (s.tooDeep scope) := by
  have hplaceholder : Leads (recursion levels) scope (s.tooDeep scope)
      (placeholder .missingExpression) _ (s.tooDeep scope) :=
    .look (looks_token 0) (.look looks_position (.pure _))
  have hmissing : Leads (recursion levels) scope (s.tooDeep scope) missingExpression _ _ :=
    .bind hplaceholder (.pure _)
  have hgivenUp : expression (recursion (levels + 1)) scope s =
      missingExpression (recursion levels) scope (s.tooDeep scope) := by
    change nested (climb expressionRule ExpressionPower.lowest.toNat) missingExpression
      (recursion levels) scope s = _
    rw [nested_eq, if_pos hd]
  exact ⟨_, hgivenUp.trans hmissing⟩

/-- Of a number in parentheses the token is reported that stands one level too deep. -/
theorem Grouped.tooDeep (h : Grouped n ts) (hk : k ≤ n) (hs : scope.buffer.Shows s.position ts)
    (hd : scope.options.maxNestingDepth = scope.depth + k) (hl : k + 3 ≤ levels) :
    ∃ e t, Leads (recursion levels) scope s expression e t ∧
      ((s.goTo (s.position + k)).tooDeep scope).Recounts t := by
  induction k generalizing n s scope levels ts with
  | zero =>
    obtain ⟨l, rfl⟩ := Nat.exists_eq_add_of_le' hl
    obtain ⟨e, he⟩ := leads_tooDeep (s := s) (Nat.le_of_eq hd)
    exact ⟨_, _, he, .refl _⟩
  | succ k ih =>
    obtain ⟨l, rfl⟩ := Nat.exists_eq_add_of_le' hl
    cases h with
    | number => cases hk
    | @parenthesized n opening closing ts ho inner hc =>
    obtain ⟨hopening, hinner⟩ := hs
    obtain ⟨hbody, hclosing, -⟩ := Buffer.Shows.append.mp hinner
    have hopen : scope.deeper.buffer.get s.position = opening := Buffer.Shows.get hopening
    have hinside : k ≤ n := Nat.le_of_succ_le_succ hk
    have hlimit : scope.deeper.options.maxNestingDepth = scope.deeper.depth + k := by
      change scope.options.maxNestingDepth = scope.depth + 1 + k
      omega
    obtain ⟨e, t, he, ht⟩ : ∃ e t, Leads (recursion (l + (k + 3))) scope.deeper
        (s.goTo (s.position + 1)) expression e t ∧
          ((s.goTo (s.position + 1 + k)).tooDeep scope.deeper).Recounts t :=
      ih inner hinside hbody hlimit (Nat.le_add_left _ _)
    have hposition : t.position = s.position + 1 + k :=
      ht.position.trans (State.tooDeep_position _ _)
    have hunwinding : t.unwinding = true := ht.unwinding
    have hgroup : beginsGroup (scope.kindAt t 0) = true := by
      have hget := inner.get (b := scope.buffer) hbody hinside
      change beginsGroup (scope.buffer.get t.position).kind = true
      rwa [hposition]
    have hends := not_mem_groupEnds hgroup
    have hnext : scope.deeper.kindAt s 1 ≠ .closeParenToken := (inner.not_closed hbody).2
    obtain ⟨close, hclose⟩ : ∃ close, Leads (recursion (l + (k + 3))) scope.deeper t (expectClosing
        (opening.leaf s.position) .closeParenToken "parenthesized expression") close t.counted :=
      expectClosing_unwinding _ (fun he => hends (by
        have he : scope.kindAt t 0 = .closeParenToken := he
        rw [he]
        decide)) rfl hunwinding
    obtain ⟨info, hbraced⟩ := leads_parenthesizedExpression (m := s.mark) hopen ho he (fun he => hends (by
        have he : scope.kindAt t 0 = .commaToken := he
        rw [he]
        decide)) hclose
    have hprimary := leads_primary_parenthesized hopen ho hnext hbraced
    have hmany : 1 ≤ (recursion (l + (k + 3))).steps := by
      rw [steps_recursion]
      omega
    have hplace : s.position + 1 + k = s.position + (k + 1) := by omega
    have hcounted := ht.counted
    rw [hplace] at hcounted
    refine ⟨.braced info e, t.counted, ?_, hcounted⟩
    change nested (climb expressionRule ExpressionPower.lowest.toNat) missingExpression
      (recursion (l + (k + 3))) scope s = _
    rw [nested_eq, if_neg (by omega)]
    exact climb_unwinding hprimary hunwinding hmany

/-! ## Functions that return such a number -/

/-- A value behind the word `return`, and whatever becomes of the semicolon. -/
theorem leads_return {word : Token} {e : Expression} {semicolon : Leaf}
    (hw : scope.buffer.get s.position = word) (hk : word.kind = .returnKeyword)
    (hn : scope.kindAt s 1 ≠ .semicolonToken)
    (he : Leads (recursion levels) scope (s.goTo (s.position + 1)) expression e t)
    (hs : Leads (recursion levels) scope t (expect .semicolonToken) semicolon u) :
    ∃ x, Leads (recursion (levels + 1)) scope s statement x u := by
  have hbump : Straight (recursion levels) scope s bump _ _ := .bump hw (by rw [hk]; decide)
  have hvalue : Leads (recursion levels) scope (s.goTo (s.position + 1))
      (whenever (return !(← atKind .semicolonToken)) expression) (.present e) t := by
    have hthere : Leads (recursion levels) scope (s.goTo (s.position + 1))
        (do return !(← atKind .semicolonToken)) true (s.goTo (s.position + 1)) := by
      refine .look (looks_atKind _) ?_
      rw [show (scope.kindAt (s.goTo (s.position + 1)) 0 == Kind.semicolonToken) = false from
        beq_eq_false_iff_ne.mpr hn]
      exact .pure _
    exact .bind hthere (.ite_pos rfl (.bind he (.pure _)))
  refine ⟨_, leads_statement .returnValue hw ?_ (by rw [hk]; rfl) (.look looks_mark
    (.bind hbump.leads (.bind hvalue (.bind hs (.look (finish_eq _ _) (.pure _))))))⟩
  rw [hk]
  cases scope.options.allowAnyIdentifierNames <;> rfl

/-- A body whose first statement unwinds is given up with it. -/
theorem callableBody_unwinding {opening first : Token} {x : Statement}
    (ho : scope.buffer.get s.position = opening) (hok : opening.kind = .openBraceToken)
    (hf : scope.buffer.get (s.position + 1) = first) (hfk : startsStatement first.kind = true)
    (hu : s.unwinding = false) (hl : 3 ≤ levels) (hd : scope.depth < scope.options.maxNestingDepth)
    (hx : Leads (recursion levels) scope.deeper.inList (s.goTo (s.position + 1)) statement x t)
    (ht : t.unwinding = true) (hp : t.position ≠ s.position + 1)
    (hk : scope.kindAt t 0 ≠ .closeBraceToken) :
    ∃ body, Leads (recursion (levels + 1)) scope s callableBody body t.counted := by
  have hsteps : 2 ≤ (recursion levels).steps := by
    rw [steps_recursion]
    omega
  have hbrace : Straight (recursion levels) scope.deeper s (expect .openBraceToken) _ _ :=
    .expect ho hok (by decide)
  have hendpoints : Straight (recursion levels) scope.deeper (s.goTo (s.position + 1))
      localEndpoints [] (s.position + 1) :=
    straight_noEndpoints hf hfk hu (Nat.le_of_lt hsteps)
  have hfirst : scope.deeper.kindAt (s.goTo (s.position + 1)) 0 = first.kind := Scope.kindAt_zero hf
  have hround : Leads (recursion levels) scope.deeper.inList (s.goTo (s.position + 1))
      statementRound (some x) t := by
    refine .look (looks_kind 0) (.ite_neg ?_ (.look (looks_isName _) (.ite_neg ?_
      (.bind (.progressing _ hx hp) (.pure _)))))
    · change ¬(scope.deeper.kindAt (s.goTo (s.position + 1)) 0 == .semicolonToken) = true
      rw [hfirst, beq_of_startsStatement hfk (by decide)]
      exact Bool.false_ne_true
    · change ¬(!startsStatement (scope.deeper.kindAt (s.goTo (s.position + 1)) 0) && _) = true
      rw [hfirst, hfk]
      exact Bool.false_ne_true
  have hstatements : Leads (recursion levels) scope.deeper (s.goTo (s.position + 1)) statements
      (.cons x .nil) t := by
    have hloop : Leads (recursion levels) scope.deeper.inList (s.goTo (s.position + 1))
        (loop statementsTurn #[]) #[x] t := by
      refine .loop_again (c := #[x]) (.look (looks_atListEnd _) (.ite_neg ?_
        (.bind hround (.pure _)))) (.look (looks_atListEnd _) (.ite_pos ?_ (.pure _))) hsteps
      · change ¬(s.unwinding ||
          scope.deeper.kindAt (s.goTo (s.position + 1)) 0 == .closeBraceToken ||
          scope.deeper.kindAt (s.goTo (s.position + 1)) 0 == .endOfFileToken) = true
        rw [hfirst, hu, beq_of_startsStatement hfk (by decide),
          beq_of_startsStatement hfk (by decide)]
        exact Bool.false_ne_true
      · rw [ht, Bool.true_or, Bool.true_or]
    rw [statements_eq]
    exact .bind hloop (.pure _)
  have hworkers : ¬(scope.deeper.kindAt (s.goTo (s.position + 1)) 0 == .workerKeyword) = true := by
    rw [hfirst, beq_of_startsStatement hfk (by decide)]
    exact Bool.false_ne_true
  obtain ⟨close, hclose⟩ : ∃ close, Leads (recursion levels) scope.deeper t (expectClosing
      (opening.leaf s.position) .closeBraceToken "function body") close t.counted :=
    expectClosing_unwinding _ hk rfl ht
  have hinner : ∃ body, Leads (recursion levels) scope.deeper s callableBodyInner body t.counted :=
    ⟨_, .look looks_mark (.bind hbrace.leads (.ite_neg Bool.false_ne_true (.bind hendpoints.leads
      (.look (looks_atKind _) (.ite_neg hworkers (.bind (.pure _) (.ite_neg hworkers
        (.bind hstatements (.bind hclose (.look (finishDelimited_eq _ _ _) (.pure _)))))))))))⟩
  obtain ⟨body, hbody⟩ := hinner
  refine ⟨body, ?_⟩
  change nested callableBodyInner missingBody (recursion levels) scope s = _
  rw [nested_eq, if_neg (Nat.not_le.mpr hd)]
  exact hbody

/-- A function is given by its name and by what becomes of its body. -/
theorem leads_bodyHead {head : List Token} {body : Tree .callableBody}
    (hh : head.map Token.kind = bodyHead) (hs : scope.buffer.Shows s.position head)
    (hl : 2 ≤ levels)
    (hb : Leads (recursion levels) scope (s.goTo (s.position + 4)) callableBody body t) :
    ∃ f : FunctionDefinition, f.IsNamed (scope.buffer.get (s.position + 1)) (s.position + 1) ∧
      Leads (recursion levels) scope s definition (.function f) t := by
  obtain ⟨keyword, name, opening, closing, brace, rfl, hk, hn, ho, hc, hbk⟩ := exists_of_bodyHead hh
  obtain ⟨info, info', info'', hfunction⟩ :=
    leads_function (h := ⟨s.mark, .metadata [] [] .nil, {}⟩) hs hk hn ho hc hbk hb
  rw [← Buffer.Shows.get hs.2.1] at hfunction
  have hsteps : 1 ≤ (recursion levels).steps := by
    rw [steps_recursion]
    omega
  exact ⟨_, ⟨_, _, rfl⟩, leads_definition ⟨hs.1, hs.2.1, trivial⟩ hk hn hsteps hfunction⟩

/-- The tokens of a function that returns a number in `n` pairs of parentheses. -/
inductive ReturnsGrouped (n : Nat) : List Token → Prop
  | intro {head ts : List Token} {word semicolon closing : Token}
      (hh : head.map Token.kind = bodyHead) (hw : word.kind = .returnKeyword) (hg : Grouped n ts)
      (hs : semicolon.kind = .semicolonToken) (hc : closing.kind = .closeBraceToken) :
      ReturnsGrouped n (head ++ word :: (ts ++ [semicolon, closing]))

namespace ReturnsGrouped

variable {ws : List Token}

theorem length (h : ReturnsGrouped n ws) : ws.length = 2 * n + 9 := by
  obtain ⟨hh, -, hg, -, -⟩ := h
  have hhead := congrArg List.length hh
  rw [List.length_map] at hhead
  simp only [List.length_append, List.length_cons, List.length_nil, hhead, hg.length, bodyHead]
  omega

/-- Behind the word `return` no definition begins. -/
theorem kinds (h : ReturnsGrouped n ws) :
    ∀ t ∈ ws.drop 6, t.kind ≠ .endOfFileToken ∧ t.kind ∉ topLevelStart := by
  obtain ⟨hh, hw, hg, hs, hc⟩ := h
  obtain ⟨_, _, _, _, _, rfl, -⟩ := exists_of_bodyHead hh
  intro t ht
  rcases List.mem_append.mp (show t ∈ _ ++ _ from ht) with ht | ht
  · exact hg.kinds t ht
  · simp only [List.mem_cons, List.not_mem_nil, or_false] at ht
    rcases ht with rfl | rfl
    · rw [hs]
      decide
    · rw [hc]
      decide

theorem isEndOfFile (h : ReturnsGrouped n ws) : ∀ t ∈ ws, t.isEndOfFile = false := by
  intro t ht
  have hbehind := h.kinds
  obtain ⟨hh, hw, hg, hs, hc⟩ := h
  obtain ⟨keyword, name, opening, close, brace, rfl, hk, hn, ho, hcl, hb⟩ := exists_of_bodyHead hh
  simp only [List.cons_append, List.nil_append, List.mem_cons] at ht
  rcases ht with rfl | rfl | rfl | rfl | rfl | rfl | ht
  · rw [Token.isEndOfFile, hk]; rfl
  · rw [Token.isEndOfFile, hn]; rfl
  · rw [Token.isEndOfFile, ho]; rfl
  · rw [Token.isEndOfFile, hcl]; rfl
  · rw [Token.isEndOfFile, hb]; rfl
  · rw [Token.isEndOfFile, hw]; rfl
  · rw [Token.isEndOfFile, beq_eq_false_iff_ne]
    exact (hbehind t ht).1

/-- Within the limit the function is read without an error. -/
theorem straight (h : ReturnsGrouped n ws) (hs : scope.buffer.Shows s.position ws)
    (hu : s.unwinding = false) (hl : n + 5 ≤ levels)
    (hd : scope.depth + n + 2 ≤ scope.options.maxNestingDepth) :
    ∃ f : FunctionDefinition, f.IsNamed (scope.buffer.get (s.position + 1)) (s.position + 1) ∧
      Straight (recursion levels) scope s definition (.function f) (s.position + ws.length) := by
  obtain ⟨l, rfl⟩ := Nat.exists_eq_add_of_le' hl
  have hlength := h.length
  obtain ⟨hh, hw, hg, hsk, hc⟩ := h
  rename_i head ts word semicolon closing
  have hfive : head.length = 5 := by simpa [bodyHead] using congrArg List.length hh
  obtain ⟨hhead, hword, hinner⟩ := Buffer.Shows.append.mp hs
  obtain ⟨hgroup, hsemicolon, hclosing, -⟩ := Buffer.Shows.append.mp hinner
  rw [hfive] at hword hgroup hsemicolon hinner
  have hstop : scope.buffer.get (s.position + 6 + ts.length) = semicolon :=
    Buffer.Shows.get hsemicolon
  have hgrouped : scope.deeper.inList.buffer.Shows (s.goTo (s.position + 6)).position ts := hgroup
  have hroom : scope.deeper.inList.depth + n < scope.deeper.inList.options.maxNestingDepth := by
    change scope.depth + 1 + n < scope.options.maxNestingDepth
    omega
  obtain ⟨e, he⟩ : ∃ e, Straight (recursion (l + (n + 3))) scope.deeper.inList
      (s.goTo (s.position + 6)) expression e (s.position + 6 + ts.length) := hg.straight hgrouped (by
    change Operator.expression? (scope.buffer.get (s.position + 6 + ts.length)).kind = none
    rw [hstop, hsk]
    rfl) hu (Nat.le_add_left _ _) hroom
  have hreturn : scope.deeper.inList.buffer.get (s.goTo (s.position + 5)).position = word :=
    Buffer.Shows.get hword
  obtain ⟨x, hx⟩ := leads_return hreturn hw (hg.not_closed hgroup).1 he.leads
    (Straight.expect hstop hsk (by decide)).leads
  have hbehind : scope.buffer.Shows (s.position + 6) ((ts ++ [semicolon]) ++ [closing]) := by
    rw [List.append_assoc]
    exact hinner
  obtain ⟨keyword, name, opening, close, brace, rfl, -, -, -, -, hb⟩ := exists_of_bodyHead hh
  have hread : Straight (recursion (l + (n + 4))) scope.deeper.inList (s.goTo (s.position + 5))
      statement x (s.position + 5 + (word :: (ts ++ [semicolon])).length) := by
    have hend : s.position + 6 + ts.length + 1 =
        s.position + 5 + (word :: (ts ++ [semicolon])).length := by
      simp only [List.length_cons, List.length_append, List.length_nil]
      omega
    rw [← hend]
    exact hx
  obtain ⟨info, hbody⟩ := straight_body (s := s.goTo (s.position + 4)) rfl
    ⟨hhead.2.2.2.2.1, hword, hbehind⟩ hb hc (by rw [hw]; rfl) hu (by omega) (by omega) hread
  obtain ⟨f, hname, hf⟩ := leads_bodyHead hh hhead (by omega) hbody
  have hend : s.position + ([keyword, name, opening, close, brace] ++
      word :: (ts ++ [semicolon, closing])).length =
        (s.goTo (s.position + 4)).position + 1 + (word :: (ts ++ [semicolon])).length + 1 := by
    simp only [State.goTo_position, List.length_append, List.length_cons, List.length_nil]
    omega
  rw [hend]
  exact ⟨f, hname, hf⟩

/-- Beyond the limit the function is given up where it nests too deep. -/
theorem tooDeep (h : ReturnsGrouped n ws) (hs : scope.buffer.Shows s.position ws)
    (hu : s.unwinding = false) (hl : k + 5 ≤ levels) (hk : k ≤ n)
    (hd : scope.options.maxNestingDepth = scope.depth + 1 + k) :
    ∃ (f : FunctionDefinition) (t : State),
      f.IsNamed (scope.buffer.get (s.position + 1)) (s.position + 1) ∧
      Leads (recursion levels) scope s definition (.function f) t ∧
      ((s.goTo (s.position + 6 + k)).tooDeep scope).Recounts t := by
  obtain ⟨l, rfl⟩ := Nat.exists_eq_add_of_le' hl
  obtain ⟨hh, hw, hg, hsk, hc⟩ := h
  rename_i head ts word semicolon closing
  have hfive : head.length = 5 := by simpa [bodyHead] using congrArg List.length hh
  obtain ⟨hhead, hword, hinner⟩ := Buffer.Shows.append.mp hs
  obtain ⟨hgroup, -⟩ := Buffer.Shows.append.mp hinner
  rw [hfive] at hword hgroup
  have hgrouped : scope.deeper.inList.buffer.Shows (s.goTo (s.position + 6)).position ts := hgroup
  obtain ⟨e, t, he, ht⟩ : ∃ e t, Leads (recursion (l + (k + 3))) scope.deeper.inList
      (s.goTo (s.position + 6)) expression e t ∧
        ((s.goTo (s.position + 6 + k)).tooDeep scope.deeper.inList).Recounts t :=
    hg.tooDeep hk hgrouped hd (Nat.le_add_left _ _)
  have hposition : t.position = s.position + 6 + k := ht.position.trans (State.tooDeep_position _ _)
  have hunwinding : t.unwinding = true := ht.unwinding
  have hends : scope.kindAt t 0 ∉ groupEnds := not_mem_groupEnds (by
    change beginsGroup (scope.buffer.get t.position).kind = true
    rw [hposition]
    exact hg.get hgroup hk)
  obtain ⟨leaf, hleaf⟩ : ∃ leaf, Leads (recursion (l + (k + 3))) scope.deeper.inList t
      (expect .semicolonToken) leaf t.counted :=
    expect_unwinding (fun he => hends (by rw [show scope.kindAt t 0 = _ from he]; decide)) hunwinding
  have hreturn : scope.deeper.inList.buffer.get (s.goTo (s.position + 5)).position = word :=
    Buffer.Shows.get hword
  obtain ⟨x, hx⟩ := leads_return hreturn hw (hg.not_closed hgroup).1 he hleaf
  obtain ⟨keyword, name, opening, close, brace, rfl, -, -, -, -, hb⟩ := exists_of_bodyHead hh
  obtain ⟨body, hbody⟩ := callableBody_unwinding (s := s.goTo (s.position + 4))
    (Buffer.Shows.get hhead.2.2.2.2.1) hb (Buffer.Shows.get hword) (by rw [hw]; rfl) hu (by omega)
    (by omega) hx hunwinding (by
      change t.position ≠ s.position + 5
      omega) (fun he => hends (by rw [show scope.kindAt t 0 = _ from he]; decide))
  obtain ⟨f, hname, hf⟩ := leads_bodyHead hh hhead (by omega) hbody
  exact ⟨f, _, hname, hf, ht.counted.counted⟩

end ReturnsGrouped

/-! ## Units -/

section Unit

variable {file : String} {options : Options} {ws ds rest : List Token} {first last : Token}
  {definitions : List Definition}

/-- The first error of a unit is recorded, if any may be. -/
theorem Diagnostics.record_first {file : String} {limit : Nat} (d : Diagnostic) (h : 1 ≤ limit) :
    (Diagnostics.empty.record file limit d).toList = [d] := by
  rw [Diagnostics.record, if_pos (show Diagnostics.empty.size < limit from h)]
  rfl

namespace ReturnsGrouped

theorem begins (h : ReturnsGrouped n ws) (hs : scope.buffer.Shows 0 ws) :
    scope.kindAt {} 0 ∉ noDefinition := by
  obtain ⟨hh, -, -, -, -⟩ := h
  obtain ⟨keyword, _, _, _, _, rfl, hk, -⟩ := exists_of_bodyHead hh
  rw [Scope.kindAt_zero (Buffer.Shows.get hs.1), hk]
  decide

/-- Within the limit the loop over the items comes to what is behind the function. -/
theorem reaches (h : ReturnsGrouped n ws) (hs : scope.buffer.Shows 0 ws)
    (hd : scope.depth + n + 2 ≤ scope.options.maxNestingDepth) :
    ∃ f : FunctionDefinition, f.IsNamed (scope.buffer.get 1) 1 ∧
      UnitReaches scope {} {} (State.goTo {} ws.length) { definitions := #[.function f] } := by
  have hlength := h.length
  obtain ⟨f, hname, hf⟩ : ∃ f : FunctionDefinition,
      f.IsNamed (scope.buffer.get (({} : State).position + 1)) (({} : State).position + 1) ∧
      Straight (recursion (n + 5)) scope {} definition (.function f)
        (({} : State).position + ws.length) := h.straight hs rfl (Nat.le_refl _) hd
  have hplace (i : Nat) : ({} : State).position + i = i := Nat.zero_add i
  rw [hplace] at hname hf
  refine ⟨f, hname, .definition (n := n + 5) rfl (h.begins hs) ?_ fun levels hl =>
    follows_definition.levels hl hf⟩
  change ws.length ≠ 0
  omega

/-- Beyond the limit it comes there as well, with one error. -/
theorem reaches_tooDeep (h : ReturnsGrouped n ws)
    (hs : scope.buffer.Shows 0 (ws ++ first :: rest)) (hk : k ≤ n)
    (hd : scope.options.maxNestingDepth = scope.depth + 1 + k)
    (hf : first.kind = .endOfFileToken ∨ first.kind ∈ topLevelStart) :
    ∃ (f : FunctionDefinition) (v : State), f.IsNamed (scope.buffer.get 1) 1 ∧
      UnitReaches scope {} {} (v.goTo ws.length) { definitions := #[.function f] } ∧
      v.Calm ws.length ∧ v.diagnostics = Diagnostics.empty.record scope.file
        scope.options.maxDiagnostics (scope.tooDeepReport (State.goTo {} (6 + k))) := by
  have hlength := h.length
  obtain ⟨hshows, -⟩ := Buffer.Shows.append.mp hs
  obtain ⟨f, t, hname, hread, ht⟩ : ∃ (f : FunctionDefinition) (t : State),
      f.IsNamed (scope.buffer.get (({} : State).position + 1)) (({} : State).position + 1) ∧
      Leads (recursion (k + 5)) scope {} definition (.function f) t ∧
      ((State.goTo {} (({} : State).position + 6 + k)).tooDeep scope).Recounts t :=
    h.tooDeep hshows rfl (Nat.le_refl _) hk hd
  have hplace (i : Nat) : ({} : State).position + i = i := Nat.zero_add i
  rw [hplace] at hname ht
  have hposition : t.position = 6 + k := ht.position.trans (State.tooDeep_position _ _)
  have hfirst := @State.tooDeep_first scope (State.goTo {} (6 + k)) rfl rfl rfl
  obtain ⟨hlast, hdiagnostics⟩ := hfirst
  obtain ⟨hlast', hdiagnostics'⟩ := ht.errors
  have hreach : UnitReaches scope {} {} t { definitions := #[.function f] } := by
    refine .definition (n := k + 5) rfl (h.begins hshows) ?_ fun levels hl =>
      follows_definition.levels hl hread
    change t.position ≠ 0
    omega
  -- What is left of the function is skipped.
  have hskipped : scope.buffer.Shows t.position (ws.drop (6 + k) ++ [first]) := by
    have hsplit : ws ++ first :: rest =
        ws.take (6 + k) ++ ((ws.drop (6 + k) ++ [first]) ++ rest) := by
      rw [List.append_assoc, ← List.append_assoc, List.take_append_drop]
      rfl
    have htake : 0 + (ws.take (6 + k)).length = t.position := by
      rw [List.length_take_of_le (by omega), hposition, Nat.zero_add]
    rw [hsplit] at hs
    have hrest := (Buffer.Shows.append.mp (Buffer.Shows.append.mp hs).2).1
    rwa [htake] at hrest
  have hkinds : ∀ t ∈ ws.drop (6 + k), t.kind ≠ .endOfFileToken ∧ t.kind ∉ topLevelStart := by
    intro t ht
    rw [← List.drop_drop] at ht
    exact h.kinds t (List.mem_of_mem_drop ht)
  have hresumed := hreach.trans (.resume ht.unwinding hskipped hkinds hf)
  have hend : t.position + (ws.drop (6 + k)).length = ws.length := by
    rw [List.length_drop]
    omega
  rw [hend] at hresumed
  refine ⟨f, { t with position := ws.length, unwinding := false, depthReported := false }, hname,
    hresumed,
    ⟨rfl, rfl, fun i hi => ?_⟩, hdiagnostics'.trans hdiagnostics⟩
  have hi : t.lastErrorAt = some i := hi
  rw [hlast', hlast, State.goTo_position] at hi
  obtain rfl := Option.some.inj hi
  omega

end ReturnsGrouped

/-- A function that returns a number in `n` pairs of parentheses is read without an error if `n + 2`
levels of nesting are allowed. Otherwise there is one error, at the first token behind `return` that
nests too deep. In both cases the function keeps its name, and the definitions behind it are read as
they are by themselves. -/
theorem SourceUnit.parse?_returnsGrouped (h : ReturnsGrouped n ws)
    (hd : CleanDefinitions file options ds last definitions) (hl : 1 ≤ options.maxNestingDepth)
    (hm : 1 ≤ options.maxDiagnostics) :
    ∃ t f, (⟨file, { tokens := ws ++ (ds ++ [last]) }⟩ : SourceUnit).parse? options = some (.ok t) ∧
      t.root.imports = [] ∧
      t.root.definitions = .function f :: definitions.map (Definition.shifted ws.length) ∧
      (∃ name, ws[1]? = some name ∧ f.IsNamed name 1) ∧
      if n + 2 ≤ options.maxNestingDepth then t.diagnostics = []
      else ∃ token, ws[5 + options.maxNestingDepth]? = some token ∧
        t.diagnostics.map (fun d => (d.code, d.span)) = [(1020, some token.range.toSpan)] := by
  let u : SourceUnit := ⟨file, { tokens := ws ++ (ds ++ [last]) }⟩
  have hlength := h.length
  have hended : Token.Ended (ws ++ (ds ++ [last])) :=
    .append h.isEndOfFile ⟨ds, last, rfl, hd.inside, hd.ends⟩
  have hlist : (u.scope options).buffer.tokens.toList = [] ++ (ws ++ (ds ++ [last])) :=
    hended.buffer.1
  have hall : (u.scope options).buffer.Shows 0 (ws ++ (ds ++ [last])) := Buffer.shows_tokens hlist
  have htoken (i : Nat) (hi : i < ws.length) : (u.scope options).buffer.get i = ws[i] := by
    rw [← List.take_append_drop i ws, List.append_assoc] at hall
    have hshows := (Buffer.Shows.append.mp hall).2
    rw [List.drop_eq_getElem_cons hi, List.length_take_of_le (Nat.le_of_lt hi),
      Nat.zero_add] at hshows
    exact Buffer.Shows.get hshows.1
  have hname : ws[1]? = some ((u.scope options).buffer.get 1) := by
    rw [List.getElem?_eq_getElem (by omega), htoken 1 (by omega)]
  by_cases hfits : n + 2 ≤ options.maxNestingDepth
  · have hroom : (u.scope options).depth + n + 2 ≤ (u.scope options).options.maxNestingDepth := by
      change 0 + n + 2 ≤ options.maxNestingDepth
      omega
    obtain ⟨f, hf, hreach⟩ := h.reaches (Buffer.Shows.append.mp hall).1 hroom
    obtain ⟨t, hparse, himports, hdefinitions, hdiagnostics⟩ :=
      hd.parse? rfl h.isEndOfFile hl (State.calm_initial _) hreach
    exact ⟨t, f, hparse, himports, hdefinitions, ⟨_, hname, hf⟩,
      by rw [if_pos hfits]; exact hdiagnostics⟩
  · obtain ⟨k, hk⟩ : ∃ k, options.maxNestingDepth = k + 1 := ⟨options.maxNestingDepth - 1, by omega⟩
    have hlimit : (u.scope options).options.maxNestingDepth = (u.scope options).depth + 1 + k := by
      change options.maxNestingDepth = 0 + 1 + k
      omega
    obtain ⟨first, rest, hfirst, hstart⟩ := hd.first
    rw [hfirst] at hall
    obtain ⟨f, v, hf, hreach, hcalm, hreport⟩ := h.reaches_tooDeep hall (by omega) hlimit hstart
    obtain ⟨t, hparse, himports, hdefinitions, hdiagnostics⟩ :=
      hd.parse? rfl h.isEndOfFile hl hcalm hreach
    refine ⟨t, f, hparse, himports, hdefinitions, ⟨_, hname, hf⟩, ?_⟩
    have hplace : 5 + options.maxNestingDepth = 6 + k := by omega
    have hinside : 6 + k < ws.length := by omega
    have hone : v.diagnostics.toList = [(u.scope options).tooDeepReport (State.goTo {} (6 + k))] :=
      hreport ▸ Diagnostics.record_first _ hm
    rw [if_neg hfits, hplace, List.getElem?_eq_getElem hinside]
    refine ⟨_, rfl, ?_⟩
    rw [hdiagnostics, hone, ← htoken _ hinside]
    rfl

end Unit

/-- `function f() { return (1); }` -/
def returnsOne : List Token :=
  [.fixed .functionKeyword 0, .place .identifier "f" 9, .fixed .openParenToken 10,
    .fixed .closeParenToken 11, .fixed .openBraceToken 13, .fixed .returnKeyword 15,
    .fixed .openParenToken 22, .place .decimalIntegerLiteral "1" 23, .fixed .closeParenToken 24,
    .fixed .semicolonToken 25, .fixed .closeBraceToken 27]

theorem returnsOne_grouped : ReturnsGrouped 1 returnsOne :=
  have hnumber : Grouped 0 [.place .decimalIntegerLiteral "1" 23] := .number rfl
  have hgroup : Grouped 1 (.fixed .openParenToken 22 :: ([.place .decimalIntegerLiteral "1" 23] ++
      [.fixed .closeParenToken 24])) := .parenthesized rfl hnumber rfl
  have hhead : (returnsOne.take 5).map Token.kind = bodyHead := rfl
  .intro hhead rfl hgroup rfl rfl

/-- The only definition of a unit that imports nothing and is read without an error. -/
def SourceUnit.onlyDefinition? (u : SourceUnit) (options : Options) : Option Definition :=
  ((u.parse? options).bind (·.toOption)).bind fun t =>
    match t.diagnostics, t.root.imports, t.root.definitions with
    | [], [], [d] => some d
    | _, _, _ => none

theorem SourceUnit.of_onlyDefinition? {u : SourceUnit} {options : Options} {d : Definition}
    (h : u.onlyDefinition? options = some d) : ∃ t, u.parse? options = some (.ok t) ∧
      t.diagnostics = [] ∧ t.root.imports = [] ∧ t.root.definitions = [d] := by
  obtain ⟨t, ht, hd⟩ := Option.bind_eq_some_iff.mp h
  obtain ⟨result, hresult, hok⟩ := Option.bind_eq_some_iff.mp ht
  cases result with
  | error _ => cases hok
  | ok t' =>
    obtain rfl : t' = t := Option.some.inj hok
    refine ⟨t', hresult, ?_⟩
    split at hd
    next hdiagnostics himports hdefinitions =>
      exact ⟨hdiagnostics, himports, by rw [hdefinitions, Option.some.inj hd]⟩
    next => cases hd

/-- Under a limit of two the number is one level too deep. -/
theorem returnsOne_reported : ∃ d, ReturnsGrouped 1 returnsOne ∧
    CleanDefinitions "one.bal" { maxNestingDepth := 2 }
      (.fixed .functionKeyword 29 :: emptyFunction 29) (.endOfFile 45) [d] ∧
    ∃ t f, (⟨"one.bal", { tokens := returnsOne ++
        ((.fixed .functionKeyword 29 :: emptyFunction 29) ++ [.endOfFile 45]) }⟩ :
          SourceUnit).parse? { maxNestingDepth := 2 } = some (.ok t) ∧
      t.root.definitions = [.function f, d.shifted 11] ∧
      f.IsNamed (.place .identifier "f" 9) 1 ∧
      t.diagnostics.map (fun d => (d.code, d.span)) = [(1020, some ⟨23, 1⟩)] := by
  have hread : ((⟨"one.bal", { tokens := (.fixed .functionKeyword 29 :: emptyFunction 29) ++
        [.endOfFile 45] }⟩ : SourceUnit).onlyDefinition? { maxNestingDepth := 2 }).isSome := by
    decide +kernel
  obtain ⟨d, hread⟩ := Option.isSome_iff_exists.mp hread
  have hd : CleanDefinitions "one.bal" { maxNestingDepth := 2 }
      (.fixed .functionKeyword 29 :: emptyFunction 29) (.endOfFile 45) [d] :=
    ⟨by decide, rfl, SourceUnit.of_onlyDefinition? hread, by rintro t ⟨⟩; decide⟩
  obtain ⟨t, f, ht, -, hdefinitions, ⟨name, hname, hf⟩, hif⟩ :=
    SourceUnit.parse?_returnsGrouped returnsOne_grouped hd (by decide) (by decide)
  rw [if_neg (by decide)] at hif
  obtain ⟨token, htoken, hone⟩ := hif
  obtain rfl := Option.some.inj htoken
  obtain rfl := Option.some.inj hname
  exact ⟨d, returnsOne_grouped, hd, t, f, ht, hdefinitions, hf, hone⟩

end BallerinaSyntax
