import BallerinaSyntax.Proofs.Nesting
import BallerinaSyntax.Proofs.Stray

/-!
Literals that are never closed. Outside of all lists of statements and members nothing resumes but
the closing token itself, so a literal of a global variable that is not closed takes everything up
to the end of the file with it, the definitions behind the variable included.
-/

namespace BallerinaSyntax

open Grammar Parse

variable {α β : Type} {r : Recursion} {scope : Scope} {s t u : State}

/-! ## Skipping to the end -/

/-- A seek passes the tokens that it does not stop at. -/
theorem Buffer.Shows.seek_eq {b : Buffer} {stop : Kind → Bool} {i count : Nat} {ts : List Token}
    {last : Token} (hs : b.Shows i (ts ++ [last])) (hp : ∀ t ∈ ts, stop t.kind = false)
    (hl : stop last.kind = true) (hc : ts.length < count) :
    b.seek stop count i = i + ts.length := by
  induction ts generalizing i count with
  | nil =>
    obtain ⟨n, rfl⟩ := Nat.exists_eq_add_of_lt hc
    rw [Buffer.seek, Buffer.Shows.get hs.1, if_pos hl]
    rfl
  | cons t ts ih =>
    obtain ⟨n, rfl⟩ := Nat.exists_eq_add_of_lt hc
    have ht : ¬stop t.kind = true := ne_true_of_eq_false (hp t List.mem_cons_self)
    rw [Buffer.seek, Buffer.Shows.get hs.1, if_neg ht, List.length_cons,
      ih hs.2 (fun t ht => hp t (List.mem_cons_of_mem _ ht)) (by rw [List.length_cons] at hc; omega)]
    omega

/-- The tokens up to one at which something resumes, or to the end of the file, are passed. -/
theorem Scope.found_eq {stop : Kind → Bool} {ts : List Token} {last : Token}
    (hs : scope.buffer.Shows s.position (ts ++ [last]))
    (hp : ∀ t ∈ ts, t.kind ≠ .endOfFileToken ∧ stop t.kind = false)
    (hl : last.kind = .endOfFileToken ∨ stop last.kind = true) :
    scope.found stop s = s.position + ts.length := by
  have hlast := (Buffer.Shows.append.mp hs).2.1
  have hsize : s.position + ts.length < scope.buffer.size := (Array.getElem?_eq_some_iff.mp hlast).1
  refine Buffer.Shows.seek_eq hs (fun t ht => ?_) ?_ (by omega)
  · obtain ⟨hk, hstop⟩ := hp t ht
    rw [hstop, Bool.or_false, beq_eq_false_iff_ne]
    exact hk
  · rw [Bool.or_eq_true, beq_iff_eq]
    exact hl

/-- The state after an error that is recorded. -/
def State.recorded (s : State) (scope : Scope) (i : Nat) (d : Diagnostic) : State :=
  { s with
    errorCount := s.errorCount + 1
    lastErrorAt := some i
    diagnostics := s.diagnostics.record scope.file scope.options.maxDiagnostics d }

/-- An error at another token than the last one is recorded, unless something is unwound. -/
theorem State.reported_eq_recorded (s : State) (scope : Scope) {i : Nat} (d : Diagnostic)
    (hu : s.unwinding = false) (he : s.lastErrorAt ≠ some i) :
    s.reported scope i d = s.recorded scope i d := by
  have h : ¬(s.unwinding || s.lastErrorAt == some i) = true := by simpa [hu] using he
  exact if_neg h

/-- The diagnostic of a construct that is not closed. -/
def Scope.unclosedReport (scope : Scope) (opening : Leaf) (close : Kind) (construct : String) :
    Diagnostic :=
  .located scope.file opening.range.toSpan .unterminated [construct, close.describe]

/-- The state after `n` tokens were skipped in search of a closing token. -/
def State.skipped (s : State) (scope : Scope) (n : Nat) (close : Kind) : State :=
  (s.goTo (s.position + n)).recorded scope s.position (scope.skipReport s n close.describe)

/-- The state after that, and after a report of what is not closed. -/
def State.abandoned (s : State) (scope : Scope) (n : Nat) (opening : Leaf) (close : Kind)
    (construct : String) : State :=
  { (s.skipped scope n close).recorded scope opening.index
      (scope.unclosedReport opening close construct) with unwinding := true }

/-- Where nothing resumes but the closing token, and it does not come, the rest of the file is
skipped and reported, and then the opening token. -/
theorem expectClosing_unclosed {opening : Leaf} {close : Kind} (construct : String)
    {first last : Token} {rest : List Token}
    (hs : scope.buffer.Shows s.position (first :: rest ++ [last]))
    (hp : ∀ t ∈ first :: rest, t.kind ≠ .endOfFileToken ∧ t.kind ≠ close)
    (hl : last.kind = .endOfFileToken) (hk : close ≠ .endOfFileToken) (hr : scope.recovery = [])
    (hu : s.unwinding = false) (he : s.lastErrorAt = none) (hm : opening.missing = false)
    (ho : opening.index ≠ s.position) :
    ∃ leaf, Leads r scope s (expectClosing opening close construct) leaf
      (s.abandoned scope (first :: rest).length opening close construct) := by
  have hfound : scope.found (scope.resume (· == close)) s = s.position + (first :: rest).length := by
    refine Scope.found_eq hs (fun t ht => ⟨(hp t ht).1, ?_⟩) (.inl hl)
    rw [Scope.resume, hr, List.any_nil, Bool.or_false, beq_eq_false_iff_ne]
    exact (hp t ht).2
  have hfirst : ¬(scope.kindAt s 0 == close) = true := by
    rw [Scope.kindAt_zero (Buffer.Shows.get hs.1), beq_iff_eq]
    exact (hp first List.mem_cons_self).2
  have hmissing : ¬opening.missing = true := ne_true_of_eq_false hm
  have hrunning : ¬s.unwinding = true := ne_true_of_eq_false hu
  have hskip : Leads r scope s (skipUntil (· == close) close.describe) (first :: rest).length
      (s.skipped scope (first :: rest).length close) := by
    have hskip := skipUntil_eq (· == close) close.describe r scope s
      (n := (first :: rest).length) (by rw [hfound]; omega)
    have hpositive : 0 < (first :: rest).length := Nat.succ_pos _
    rw [if_pos hpositive, hfound] at hskip
    have hnew : s.lastErrorAt ≠ some s.position := by
      rw [he]
      exact (Option.some_ne_none _).symm
    exact hskip.trans (congrArg (fun t => some (_, t))
      (State.reported_eq_recorded (s.goTo (s.position + (first :: rest).length)) scope _ hu hnew))
  -- The construct is reported where it is opened, the skip was at another token.
  have hreport : Leads r scope (s.skipped scope (first :: rest).length close)
      (reportUnterminated opening close construct) ()
      (s.abandoned scope (first :: rest).length opening close construct) := by
    have hnew : (s.skipped scope (first :: rest).length close).lastErrorAt ≠ some opening.index :=
      fun h => ho (Option.some.inj h).symm
    exact congrArg (fun t : State => some ((), { t with unwinding := true }))
      (State.reported_eq_recorded (s.skipped scope (first :: rest).length close) scope _ hu hnew)
  have hlast : ¬(last.kind == close) = true := by
    rw [hl, beq_iff_eq]
    exact hk.symm
  refine ⟨_, .look (looks_atKind close) (.ite_neg hfirst (.ite_neg hmissing
    (.look looks_isUnwinding (.ite_neg hrunning (.bind hskip (.look (looks_atKind close)
      (.ite_neg ?_ (.bind hreport (.look (looks_token 0)
        (.look looks_position (.pure _)))))))))))⟩
  rwa [Scope.kindAt_zero (Buffer.Shows.get (Buffer.Shows.append.mp hs).2.1)]

/-- The state after an error that is only counted. -/
def State.counted (s : State) : State := { s with errorCount := s.errorCount + 1 }

/-- What is not closed is left open while something unwinds, and counts as an error. -/
theorem expectClosing_unwinding {opening : Leaf} {close : Kind} (construct : String)
    (hk : scope.kindAt s 0 ≠ close) (hm : opening.missing = false) (hu : s.unwinding = true) :
    ∃ leaf, Leads r scope s (expectClosing opening close construct) leaf s.counted := by
  have hcount : Leads r scope s countError () s.counted := rfl
  exact ⟨_, .look (looks_atKind close) (.ite_neg (by rwa [beq_iff_eq])
    (.ite_neg (ne_true_of_eq_false hm) (.look looks_isUnwinding (.ite_pos hu (.bind hcount
      (.look (looks_token 0) (.look looks_position (.pure _))))))))⟩

/-! ## Lists and operators that end -/

theorem straight_moreBehind {item : Parse α} {separator : Kind}
    (h : s.unwinding = true ∨ scope.kindAt s 0 ≠ separator) (hr : 1 ≤ r.steps) :
    Straight r scope s (moreBehind separator item) [] s.position := by
  refine .many_none (.look looks_isUnwinding ?_) hr
  cases hu : s.unwinding with
  | true => exact .ite_pos rfl (.pure _ rfl)
  | false =>
    rcases h with h | h
    · cases hu.symm.trans h
    · exact .ite_neg nofun (.bind (.accept_no h) (.pure _ rfl))

/-- A climb ends with its primary if that unwinds. -/
theorem climb_unwinding {c : Category} {rule : OperatorRule c} {power : Nat} {tree : Tree c}
    (hp : Leads r scope s rule.primary tree t) (hu : t.unwinding = true) (hr : 1 ≤ r.steps) :
    Leads r scope s (climb rule power) tree t := by
  have hstop : Straight r scope t (loop (climbRound rule power s.mark) tree) tree t.position :=
    .loop_stop (.look looks_isUnwinding (.ite_pos hu (.pure _ rfl))) hr
  exact .look looks_mark (.bind hp hstop)

/-! ## Array literals -/

/-- A bracket in front of an element that is not followed by a comma. -/
theorem arrayLiteral_leads {opening : Token} {element : Expression} {close : Leaf}
    (ho : scope.buffer.get s.position = opening) (hk : opening.kind = .openBracketToken)
    (hn : scope.kindAt s 1 ≠ .closeBracketToken ∧ scope.kindAt s 1 ≠ .endOfFileToken)
    (hu : s.unwinding = false) (hr : 1 ≤ r.steps)
    (he : Leads r scope (s.goTo (s.position + 1)) expression element t)
    (hm : t.unwinding = true ∨ scope.kindAt t 0 ≠ .commaToken)
    (hc : Leads r scope t (expectClosing (opening.leaf s.position) .closeBracketToken
      "array literal") close u) :
    ∃ info, Leads r scope s arrayLiteral (.array info (.cons element .nil)) u := by
  have hmore : Leads r scope t (moreBehind .commaToken expression) [] t := straight_moreBehind hm hr
  have hbump : Leads r scope s bump _ _ := (Straight.bump ho (by rw [hk]; decide)).leads
  refine ⟨_, .look looks_mark (.bind hbump (.bind (.look (looks_atListEnd _) (.ite_neg ?_
    (.bind he (.bind hmore (.pure _))))) (.bind hc (.look (finishDelimited_eq _ _ _) (.pure _)))))⟩
  change ¬(s.unwinding || scope.kindAt s 1 == .closeBracketToken ||
    scope.kindAt s 1 == .endOfFileToken) = true
  rw [hu, beq_eq_false_iff_ne.mpr hn.1, beq_eq_false_iff_ne.mpr hn.2]
  exact Bool.false_ne_true

/-- An array literal that unwinds is the expression. -/
theorem expression_of_arrayLiteral {levels : Nat} {tree : Expression}
    (hk : scope.kindAt s 0 = .openBracketToken) (hu : t.unwinding = true) (hl : 2 ≤ levels)
    (hd : scope.depth < scope.options.maxNestingDepth)
    (h : Leads (recursion levels) scope.deeper s arrayLiteral tree t) :
    Leads (recursion (levels + 1)) scope s expression tree t := by
  have hkind : scope.deeper.kindAt s 0 = .openBracketToken := hk
  have hprimary : Leads (recursion levels) scope.deeper s primaryExpression tree t := by
    refine .look looks_mark (.look looks_startsLiteral (.ite_neg ?_ (.look (looks_kind 0) ?_)))
    · rw [hkind]
      exact startsLiteral_eq_false (by decide) nofun nofun
    · rw [hkind]
      exact h
  have hsteps : 1 ≤ (recursion levels).steps := by
    obtain ⟨n, rfl⟩ := Nat.exists_eq_add_of_le' hl
    exact Nat.le_add_left 1 n
  change nested (climb expressionRule ExpressionPower.lowest.toNat) missingExpression
    (recursion levels) scope s = _
  rw [nested_eq, if_neg (Nat.not_le.mpr hd)]
  exact climb_unwinding hprimary hu hsteps

/-- The brackets and the number of a literal that is not closed, from `pos` on. -/
def unclosed : Nat → Nat → List Token
  | 0, pos => [.place .decimalIntegerLiteral "1" pos]
  | n + 1, pos => .fixed .openBracketToken pos :: unclosed n (pos + 1)

theorem unclosed_length (n pos : Nat) : (unclosed n pos).length = n + 1 := by
  induction n generalizing pos with
  | zero => rfl
  | succ n ih => rw [unclosed, List.length_cons, ih]

section Unclosed

variable {first last : Token} {rest : List Token}

/-- Tokens that end a number and hold no bracket that would close anything, up to the end. -/
structure OpenEnded (first : Token) (rest : List Token) (last : Token) : Prop where
  begins : first.kind ∈ topLevelStart
  passed : ∀ t ∈ first :: rest, t.kind ≠ .endOfFileToken ∧ t.kind ≠ .closeBracketToken
  ends : last.kind = .endOfFileToken

theorem ends_of_topLevelStart : ∀ k ∈ topLevelStart,
    Operator.expression? k = none ∧ k ≠ .commaToken := by decide

/-- The innermost bracket is reported, after all that is behind it was skipped. -/
theorem expression_unclosed {n pos levels : Nat} (h : OpenEnded first rest last)
    (hs : scope.buffer.Shows s.position (unclosed (n + 1) pos ++ (first :: rest ++ [last])))
    (hr : scope.recovery = []) (hu : s.unwinding = false) (he : s.lastErrorAt = none)
    (hd : scope.depth + n + 1 < scope.options.maxNestingDepth) (hl : n + 4 ≤ levels) :
    ∃ tree t, Leads (recursion levels) scope s expression tree t ∧
      t.position = s.position + (n + 2) + (first :: rest).length ∧ t.unwinding = true ∧
      t.diagnostics = ((s.goTo (s.position + (n + 2))).abandoned scope (first :: rest).length
        ((Token.fixed .openBracketToken (pos + n)).leaf (s.position + n)) .closeBracketToken
        "array literal").diagnostics := by
  induction n generalizing s pos levels scope with
  | zero =>
    obtain ⟨l, rfl⟩ := Nat.exists_eq_add_of_le' hl
    obtain ⟨hopening, hnumber, hfirst⟩ := hs
    obtain ⟨hoperator, hcomma⟩ := ends_of_topLevelStart _ h.begins
    have hopen := Buffer.Shows.get hopening
    have hnext : scope.buffer.get (s.position + 2) = first := Buffer.Shows.get hfirst.1
    have hbehind : scope.deeper.buffer.Shows (s.goTo (s.position + 2)).position
        (first :: rest ++ [last]) := hfirst
    have helement : Straight (recursion (l + 3)) scope.deeper (s.goTo (s.position + 1)) expression
        ((Phrase.integer none (.place .decimalIntegerLiteral "1" (pos + 1))).tree (s.position + 1))
        (s.position + 2) :=
      straight_numeral hnumber rfl (by rw [State.goTo_position, Scope.deeper, hnext, hoperator]) hu
        (Nat.le_add_left 3 l) hd
    have hnumeral : scope.deeper.kindAt s 1 = .decimalIntegerLiteral :=
      congrArg Token.kind (Buffer.Shows.get hnumber)
    have hend : scope.deeper.kindAt (s.goTo (s.position + 2)) 0 ≠ .commaToken := by
      have hkind : scope.deeper.kindAt (s.goTo (s.position + 2)) 0 = first.kind :=
        congrArg Token.kind hnext
      rwa [hkind]
    have hmoved : s.position ≠ s.position + 2 := by omega
    obtain ⟨close, hclose⟩ : ∃ close, Leads (recursion (l + 3)) scope.deeper
        (s.goTo (s.position + 2)) (expectClosing
          ((Token.fixed .openBracketToken pos).leaf s.position) .closeBracketToken "array literal")
        close _ :=
      expectClosing_unclosed "array literal" hbehind h.passed h.ends (by decide) hr hu he rfl hmoved
    obtain ⟨info, harray⟩ : ∃ info, Leads (recursion (l + 3)) scope.deeper s arrayLiteral
        (.array info (.cons _ .nil)) _ :=
      arrayLiteral_leads hopen rfl (by rw [hnumeral]; decide) hu (Nat.le_add_left 1 (l + 1)) helement
        (.inr hend) hclose
    exact ⟨_, _, expression_of_arrayLiteral (Scope.kindAt_zero hopen) rfl (Nat.le_add_left 2 (l + 1))
      (by omega) harray, rfl, rfl, rfl⟩
  | succ n ih =>
    obtain ⟨l, rfl⟩ := Nat.exists_eq_add_of_le' hl
    obtain ⟨hopening, hinner⟩ := hs
    have hopen := Buffer.Shows.get hopening
    have hinner : scope.deeper.buffer.Shows (s.goTo (s.position + 1)).position
        (unclosed (n + 1) (pos + 1) ++ (first :: rest ++ [last])) := hinner
    have hbracket : scope.deeper.kindAt s 1 = .openBracketToken :=
      congrArg Token.kind (Buffer.Shows.get hinner.1)
    have hroom : scope.deeper.depth + n + 1 < scope.deeper.options.maxNestingDepth := by
      change scope.depth + 1 + n + 1 < scope.options.maxNestingDepth
      omega
    obtain ⟨element, t, helement, hposition, hunwinding, hdiagnostics⟩ :=
      ih hinner hr hu he hroom (Nat.le_add_left (n + 4) l)
    have hlast : scope.deeper.kindAt t 0 = .endOfFileToken := by
      have hbehind := (Buffer.Shows.append.mp (Buffer.Shows.append.mp hinner).2).2.1
      rw [unclosed_length, ← hposition] at hbehind
      rw [Scope.kindAt_zero (Buffer.Shows.get hbehind), h.ends]
    obtain ⟨close, hclose⟩ : ∃ close, Leads (recursion (l + (n + 4))) scope.deeper t (expectClosing
        ((Token.fixed .openBracketToken pos).leaf s.position) .closeBracketToken "array literal")
        close t.counted :=
      expectClosing_unwinding "array literal" (by rw [hlast]; decide) rfl hunwinding
    obtain ⟨info, harray⟩ : ∃ info, Leads (recursion (l + (n + 4))) scope.deeper s arrayLiteral
        (.array info (.cons element .nil)) t.counted :=
      arrayLiteral_leads hopen rfl (by rw [hbracket]; decide) hu (Nat.le_add_left 1 (l + (n + 2)))
        helement (.inl hunwinding) hclose
    have hcounted : t.counted.unwinding = true := hunwinding
    have hposition : t.counted.position = s.position + (n + 1 + 2) + (first :: rest).length := by
      change t.position = _
      rw [hposition, State.goTo_position]
      omega
    refine ⟨_, _, expression_of_arrayLiteral (Scope.kindAt_zero hopen) hcounted
      (Nat.le_add_left 2 (l + (n + 2))) (by omega) harray, hposition, hcounted, ?_⟩
    have hindex : s.position + 1 + (n + 2) = s.position + (n + 1 + 2) := by omega
    have hinnermost : s.position + 1 + n = s.position + (n + 1) := by omega
    have hplace : pos + 1 + n = pos + (n + 1) := by omega
    rw [State.goTo_position, hindex, hinnermost, hplace] at hdiagnostics
    exact hdiagnostics

/-! ## Variables -/

/-- While something unwinds, errors are only counted. -/
theorem State.reported_eq_counted (s : State) (scope : Scope) (i : Nat) (d : Diagnostic)
    (hu : s.unwinding = true) : s.reported scope i d = s.counted := by
  have h : (s.unwinding || s.lastErrorAt == some i) = true := by rw [hu, Bool.true_or]
  exact if_pos h

/-- A token that is not there is made up while something unwinds, and counts as an error. -/
theorem expect_unwinding {k : Kind} (hk : scope.kindAt s 0 ≠ k) (hu : s.unwinding = true) :
    ∃ leaf, Leads r scope s (expect k) leaf s.counted := by
  refine ⟨_, .look (looks_atKind k) (.ite_neg (by rwa [beq_iff_eq]) (.bind (a := ())
    (.look looks_describeCurrent (.look (looks_token 0) (.look looks_position
      (.look (looks_located _ _ _) ?_)))) (.look (looks_token 0) (.look looks_position (.pure _)))))⟩
  exact congrArg (fun t => some ((), t)) (State.reported_eq_counted _ _ _ _ hu)

/-- A variable whose value unwinds at the end of the file. -/
theorem definition_unwinding {word name equals : Token} {value : Expression}
    (hs : scope.buffer.Shows s.position [word, name, equals]) (hw : word.kind = .intKeyword)
    (hn : name.kind = .identifier) (hq : equals.kind = .equalsToken) (hu : s.unwinding = false)
    {levels : Nat} (hl : 3 ≤ levels) (hd : scope.depth < scope.options.maxNestingDepth)
    (hv : Leads (recursion levels) scope (s.goTo (s.position + 3)) expression value t)
    (ht : t.unwinding = true) (hk : scope.kindAt t 0 = .endOfFileToken) :
    ∃ v, Leads (recursion levels) scope s definition (.variable v) t.counted := by
  obtain ⟨hword, hname, hequals, -⟩ := hs
  have hkind : scope.kindAt s 0 = .intKeyword :=
    (Scope.kindAt_zero (Buffer.Shows.get hword)).trans hw
  have hnext : scope.typeOperator? (s.goTo (s.position + 1)) = none := by
    have hkind : scope.kindAt (s.goTo (s.position + 1)) 0 = .identifier :=
      (Scope.kindAt_zero (Buffer.Shows.get hname)).trans hn
    rw [Scope.typeOperator?, hkind]
    rfl
  have htype := straight_intType hword hw hnext hu hl hd
  have hidentifier : Straight (recursion levels) scope (s.goTo (s.position + 1)) identifier _ _ :=
    straight_identifier (Buffer.Shows.get hname) hn
  have hvalue : Leads (recursion levels) scope (s.goTo (s.position + 2))
      (behind .equalsToken expression) (.present value) t :=
    .bind (Straight.accept_yes (Buffer.Shows.get hequals) hq (by decide)).leads
      (.ite_pos rfl (.bind hv (.pure _)))
  obtain ⟨semicolon, hsemicolon⟩ := expect_unwinding (r := recursion levels) (k := .semicolonToken)
    (by rw [hk]; decide) ht
  have hsteps : 1 ≤ (recursion levels).steps := by
    obtain ⟨n, rfl⟩ := Nat.exists_eq_add_of_le' hl
    exact Nat.le_add_left 1 (n + 1)
  obtain ⟨v, hvariable⟩ : ∃ v, Leads (recursion levels) scope s
      (globalVariable ⟨s.mark, .metadata [] [] .nil, {}⟩) v t.counted :=
    ⟨_, .bind htype (.bind hidentifier (.bind hvalue (.bind hsemicolon
      (.bind (.look (finish_eq _ _) (.pure _)) (.pure _)))))⟩
  have hkind' : scope.kindAt (s.goTo s.position) 0 = .intKeyword := hkind
  refine ⟨v, .bind (straight_heading (by rw [hkind]; decide) hsteps).leads
    (.look (looks_kind 0) ?_)⟩
  rw [hkind']
  exact .look (looks_isKind _ _) (.ite_neg Bool.false_ne_true
    (.ite_pos rfl (.bind hvariable (.pure _))))

/-! ## Units -/

/-- An unwinding ends at the next token that may begin a definition, or at the end of the file. -/
theorem leads_resynchronize {ts : List Token}
    (hs : scope.buffer.Shows s.position (ts ++ [last]))
    (hp : ∀ t ∈ ts, t.kind ≠ .endOfFileToken ∧ t.kind ∉ topLevelStart)
    (hl : last.kind = .endOfFileToken ∨ last.kind ∈ topLevelStart) :
    Leads r scope s (resynchronize topLevelStart) ()
      { s with position := s.position + ts.length, unwinding := false, depthReported := false } := by
  have hfound : scope.found topLevelStart.contains
      { s with unwinding := false, depthReported := false } = s.position + ts.length := by
    refine Scope.found_eq hs (fun t ht => ⟨(hp t ht).1, ?_⟩) (hl.imp_right List.contains_iff_mem.mpr)
    rw [List.contains_eq_mem, decide_eq_false_iff_not]
    exact (hp t ht).2
  have hskip := skipTo_eq topLevelStart.contains r scope
    { s with unwinding := false, depthReported := false }
  rw [hfound] at hskip
  exact .bind rfl (.bind hskip (.pure _))

/-- A definition that unwinds at the end of the file is the last one. -/
theorem unitItems_unwinding {d : Definition} (hk : scope.kindAt s 0 = .intKeyword)
    (hu : s.unwinding = false) (hd : Leads r scope s definition d t) (ht : t.unwinding = true)
    (hp : t.position ≠ s.position) (hl : scope.buffer.tokens[t.position]? = some last)
    (hlk : last.kind = .endOfFileToken) (hr : 2 ≤ r.steps) :
    Leads r scope s unitItems { definitions := #[d] }
      { t with unwinding := false, depthReported := false } := by
  have hitem : Leads r scope s (unitItem {}) { definitions := #[d] } t := by
    refine .look (looks_kind 0) ?_
    rw [hk]
    exact .bind hd (.pure _)
  have hshows : scope.buffer.Shows t.position ([] ++ [last]) := ⟨hl, trivial⟩
  have hresume : Leads r scope t (resynchronize topLevelStart) () _ :=
    leads_resynchronize hshows (fun _ h => absurd h List.not_mem_nil) (.inl hlk)
  refine .loop_again (.look looks_isUnwinding (.ite_neg (ne_true_of_eq_false hu)
      (.look looks_atEnd (.ite_neg ?_ (.bind (.progressing _ hitem hp) (.pure _))))))
    (.look looks_isUnwinding (.ite_pos ht (.bind hresume
      (.look looks_atEnd (.ite_pos ?_ (.pure _)))))) hr
  · rw [hk]
    decide
  · change ((scope.buffer.get t.position).kind == .endOfFileToken) = true
    rw [Buffer.Shows.get hl, hlk]
    rfl

/-- The tokens of a variable that is set to a number behind `n` brackets, and what is behind. -/
def unclosedVariable (n : Nat) (behind : List Token) : List Token :=
  .fixed .intKeyword 0 :: .place .identifier "x" 4 :: .fixed .equalsToken 6 ::
    (unclosed n 8 ++ behind)

/-- The variable is the only definition, whatever is behind it. -/
theorem compilationUnit_unclosed {n levels : Nat} (h : OpenEnded first rest last)
    (hs : scope.buffer.Shows s.position (unclosedVariable (n + 1) (first :: rest ++ [last])))
    (hr : scope.recovery = []) (hu : s.unwinding = false) (he : s.lastErrorAt = none)
    (hd : scope.depth + n + 1 < scope.options.maxNestingDepth) (hl : n + 4 ≤ levels) :
    ∃ info v leaf t, Leads (recursion levels) scope s compilationUnit
        { info := info, imports := [], definitions := [.variable v], endOfFile := leaf } t ∧
      t.diagnostics = ((s.goTo (s.position + 3 + (n + 2))).abandoned scope (first :: rest).length
        ((Token.fixed .openBracketToken (8 + n)).leaf (s.position + 3 + n)) .closeBracketToken
        "array literal").diagnostics := by
  obtain ⟨hword, hname, hequals, hliteral⟩ := hs
  have hkind : scope.kindAt s 0 = .intKeyword := congrArg Token.kind (Buffer.Shows.get hword)
  obtain ⟨value, t, hvalue, hposition, hunwinding, hdiagnostics⟩ :=
    expression_unclosed (s := s.goTo (s.position + 3)) h hliteral hr hu he hd hl
  have hend : scope.buffer.tokens[t.position]? = some last := by
    have hbehind := (Buffer.Shows.append.mp (Buffer.Shows.append.mp hliteral).2).2.1
    rw [unclosed_length] at hbehind
    rwa [hposition, State.goTo_position]
  have hlast : scope.kindAt t 0 = .endOfFileToken := by
    rw [Scope.kindAt_zero (Buffer.Shows.get hend), h.ends]
  obtain ⟨v, hdefinition⟩ := definition_unwinding ⟨hword, hname, hequals, trivial⟩ rfl rfl rfl hu
    (by omega) (by omega) hvalue hunwinding hlast
  have hmoved : t.counted.position ≠ s.position := by
    change t.position ≠ s.position
    rw [hposition, State.goTo_position]
    omega
  have hrounds : 2 ≤ (recursion levels).steps := by
    obtain ⟨l, rfl⟩ := Nat.exists_eq_add_of_le' hl
    exact Nat.le_add_left 2 (l + (n + 1))
  have hitems := unitItems_unwinding hkind hu hdefinition hunwinding hmoved hend h.ends hrounds
  obtain ⟨leaf, hleaf⟩ := straight_bumpEndOfFile (r := recursion levels)
    (s := { t.counted with unwinding := false, depthReported := false }) (Buffer.Shows.get hend) h.ends
  exact ⟨_, v, leaf, _, .look looks_mark (.bind hitems (.bind hleaf (.look (finish_eq _ _)
    (.pure _)))), hdiagnostics⟩

theorem unclosed_kinds (n pos : Nat) : ∀ t ∈ unclosed n pos, t.isEndOfFile = false := by
  induction n generalizing pos with
  | zero => simp [unclosed, Token.isEndOfFile, Token.place]
  | succ n ih =>
    simpa [unclosed, Token.isEndOfFile, Token.fixed, Token.place] using ih _

theorem OpenEnded.kinds (h : OpenEnded first rest last) (n : Nat) :
    ∀ t ∈ unclosedVariable n (first :: rest), t.isEndOfFile = false := by
  have hbehind : ∀ t ∈ first :: rest, t.isEndOfFile = false := fun t ht => by
    rw [Token.isEndOfFile, beq_eq_false_iff_ne]
    exact (h.passed t ht).1
  intro t ht
  simp only [unclosedVariable, List.mem_cons, List.mem_append] at ht
  rcases ht with rfl | rfl | rfl | ht | ht
  · rfl
  · rfl
  · rfl
  · exact unclosed_kinds _ _ t ht
  · exact hbehind t (List.mem_cons.mpr ht)

/-- A variable that is set to a number behind any number of brackets that are not closed takes all
definitions behind it with it: the parse has no other definition, and reports where it began to skip
and the innermost bracket. -/
theorem SourceUnit.parse?_unclosed {n : Nat} {file : String} {options : Options}
    (h : OpenEnded first rest last) (hd : n + 1 < options.maxNestingDepth)
    (hm : 2 ≤ options.maxDiagnostics) :
    ∃ t v, (⟨file, { tokens := unclosedVariable (n + 1) (first :: rest ++ [last]) }⟩ :
        SourceUnit).parse? options = some (.ok t) ∧
      t.root.imports = [] ∧ t.root.definitions = [.variable v] ∧
      t.diagnostics.map (fun d => (d.code, d.span)) = [(1002, some first.range.toSpan),
        (1010, some (Token.fixed .openBracketToken (8 + n)).range.toSpan)] := by
  have hsource : (⟨unclosedVariable (n + 1) (first :: rest ++ [last]), .dry⟩ : TokenSource).tokens =
      unclosedVariable (n + 1) (first :: rest) ++ [last] := by
    simp [unclosedVariable]
  have hlast : last.isEndOfFile = true := by
    rw [Token.isEndOfFile, h.ends]
    rfl
  obtain ⟨htokens, hfatal⟩ := Buffer.ofSource_ended hsource (h.kinds _) hlast
  have hshows : (Buffer.ofSource ⟨unclosedVariable (n + 1) (first :: rest ++ [last]), .dry⟩).Shows
      ([] : List Token).length (unclosedVariable (n + 1) (first :: rest ++ [last])) :=
    Buffer.shows_tokens (htokens.trans hsource.symm)
  have hlevels : n + 4 ≤ Buffer.steps
      (.ofSource ⟨unclosedVariable (n + 1) (first :: rest ++ [last]), .dry⟩) := by
    rw [Buffer.steps, Buffer.size, ← Array.length_toList, htokens]
    simp only [unclosedVariable, List.length_append, List.length_cons, unclosed_length]
    omega
  have hroom : Scope.depth ⟨.ofSource ⟨unclosedVariable (n + 1) (first :: rest ++ [last]), .dry⟩,
      options, file, [], 0⟩ + n + 1 < options.maxNestingDepth := by
    change 0 + n + 1 < options.maxNestingDepth
    omega
  obtain ⟨info, v, leaf, t, hunit, hdiagnostics⟩ :=
    compilationUnit_unclosed (s := {}) h hshows rfl rfl rfl hroom hlevels
  refine ⟨_, v, SourceUnit.parse?_eq_ok.mpr ⟨_, _, hunit, hfatal, rfl⟩, rfl, rfl, ?_⟩
  have hfirst : 0 < options.maxDiagnostics := Nat.lt_of_lt_of_le Nat.zero_lt_two hm
  have htwo : ∀ d d' : Diagnostic, ((Diagnostics.empty.record file options.maxDiagnostics d).record
      file options.maxDiagnostics d').toList = [d, d'] := fun d d' => by
    rw [Diagnostics.record, Diagnostics.record, if_pos (show Diagnostics.empty.size < _ from hfirst),
      if_pos (show (Diagnostics.empty.add d).size < _ from hm)]
    rfl
  change t.diagnostics.toList.map _ = _
  rw [hdiagnostics]
  refine (congrArg (List.map _) (htwo _ _)).trans ?_
  have hbehind := (Buffer.Shows.append.mp hshows.2.2.2).2.1
  rw [unclosed_length] at hbehind
  exact congrArg (fun t : Token => [(1002, some t.range.toSpan),
    (1010, some (Token.fixed .openBracketToken (8 + n)).range.toSpan)]) (Buffer.Shows.get hbehind)

end Unclosed

/-- The tokens of a function without anything in it, from `pos` on, behind its first word. -/
def emptyFunction (pos : Nat) : List Token :=
  [.place .identifier "f" (pos + 9), .fixed .openParenToken (pos + 10),
    .fixed .closeParenToken (pos + 11), .fixed .openBraceToken (pos + 13),
    .fixed .closeBraceToken (pos + 15)]

/-- That function by itself. -/
def SourceUnit.lone : SourceUnit where
  file := "lone.bal"
  source := ⟨.fixed .functionKeyword 0 :: emptyFunction 0 ++ [.endOfFile 16], .dry⟩

/-- That function behind a bracket that is not closed. -/
def SourceUnit.behindBracket : SourceUnit where
  file := "behind.bal"
  source := ⟨unclosedVariable 1 (.fixed .functionKeyword 11 :: emptyFunction 11 ++ [.endOfFile 27]),
    .dry⟩

theorem SourceUnit.behindBracket_unclosed :
    OpenEnded (.fixed .functionKeyword 11) (emptyFunction 11) (.endOfFile 27) ∧
      1 < ({} : Options).maxNestingDepth ∧ 2 ≤ ({} : Options).maxDiagnostics ∧
      ∃ t v, SourceUnit.behindBracket.parse? {} = some (.ok t) ∧
        t.root.imports = [] ∧ t.root.definitions = [.variable v] ∧
        t.diagnostics.map (fun d => (d.code, d.span)) =
          [(1002, some ⟨11, 8⟩), (1010, some ⟨8, 1⟩)] := by
  have h : OpenEnded (.fixed .functionKeyword 11) (emptyFunction 11) (.endOfFile 27) :=
    ⟨by decide, by decide, rfl⟩
  exact ⟨h, by decide, by decide, SourceUnit.parse?_unclosed h (by decide) (by decide)⟩

/-- The kinds of the definitions that are read from a unit, and the codes of the diagnostics. -/
def SourceUnit.definitionKinds (u : SourceUnit) : Option (List Kind × List Nat) :=
  ((u.parse? {}).bind (·.toOption)).map fun t =>
    (t.root.definitions.map (·.info.kind), t.diagnostics.map (·.code))

/-- By itself the function is read without an error, behind the bracket it is not read. -/
theorem SourceUnit.behindBracket_lost :
    SourceUnit.lone.definitionKinds = some ([.functionDefinition], []) ∧
      SourceUnit.behindBracket.definitionKinds =
        some ([.globalVariableDefinition], [1002, 1010]) := by decide +kernel

end BallerinaSyntax
