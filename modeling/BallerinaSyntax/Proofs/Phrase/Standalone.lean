import BallerinaSyntax.Proofs.Elsewhere
import BallerinaSyntax.Proofs.Lookalike
import BallerinaSyntax.Proofs.Phrase.Enclosed
import BallerinaSyntax.Proofs.Stray
import BallerinaSyntax.Proofs.Successive

/-!
Expressions as statements. What is read as the value of an assignment is read by itself, too, where
the statement is not taken for the definition of a variable or a destructuring before it is read as
an expression. Whether it is depends on the tokens alone, and an expression may well begin with a
type and a name.
-/

namespace BallerinaSyntax

namespace Grammar

open Parse

/-- Whether a statement that may be an expression is taken for something else beforehand. -/
def takenForDefinition : Parse Bool := do
  if ← startsReservedCall then return false
  match StatementStart.ofKind? (← kind 0) with
  | some .parenthesis =>
    if ← startsVariableDefinition then return true
    return (← destructuring?).isSome
  | some .typeOrExpression => startsVariableDefinition
  | _ => return false

end Grammar

open Grammar Parse

variable {n i j k : Nat} {scope : Scope} {s : State} {e : Expression}

/-! ## Where expressions begin -/

/-- A name that a parenthesis follows stands here. -/
def Scope.atCall (scope : Scope) (s : State) : Bool :=
  Operator.isName scope.options.allowAnyIdentifierNames (scope.kindAt s 0) &&
    scope.kindAt s 1 == .openParenToken

theorem startsExpression_of_startsLiteral {k next : Kind}
    (h : (startsSimpleLiteral k || (k == .minusToken && isNumber next) ||
      (k == .openParenToken && next == .closeParenToken)) = true) : startsExpression k = true := by
  rw [Bool.or_eq_true, Bool.or_eq_true, Bool.and_eq_true, Bool.and_eq_true, beq_iff_eq,
    beq_iff_eq] at h
  rcases h with (h | ⟨rfl, -⟩) | ⟨rfl, -⟩
  · unfold startsExpression
    rw [h]
    rfl
  · rfl
  · rfl

/-- What begins with a keyword and is read without an error is called, or begins an expression. -/
theorem Straight.startsExpression_keyword {m : Mark}
    (h : Straight (recursion n) scope s (keywordExpression m) e j) :
    startsExpression (scope.kindAt s 0) = true ∨ scope.atCall s = true := by
  by_contra hnone
  obtain ⟨hstart, hcall⟩ := not_or.mp hnone
  have hne : ∀ {k : Kind}, startsExpression k = true → ¬(scope.kindAt s 0 == k) = true := by
    intro k hk hat
    rw [beq_iff_eq.mp hat] at hstart
    exact hstart hk
  have hbuiltin : ¬(scope.kindAt s 0).isBuiltinType = true := by
    intro hb
    refine hstart ?_
    unfold startsExpression
    rw [hb, Bool.or_true]
    rfl
  have hnext := (h.of_look (looks_kind 0)).of_look (looks_isKind _ _)
  have hother := hnext.of_ite_neg fun hc => hne rfl (Bool.and_eq_true_iff.mp hc).1
  have hword := (hother.of_look looks_isCall).of_ite_neg hcall
  have herror := (hword.of_ite_neg (hne rfl)).of_ite_neg hbuiltin
  obtain ⟨_, _, hreport, -⟩ := herror.of_bind
  exact (complains_errorExpected _).not_straight hreport

/-- A primary without an error begins with a token that begins expressions, or is called. -/
theorem Straight.startsExpression_primary
    (h : Straight (recursion n) scope s primaryExpression e j) :
    startsExpression (scope.kindAt s 0) = true ∨ scope.atCall s = true := by
  by_cases hstart : startsExpression (scope.kindAt s 0) = true
  · exact .inl hstart
  have hliteral := (h.of_look looks_mark).of_look looks_startsLiteral
  have hkind := (hliteral.of_ite_neg fun hc => hstart (startsExpression_of_startsLiteral hc)).of_look
    (looks_kind 0)
  split at hkind
  all_goals first
    | exact hkind.startsExpression_keyword
    | (rename_i hk; exact absurd (by rw [hk]; rfl) hstart)

/-- So does an expression. -/
theorem Straight.startsExpression (h : Straight (recursion n) scope s expression e j) :
    startsExpression (scope.kindAt s 0) = true ∨ scope.atCall s = true := by
  obtain ⟨m, rfl, hrule⟩ := h.of_call
  obtain ⟨first, k, hprimary⟩ := hrule.of_nested.2.of_climb
  have hfirst : Straight (recursion m) scope.deeper s primaryExpression first k := hprimary
  have hstart := hfirst.startsExpression_primary
  exact hstart

/-! ## What a statement is taken for -/

/-- The tokens with which an expression may begin, in front of which a statement is one, too. -/
def Scope.atExpression (scope : Scope) (s : State) : Prop :=
  scope.kindAt s 0 ≠ .foreachKeyword ∧
    (startsExpression (scope.kindAt s 0) = true ∨ scope.atCall s = true)

/-- Where an expression begins, a statement is decided by three rules at most. -/
theorem StatementStart.ofKind?_of_startsExpression {kind : Kind} (h : startsExpression kind = true) :
    StatementStart.ofKind? kind = some .parenthesis ∨
      StatementStart.ofKind? kind = some .typeOrExpression ∨
      StatementStart.ofKind? kind = some .expression := by
  unfold StatementStart.ofKind?
  split
  all_goals first
    | exact absurd h (by decide)
    | exact .inl rfl
    | skip
  rw [h]
  split
  · exact .inr (.inl rfl)
  · exact .inr (.inr rfl)

/-- A statement begins where an expression does. -/
theorem Scope.startsStatement_of_startsExpression
    (h : startsExpression (scope.kindAt s 0) = true ∨ scope.atCall s = true) :
    startsStatement (scope.kindAt s 0) = true := by
  rcases h with h | h
  · unfold startsStatement
    rcases StatementStart.ofKind?_of_startsExpression h with hk | hk | hk <;> rw [hk] <;> rfl
  · exact startsStatement_of_isName (Bool.and_eq_true_iff.mp h).1

/-- A reserved word stands here that names a called function. -/
def Scope.atReservedCall (scope : Scope) (s : State) : Bool :=
  scope.kindAt s 0 != .identifier && scope.kindAt s 0 != .foreachKeyword && scope.atCall s

theorem looks_atReservedCall : Looks startsReservedCall Scope.atReservedCall :=
  looks_startsReservedCall

/-- A statement that begins like an expression is decided by what is called, or by three rules. -/
theorem Scope.atExpression.decided (h : scope.atExpression s)
    (hreserved : ¬scope.atReservedCall s = true) :
    StatementStart.ofKind? (scope.kindAt s 0) = some .parenthesis ∨
      StatementStart.ofKind? (scope.kindAt s 0) = some .typeOrExpression ∨
      StatementStart.ofKind? (scope.kindAt s 0) = some .expression := by
  obtain ⟨hforeach, hstart⟩ := h
  refine StatementStart.ofKind?_of_startsExpression ?_
  rcases hstart with hstart | hcall
  · exact hstart
  · by_cases hname : scope.kindAt s 0 = .identifier
    · rw [hname]
      rfl
    · refine absurd ?_ hreserved
      rw [Scope.atReservedCall, hcall, bne_iff_ne.mpr hname, bne_iff_ne.mpr hforeach]
      rfl

/-- An attempt that gives nothing has done nothing. -/
theorem attempt_none {α : Type} {p : Parse (Option α)} {r : Recursion} {t : State}
    (h : Parse.attempt p r scope s = some (none, t)) : t = s := by
  unfold Parse.attempt at h
  split at h
  · cases h
  · split at h
    · cases h
    · cases h
      rfl
  · cases h
    rfl

/-- What is no destructuring is left as it was. -/
theorem destructuring_none {r : Recursion} {t : State}
    (h : destructuring? r scope s = some (none, t)) : t = s := by
  obtain ⟨parameters, u, hfirst, hrest⟩ := bind_eq_some.mp h
  cases parameters with
  | some parameters => cases (pure_eq_some.mp hrest).1
  | none =>
    obtain ⟨references, v, hsecond, hlast⟩ := bind_eq_some.mp hrest
    cases references with
    | some references => cases (pure_eq_some.mp hlast).1
    | none =>
      have hend : v = t := (pure_eq_some.mp hlast).2
      rw [← hend, attempt_none hsecond, attempt_none hfirst]

/-- Foreseeing a definition of a variable moves nothing. -/
theorem Straight.of_startsVariableDefinition {β : Type} {r : Recursion} {f : Bool → Parse β} {b : β}
    (h : Straight r scope s (startsVariableDefinition >>= f) b k) :
    ∃ x, Straight r scope s startsVariableDefinition x s.position ∧ Straight r scope s (f x) b k :=
  of_foresee h

section Taken

variable (hat : scope.atExpression s)

include hat

/-- What is taken for nothing else is read as an expression. -/
theorem statementBody_of_declined
    (h : Straight (recursion n) scope s takenForDefinition false s.position) :
    statementBody (recursion n) scope s = expressionStatement (recursion n) scope s := by
  have htaken := h.of_look looks_atReservedCall
  unfold statementBody
  rw [looks_atReservedCall.bind_eq]
  by_cases hreserved : scope.atReservedCall s = true
  · exact run_if_pos hreserved
  have hstart := (htaken.of_ite_neg hreserved).of_look (looks_kind 0)
  rw [run_if_neg hreserved, (looks_kind 0).bind_eq]
  rcases hat.decided hreserved with hk | hk | hk
  · rw [hk] at hstart ⊢
    obtain ⟨defines, hforeseen, hrest⟩ := Straight.of_startsVariableDefinition hstart
    by_cases hdefines : defines = true
    · cases (hrest.of_ite_pos hdefines).of_pure.1
    obtain ⟨targets, t, htargets, hnone⟩ := bind_eq_some.mp (hrest.of_ite_neg hdefines)
    cases targets with
    | some targets => cases (pure_eq_some.mp hnone).1
    | none =>
      have hdefines' : Leads (recursion n) scope s startsVariableDefinition defines s := hforeseen
      have hleft : Leads (recursion n) scope s destructuring? none s :=
        destructuring_none htargets ▸ htargets
      change parenthesizedStatement (recursion n) scope s = _
      unfold parenthesizedStatement
      rw [hdefines'.bind_eq, run_if_neg hdefines, looks_mark.bind_eq, hleft.bind_eq]
  · rw [hk] at hstart ⊢
    have hforeseen : Leads (recursion n) scope s startsVariableDefinition false s := hstart
    change definitionOrExpression (recursion n) scope s = _
    unfold definitionOrExpression
    rw [hforeseen.bind_eq, run_if_neg Bool.false_ne_true]
  · rw [hk]
    rfl

/-- A statement that is an expression was taken for nothing else. -/
theorem Straight.declined_of_evaluate {info : NodeInfo}
    (h : Straight (recursion n) scope s statementBody (.evaluate info e) j) :
    Straight (recursion n) scope s takenForDefinition false s.position := by
  have hbody := h.of_look looks_atReservedCall
  by_cases hreserved : scope.atReservedCall s = true
  · exact .look looks_atReservedCall (.ite_pos hreserved (.pure _ rfl))
  have hstart := (hbody.of_ite_neg hreserved).of_look (looks_kind 0)
  refine .look looks_atReservedCall (.ite_neg hreserved (.look (looks_kind 0) ?_))
  rcases hat.decided hreserved with hk | hk | hk
  · rw [hk] at hstart ⊢
    obtain ⟨defines, hforeseen, hrest⟩ := Straight.of_startsVariableDefinition hstart
    by_cases hdefines : defines = true
    · obtain ⟨_, _, -, hdefined⟩ := (hrest.of_ite_pos hdefines).of_bind
      cases hdefined.of_pure.1
    have hmarked := (hrest.of_ite_neg hdefines).of_look looks_mark
    obtain ⟨targets, t, htargets, hread⟩ := bind_eq_some.mp hmarked
    cases targets with
    | none =>
      rw [destructuring_none htargets] at htargets
      exact .bind hforeseen (.ite_neg hdefines (.bind htargets (.pure _ rfl)))
    | some targets =>
      obtain ⟨_, _, -, hread⟩ := bind_eq_some.mp hread
      obtain ⟨_, _, -, hread⟩ := bind_eq_some.mp hread
      obtain ⟨_, _, -, hread⟩ := bind_eq_some.mp hread
      cases (pure_eq_some.mp hread).1
  · rw [hk] at hstart ⊢
    obtain ⟨defines, hforeseen, hrest⟩ := Straight.of_startsVariableDefinition hstart
    cases defines with
    | true =>
      obtain ⟨_, _, -, hdefined⟩ := (hrest.of_ite_pos rfl).of_bind
      cases hdefined.of_pure.1
    | false => exact hforeseen
  · rw [hk]
    exact .pure _ rfl

end Taken

theorem follows_takenForDefinition {L : Likeness} :
    Follows L takenForDefinition takenForDefinition := by
  refine .see sees_startsReservedCall fun _ => .ite (.done rfl) (.see (sees_kind 0) fun kind => ?_)
  split
  · exact .give follows_startsVariableDefinition fun _ => .ite (.done rfl)
      (.bind follows_destructuring fun read => .done read.isSome_eq)
  · exact follows_startsVariableDefinition
  · exact .done rfl

/-! ## Statements of an expression -/

/-- An expression before a semicolon is a statement. -/
theorem straight_expressionStatement {semicolon : Token} {r : Recursion}
    (he : Straight r scope s expression e j) (hs : scope.buffer.get j = semicolon)
    (hk : semicolon.kind = .semicolonToken) :
    ∃ info, Straight r scope s expressionStatement (.evaluate info e) (j + 1) := by
  have hkind : scope.kindAt (s.goTo j) 0 = .semicolonToken := (Scope.kindAt_zero hs).trans hk
  obtain ⟨info, hend⟩ : ∃ info, Straight r scope (s.goTo j) (expect .semicolonToken >>= fun _ =>
      finish s.mark .expressionStatement >>= fun info => pure (Tree.evaluate info e))
      (.evaluate info e) (j + 1) :=
    ⟨_, .bind (.expect hs hk (by decide)) (.look (finish_eq _ _) (.pure _ rfl))⟩
  refine ⟨info, .look looks_mark (.bind he (.look (looks_kind 0) ?_))⟩
  rw [hkind]
  exact .ite_neg (by decide) hend

/-- What is assigned to a name is an expression that is read behind the equals sign, and a semicolon
is behind it. -/
theorem Straight.of_assign {target equals : Token} {info : NodeInfo} {keyword : Option Leaf}
    {place : Reference} (hs : scope.buffer.Shows s.position [target, equals])
    (ht : target.kind = .identifier) (hq : equals.kind = .equalsToken) (hu : s.unwinding = false)
    (hl : 4 ≤ n) (hd : scope.depth + 2 ≤ scope.options.maxNestingDepth)
    (h : Straight (recursion (n + 1)) scope s statement (.assign info keyword place e) j) :
    ∃ k, Straight (recursion n) scope (s.goTo (s.position + 2)) expression e k ∧
      scope.kindAt (s.goTo k) 0 = .semicolonToken := by
  have hkind : scope.kindAt s 0 = .identifier :=
    (Scope.kindAt_zero (Buffer.Shows.get hs.1)).trans ht
  have hget : scope.buffer.get (s.position + 1) = equals := Buffer.Shows.get hs.2.1
  have hplaced : Phrase.Placed scope.buffer s.position (.name target) :=
    { wellFormed := ht
      shows := ⟨hs.1, trivial⟩
      unqualified := fun i hi hi' => by
        obtain rfl : i = s.position := Nat.le_antisymm (Nat.le_of_lt_succ hi') hi
        unfold Buffer.qualifiedAt Token.qualifies
        rw [hget, hq]
        simp
      ended := by
        change (scope.buffer.get (s.position + 1)).kind ∉ nameSuffixes
        rw [hget, hq]
        decide
      closed := fun _ h => nomatch h }
  have hname : Straight (recursion n) scope s expression ((Phrase.name target).tree s.position)
      (s.position + 1) := by
    refine (Phrase.climbs (.name target)).call _ hplaced ⟨hl, hd⟩ hu (fun _ _ => Nat.zero_le _) ?_
    change Operator.Stops (Operator.expression? (scope.buffer.get (s.position + 1)).kind) _
    rw [hget, hq]
    exact fun _ h => nomatch h
  obtain ⟨m, hm, hrule⟩ := h.of_call
  obtain rfl := Nat.succ.inj hm
  have hreserved : ¬scope.atReservedCall s = true := by
    unfold Scope.atReservedCall
    rw [hkind]
    exact Bool.false_ne_true
  have hstart := ((Straight.of_look looks_atReservedCall hrule).of_ite_neg hreserved).of_look
    (looks_kind 0)
  rw [hkind] at hstart
  obtain ⟨defines, -, hrest⟩ := Straight.of_startsVariableDefinition hstart
  by_cases hdefines : defines = true
  · obtain ⟨_, _, -, hdefined⟩ := (hrest.of_ite_pos hdefines).of_bind
    cases hdefined.of_pure.1
  have hafter := (((hrest.of_ite_neg hdefines).of_look looks_mark).of_bindTo hname).of_look
    (looks_kind 0)
  have hequals : scope.kindAt (s.goTo (s.position + 1)) 0 = .equalsToken :=
    (Scope.kindAt_zero hget).trans hq
  rw [hequals] at hafter
  have hassign : Straight (recursion n) scope (s.goTo (s.position + 1))
      (assignment s.mark ((Phrase.name target).tree s.position)) (.assign info keyword place e) j :=
    hafter
  have hbump : Straight (recursion n) scope (s.goTo (s.position + 1)) Parse.bump _
      (s.position + 2) := .bump hget (by rw [hq]; decide)
  have hbehind := (hassign.of_bindTo (.pure _ rfl)).of_bindTo hbump
  obtain ⟨value, k, hvalue, hlast⟩ := hbehind.of_bind
  obtain ⟨value', l, hread, hsemicolon⟩ := hvalue.of_bind
  obtain ⟨leaf, l', hexpect, hpure⟩ := hsemicolon.of_bind
  obtain ⟨_, _, -, hnode⟩ := hlast.of_bind
  cases hnode.of_pure.1
  cases hpure.of_pure.1
  exact ⟨l, hread, hexpect.of_expect⟩

/-! ## Two units -/

/-- The value that a statement assigns. -/
def Tree.assigned? {c : Category} : Tree c → Option Expression
  | .assign _ _ _ e => some e
  | _ => none

/-- The expression that a statement evaluates. -/
def Tree.evaluated? {c : Category} : Tree c → Option Expression
  | .evaluate _ e => some e
  | _ => none

theorem Tree.assigned?_eq_some {x : Statement} :
    x.assigned? = some e ↔ ∃ info keyword place, x = .assign info keyword place e := by
  constructor
  · intro h
    cases x <;> first
      | (obtain rfl := Option.some.inj h
         exact ⟨_, _, _, rfl⟩)
      | cases h
  · rintro ⟨_, _, _, rfl⟩
    rfl

theorem Tree.evaluated?_eq_some {x : Statement} :
    x.evaluated? = some e ↔ ∃ info, x = .evaluate info e := by
  constructor
  · intro h
    cases x <;> first
      | (obtain rfl := Option.some.inj h
         exact ⟨_, rfl⟩)
      | cases h
  · rintro ⟨_, rfl⟩
    rfl

namespace SourceUnit

variable {u : SourceUnit} {options : Options}

/-- The statement of a unit of one function that is read without an error, if it is the only one. -/
def onlyStatement? (u : SourceUnit) (options : Options) : Option Statement :=
  ((u.parse? options).bind (·.toOption)).bind fun t =>
    if t.diagnostics.isEmpty then t.root.onlyStatement? else none

/-- The value that the only statement of a unit assigns. -/
def assigned? (u : SourceUnit) (options : Options) : Option Expression :=
  (u.onlyStatement? options).bind Tree.assigned?

/-- The expression that the only statement of a unit evaluates. -/
def evaluated? (u : SourceUnit) (options : Options) : Option Expression :=
  (u.onlyStatement? options).bind Tree.evaluated?

theorem onlyStatement?_eq_some {x : Statement} :
    u.onlyStatement? options = some x ↔ ∃ t, u.parse? options = some (.ok t) ∧
      t.diagnostics = [] ∧ t.root.onlyStatement? = some x := by
  constructor
  · intro h
    obtain ⟨t, ht, hx⟩ := Option.bind_eq_some_iff.mp h
    obtain ⟨result, hresult, hok⟩ := Option.bind_eq_some_iff.mp ht
    by_cases hclean : t.diagnostics.isEmpty = true
    · rw [if_pos hclean] at hx
      cases result with
      | error _ => cases hok
      | ok t' =>
        obtain rfl : t' = t := Option.some.inj hok
        exact ⟨_, hresult, List.isEmpty_iff.mp hclean, hx⟩
    · rw [if_neg hclean] at hx
      cases hx
  · rintro ⟨t, ht, hclean, hx⟩
    refine Option.bind_eq_some_iff.mpr ⟨t, Option.bind_eq_some_iff.mpr ⟨_, ht, rfl⟩, ?_⟩
    rw [if_pos (List.isEmpty_iff.mpr hclean), hx]

theorem assigned?_eq_some : u.assigned? options = some e ↔
    ∃ info keyword place, u.onlyStatement? options = some (.assign info keyword place e) := by
  unfold assigned?
  rw [Option.bind_eq_some_iff]
  constructor
  · rintro ⟨_, hx, h⟩
    obtain ⟨_, _, _, rfl⟩ := Tree.assigned?_eq_some.mp h
    exact ⟨_, _, _, hx⟩
  · rintro ⟨_, _, _, hx⟩
    exact ⟨_, hx, rfl⟩

theorem evaluated?_eq_some : u.evaluated? options = some e ↔
    ∃ info, u.onlyStatement? options = some (.evaluate info e) := by
  unfold evaluated?
  rw [Option.bind_eq_some_iff]
  constructor
  · rintro ⟨_, hx, h⟩
    obtain ⟨_, rfl⟩ := Tree.evaluated?_eq_some.mp h
    exact ⟨_, hx⟩
  · rintro ⟨_, hx⟩
    exact ⟨_, hx, rfl⟩

end SourceUnit

/-- A unit in whose body these tokens stand. -/
def SourceUnit.around (file : String) (head body tail : List Token) : SourceUnit where
  file := file
  source := { tokens := head ++ (body ++ tail) }

/-- The kinds of the tokens behind the only statement of a unit. -/
def bodyTail : List Kind := [.semicolonToken, .closeBraceToken, .endOfFileToken]

section Around

variable {file : String} {head E tail : List Token} {target equals : Token} {options : Options}

/-- In front of a token that is not the end of the file there is no end of the file. -/
theorem Buffer.solid_before {source : TokenSource} {ts rest : List Token}
    (h : source.tokens = ts ++ rest) {k : Nat} (hk : ts.length ≤ k)
    (hsolid : ((Buffer.ofSource source).get k).kind ≠ .endOfFileToken) :
    (∀ t ∈ ts, t.isEndOfFile = false) ∧ k + 1 < (Buffer.ofSource source).size := by
  have hinside : k < (Buffer.splitEnd source.tokens).1.length := by
    by_contra hbehind
    exact hsolid (Buffer.kind_ofSource source (Nat.not_lt.mp hbehind))
  have hprefix : ts <+: source.tokens := ⟨rest, h.symm⟩
  have hbefore : ts <+: (Buffer.splitEnd source.tokens).1 :=
    List.prefix_of_prefix_length_le hprefix (Buffer.splitEnd_isPrefix _)
      (Nat.le_of_lt (Nat.lt_of_le_of_lt hk hinside))
  refine ⟨fun t ht => Buffer.splitEnd_before (hbefore.subset ht), ?_⟩
  rw [Buffer.size_ofSource]
  exact Nat.succ_lt_succ hinside

theorem exists_of_bodyTail (h : tail.map Token.kind = bodyTail) :
    ∃ semicolon closing last : Token, tail = [semicolon, closing, last] ∧
      semicolon.kind = .semicolonToken ∧ closing.kind = .closeBraceToken ∧
      last.kind = .endOfFileToken := by
  obtain ⟨semicolon, _, rfl, hs, h⟩ := List.map_eq_cons_iff.mp h
  obtain ⟨closing, _, rfl, hc, h⟩ := List.map_eq_cons_iff.mp h
  obtain ⟨last, _, rfl, hl, h⟩ := List.map_eq_cons_iff.mp h
  obtain rfl := List.map_eq_nil_iff.mp h
  exact ⟨semicolon, closing, last, rfl, hs, hc, hl⟩

/-- With what follows a statement the tokens of a unit end. -/
theorem ended_of_bodyTail (h : tail.map Token.kind = bodyTail) : Token.Ended tail := by
  obtain ⟨semicolon, closing, last, rfl, hs, hc, hl⟩ := exists_of_bodyTail h
  have hkinds : [semicolon, closing].map Token.kind = [.semicolonToken, .closeBraceToken] := by
    rw [List.map_cons, List.map_cons, List.map_nil, hs, hc]
  exact ⟨[semicolon, closing], last, rfl, isEndOfFile_of_mem hkinds (by decide),
    beq_iff_eq.mpr hl⟩

/-- An expression ends no earlier than its node. -/
theorem Straight.le_of_info? {info : NodeInfo} {levels : Nat} (hb : scope.buffer.Ends)
    (hs : (State.goTo {} i).position < scope.buffer.size) (he : e.info? = some info)
    (h : Straight (recursion levels) scope (State.goTo {} i) expression e j) :
    info.tokens.stop ≤ j := by
  have hconsistent : State.Consistent (State.goTo {} i) := by
    constructor <;> simp [State.goTo, Diagnostics.empty]
  have hread : Since scope.buffer ⟨i, 0⟩ (pieces e) (State.goTo {} j) :=
    reads_expression Condition.any _ (sound_recursion levels) hb (Since.refl hs hconsistent) trivial h
  obtain ⟨root, inside, hroot, hparts⟩ := expression_root e
  obtain rfl := Option.some.inj (he.symm.trans hroot)
  have hmem : (Part.node info, inside) ∈ pieces e := by
    change _ ∈ e.parts.trees
    rw [hparts]
    exact List.mem_singleton.mpr rfl
  exact (hread.within _ hmem).2

/-- The one semicolon behind the statement of a unit follows it directly. -/
theorem Buffer.semicolon_behind {source : TokenSource} {before : List Token}
    (h : source.tokens = before ++ tail) (htail : tail.map Token.kind = bodyTail) {k : Nat}
    (hk : before.length ≤ k) (hsemicolon : ((Buffer.ofSource source).get k).kind = .semicolonToken) :
    (∀ t ∈ before, t.isEndOfFile = false) ∧ k = before.length := by
  obtain ⟨hinside, hsize⟩ := Buffer.solid_before h hk (by rw [hsemicolon]; decide)
  obtain ⟨all, last, hall, hsolid, hend⟩ := (ended_of_bodyTail htail).append hinside
  have htokens := (Buffer.ofSource_ended (h.trans hall) hsolid hend).1
  rw [← hall] at htokens
  have hshown : (Buffer.ofSource source).Shows ([] : List Token).length (before ++ tail) :=
    Buffer.shows_tokens htokens
  have hshows := (Buffer.Shows.append.mp hshown).2
  have hsizes := Buffer.size_of_toList htokens
  obtain ⟨semicolon, closing, last', rfl, -, hc, -⟩ := exists_of_bodyTail htail
  refine ⟨hinside, ?_⟩
  rw [hsizes, List.length_append, List.length_cons, List.length_cons, List.length_cons,
    List.length_nil] at hsize
  rcases Nat.lt_or_eq_of_le hk with hbehind | hbehind
  · -- Only the closing brace is left, and the end of the file is behind it.
    have hnext : k = ([] : List Token).length + before.length + 1 := by
      rw [List.length_nil]
      omega
    have hclosing : (Buffer.ofSource source).get k = closing := by
      rw [hnext]
      exact Buffer.Shows.get hshows.2.1
    rw [hclosing, hc] at hsemicolon
    cases hsemicolon
  · exact hbehind.symm

/-- The value of an assignment that covers some tokens is read straight on over these. -/
theorem SourceUnit.value_of_parse? (hhead : head.map Token.kind = bodyHead) (ht : target.kind = .identifier)
    (hq : equals.kind = .equalsToken) (htail : tail.map Token.kind = bodyTail)
    (hd : 3 ≤ options.maxNestingDepth)
    (h : (around file head (target :: equals :: E) tail).assigned? options = some e)
    (he : e.info?.map NodeInfo.tokens = some ⟨7, 7 + E.length⟩) :
    ∃ levels, (∀ t ∈ E, t.isEndOfFile = false) ∧ Straight (recursion levels)
      ((around file head (target :: equals :: E) tail).scope options).deeper.inList
      (State.goTo {} 7) expression e (7 + E.length) := by
  have hlength : head.length = 5 := by
    have hmap := congrArg List.length hhead
    rwa [List.length_map] at hmap
  have hstart : startsStatement target.kind = true := by
    rw [ht]
    rfl
  obtain ⟨info, keyword, place, hassign⟩ := assigned?_eq_some.mp h
  obtain ⟨t, hparse, hclean, hx⟩ := onlyStatement?_eq_some.mp hassign
  obtain ⟨levels, j, hstatement⟩ := statement_of_parse? rfl hhead hstart hparse hclean hx
  have hmore := Follows.levels (.call _) (Nat.le_add_right levels 5) hstatement
  have hnames : ∀ t ∈ head ++ [target, equals], t.isEndOfFile = false := by
    intro t hmem
    rcases List.mem_append.mp hmem with hmem | hmem
    · exact isEndOfFile_of_mem hhead (by decide) t hmem
    · have hkinds : [target, equals].map Token.kind = [.identifier, .equalsToken] := by
        rw [List.map_cons, List.map_cons, List.map_nil, ht, hq]
      exact isEndOfFile_of_mem hkinds (by decide) t hmem
  have hfront : (head ++ [target, equals]).length = 7 := by
    rw [List.length_append, hlength]
    rfl
  have hbody : (head ++ target :: equals :: E).length = 7 + E.length := by
    rw [List.length_append, List.length_cons, List.length_cons, hlength]
    omega
  have hsource : (around file head (target :: equals :: E) tail).source.tokens =
      (head ++ [target, equals]) ++ (E ++ tail) := by
    rw [List.append_assoc]
    rfl
  have hshows : (Buffer.ofSource (around file head (target :: equals :: E) tail).source).Shows 0
      (head ++ [target, equals]) :=
    Buffer.shows_ofSource hsource hnames
  have hassigned := (Buffer.Shows.append.mp hshows).2
  rw [hlength] at hassigned
  obtain ⟨k, hexpression, hsemicolon⟩ := Straight.of_assign (s := State.goTo {} 5) hassigned ht hq rfl
    (Nat.le_add_left 4 levels) hd hmore
  have hkind : ((Buffer.ofSource (around file head (target :: equals :: E) tail).source).get
      k).kind = .semicolonToken := hsemicolon
  have hseven : 7 ≤ k := hexpression.le
  have hsize := (Buffer.solid_before hsource (hfront ▸ hseven) (by rw [hkind]; decide)).2
  obtain ⟨info₀, hinfo, htokens⟩ := Option.map_eq_some_iff.mp he
  have hcover : 7 + E.length ≤ k := by
    have hstop := Straight.le_of_info? (Buffer.closed_ofSource _).ends
      (Nat.lt_of_le_of_lt hseven (Nat.lt_of_succ_lt hsize)) hinfo hexpression
    rwa [htokens] at hstop
  have hwhole : (around file head (target :: equals :: E) tail).source.tokens =
      (head ++ target :: equals :: E) ++ tail := by
    rw [List.append_assoc]
    rfl
  obtain ⟨hinside, hend⟩ := Buffer.semicolon_behind hwhole htail (hbody.symm ▸ hcover) hkind
  rw [hend, hbody] at hexpression
  refine ⟨levels + 4, fun t hmem => hinside t ?_, hexpression⟩
  exact List.mem_append_right _ (List.mem_cons_of_mem _ (List.mem_cons_of_mem _ hmem))

/-- What is read as the value of an assignment is read in the same way where the assignment is left
out, two tokens further in front. -/
theorem SourceUnit.value_standalone (hhead : head.map Token.kind = bodyHead) (ht : target.kind = .identifier)
    (hq : equals.kind = .equalsToken) (htail : tail.map Token.kind = bodyTail)
    (hd : 3 ≤ options.maxNestingDepth)
    (h : (around file head (target :: equals :: E) tail).assigned? options = some e)
    (he : e.info?.map NodeInfo.tokens = some ⟨7, 7 + E.length⟩) :
    ∃ levels e', (∀ t ∈ E, t.isEndOfFile = false) ∧ relabel { shift := 2 } e' = e ∧
      Straight (recursion levels) ((around file head E tail).scope options).deeper.inList
        (State.goTo {} 5) expression e' (5 + E.length) := by
  obtain ⟨levels, hE, hread⟩ := value_of_parse? hhead ht hq htail hd h he
  have hlength : head.length = 5 := by
    have hmap := congrArg List.length hhead
    rwa [List.length_map] at hmap
  have hseven : (head ++ [target, equals]).length = 7 := by
    rw [List.length_append, hlength]
    rfl
  have hbefore : ∀ t ∈ head, t.isEndOfFile = false := isEndOfFile_of_mem hhead (by decide)
  have hnames : ∀ t ∈ [target, equals], t.isEndOfFile = false := by
    have hkinds : [target, equals].map Token.kind = [.identifier, .equalsToken] := by
      rw [List.map_cons, List.map_cons, List.map_nil, ht, hq]
    exact isEndOfFile_of_mem hkinds (by decide)
  have hended : Token.Ended (E ++ tail) := (ended_of_bodyTail htail).append hE
  have hassigned : (Buffer.ofSource (around file head (target :: equals :: E) tail).source).tokens.toList =
      (head ++ [target, equals]) ++ (E ++ tail) := by
    rw [List.append_assoc]
    exact ((hended.append hnames).append hbefore).buffer.1
  have halone : (Buffer.ofSource (around file head E tail).source).tokens.toList =
      head ++ (E ++ tail) := (hended.append hbefore).buffer.1
  obtain ⟨e₀, he₀, hplaced⟩ := Straight.elsewhere (i := 0) (j := E.length) (fun L => .call _)
    hassigned halone hended (by rw [hseven, Nat.zero_add, Nat.add_comm]; exact hread)
  rw [hlength, Nat.zero_add, Nat.add_comm] at hplaced
  rw [hseven] at he₀
  exact ⟨levels, _, hE, (relabel_relabel { shift := 5 } { shift := 2 } e₀).trans he₀, hplaced⟩

/-- The value of an assignment is a statement by itself exactly if it is taken for no definition and
for no destructuring beforehand. Its tree is the same, two tokens further in front. -/
theorem SourceUnit.evaluated?_iff (hhead : head.map Token.kind = bodyHead) (ht : target.kind = .identifier)
    (hq : equals.kind = .equalsToken) (htail : tail.map Token.kind = bodyTail)
    (hforeach : ∀ first ∈ E.head?, first.kind ≠ .foreachKeyword)
    (hd : 3 ≤ options.maxNestingDepth)
    (h : (around file head (target :: equals :: E) tail).assigned? options = some e)
    (he : e.info?.map NodeInfo.tokens = some ⟨7, 7 + E.length⟩) :
    (∃ e', (around file head E tail).evaluated? options = some e' ∧
      relabel { shift := 2 } e' = e) ↔
    ∃ levels, Straight (recursion levels) ((around file head E tail).scope options).deeper.inList
      (State.goTo {} 5) takenForDefinition false 5 := by
  obtain ⟨levels, e₀, hE, he₀, hread⟩ := value_standalone hhead ht hq htail hd h he
  obtain ⟨semicolon, closing, last, rfl, hs, hc, hl⟩ := exists_of_bodyTail htail
  have hlength : head.length = 5 := by
    have hmap := congrArg List.length hhead
    rwa [List.length_map] at hmap
  have hbefore : ∀ t ∈ head, t.isEndOfFile = false := isEndOfFile_of_mem hhead (by decide)
  have htokens := (((ended_of_bodyTail htail).append hE).append hbefore).buffer.1
  have hshows : (Buffer.ofSource (around file head E [semicolon, closing, last]).source).Shows
      head.length (E ++ [semicolon, closing, last]) := Buffer.shows_tokens htokens
  rw [hlength] at hshows
  obtain ⟨hinside, hsemicolon, -⟩ := Buffer.Shows.append.mp hshows
  have hstart := Scope.startsStatement_of_startsExpression hread.startsExpression
  cases E with
  | nil =>
    rw [Scope.kindAt_zero (Buffer.Shows.get hsemicolon), hs] at hstart
    cases hstart
  | cons first rest =>
    have hkind : ((around file head (first :: rest) [semicolon, closing, last]).scope
        options).deeper.inList.kindAt (State.goTo {} 5) 0 = first.kind :=
      Scope.kindAt_zero (Buffer.Shows.get hinside.1)
    have hat : ((around file head (first :: rest) [semicolon, closing, last]).scope
        options).deeper.inList.atExpression (State.goTo {} 5) :=
      ⟨hkind ▸ hforeach first rfl, hread.startsExpression⟩
    rw [hkind] at hstart
    constructor
    · rintro ⟨e', he', -⟩
      obtain ⟨info', hevaluate⟩ := evaluated?_eq_some.mp he'
      obtain ⟨t', hparse, hclean, hx⟩ := onlyStatement?_eq_some.mp hevaluate
      obtain ⟨n, j, hstatement⟩ := statement_of_parse? rfl hhead hstart hparse hclean hx
      obtain ⟨m, -, hbody⟩ := hstatement.of_call
      exact ⟨m, Straight.declined_of_evaluate hat hbody⟩
    · rintro ⟨m, hdeclined⟩
      have hread' := Follows.levels (.call _) (Nat.le_add_right levels m) hread
      have hdeclined' : Straight (recursion (levels + m)) _ (State.goTo {} 5) takenForDefinition
          false 5 :=
        Follows.levels follows_takenForDefinition (Nat.le_add_left m levels) hdeclined
      obtain ⟨info', hstatement⟩ :=
        straight_expressionStatement hread' (Buffer.Shows.get hsemicolon) hs
      have hbody : Straight (recursion (levels + m)) _ (State.goTo {} 5) statementBody
          (.evaluate info' e₀) _ := (statementBody_of_declined hat hdeclined').trans hstatement
      have hsolid : ∀ t ∈ (first :: rest) ++ [semicolon], t.isEndOfFile = false := by
        intro t hmem
        rcases List.mem_append.mp hmem with hmem | hmem
        · exact hE t hmem
        · obtain rfl := List.mem_singleton.mp hmem
          exact Bool.eq_false_iff.mpr fun hend => by
            rw [beq_iff_eq.mp hend] at hs
            cases hs
      have hsource : (around file head (first :: rest) [semicolon, closing, last]).source.tokens =
          head ++ (((first :: rest) ++ [semicolon]) ++ [closing, last]) := by
        rw [List.append_assoc]
        rfl
      have hall : 5 + ((first :: rest) ++ [semicolon]).length = 5 + (first :: rest).length + 1 := by
        rw [List.length_append]
        rfl
      have hlone := parse?_of_statement hsource hhead rfl hsolid hstart hc hl
        (Nat.le_of_succ_le (Nat.le_of_succ_le hd)) (by rw [hall]; exact .call hbody)
      exact ⟨e₀, evaluated?_eq_some.mpr ⟨info', onlyStatement?_eq_some.mpr hlone⟩, he₀⟩

end Around

/-! ## Conditional expressions -/

namespace SourceUnit

/-- `function f() {` before and `; }` behind the given tokens. -/
def inFunction (body : List Token) : SourceUnit :=
  around "main.bal"
    [.fixed .functionKeyword 0, .place .identifier "f" 9, .fixed .openParenToken 10,
      .fixed .closeParenToken 11, .fixed .openBraceToken 13]
    body [.fixed .semicolonToken 40, .fixed .closeBraceToken 42, .endOfFile 44]

/-- `x = ` in front of the given tokens. -/
def assigning (value : List Token) : SourceUnit :=
  inFunction (.place .identifier "x" 15 :: .fixed .equalsToken 17 :: value)

/-- `a ? b : c` -/
def ofNames : List Token :=
  [.place .identifier "a" 19, .fixed .questionToken 21, .place .identifier "b" 23,
    .fixed .colonToken 25, .place .identifier "c" 27]

/-- `a ? b() : c()` -/
def ofCalls : List Token :=
  [.place .identifier "a" 19, .fixed .questionToken 21, .place .identifier "b" 23,
    .fixed .openParenToken 24, .fixed .closeParenToken 25, .fixed .colonToken 27,
    .place .identifier "c" 29, .fixed .openParenToken 30, .fixed .closeParenToken 31]

theorem ofNames_evaluated :
    ∃ e, (assigning ofNames).assigned? {} = some e ∧
      e.info?.map NodeInfo.tokens = some ⟨7, 7 + ofNames.length⟩ ∧
      ∃ e', (inFunction ofNames).evaluated? {} = some e' ∧ relabel { shift := 2 } e' = e := by
  have hinfo : (((assigning ofNames).assigned? {}).bind (·.info?)).map NodeInfo.tokens =
      some ⟨7, 7 + ofNames.length⟩ := by decide +kernel
  rw [Option.map_bind] at hinfo
  obtain ⟨e, he, htokens⟩ := Option.bind_eq_some_iff.mp hinfo
  refine ⟨e, he, htokens, (evaluated?_iff rfl rfl rfl rfl ?_ (by decide) he htokens).mpr ?_⟩
  · decide
  · exact ⟨20, rfl⟩

/-- The name behind the question mark is taken for that of a variable if no colon follows it at
once. -/
theorem ofCalls_taken :
    (∀ first ∈ ofCalls.head?, first.kind ≠ .foreachKeyword) ∧
      (∃ e, (assigning ofCalls).assigned? {} = some e ∧
        e.info?.map NodeInfo.tokens = some ⟨7, 7 + ofCalls.length⟩) ∧
      ¬∃ e', (inFunction ofCalls).evaluated? {} = some e' := by
  have hinfo : (((assigning ofCalls).assigned? {}).bind (·.info?)).map NodeInfo.tokens =
      some ⟨7, 7 + ofCalls.length⟩ := by decide +kernel
  have hnone : ((inFunction ofCalls).evaluated? {}).isNone = true := by decide +kernel
  rw [Option.map_bind] at hinfo
  refine ⟨by decide, Option.bind_eq_some_iff.mp hinfo, ?_⟩
  rintro ⟨e', he'⟩
  rw [he'] at hnone
  cases hnone

end SourceUnit

end BallerinaSyntax
