import BallerinaSyntax.Proofs.Cursor
import BallerinaSyntax.Proofs.Phrase.Unit
import BallerinaSyntax.Tree.Walk

/-!
How deep statements nest. Blocks, bodies and expressions count toward the nesting limit, but a
statement that is the body of a match clause by itself is read without being counted. So a ladder of
match statements, each the body of the only clause of the one around it, nests as deep as one likes
under any limit that lets a type in a function be read.
-/

namespace BallerinaSyntax

open Grammar Parse

/-! ## Statements on a way down -/

/-- The most labels that count on a way down a forest. -/
def Forest.deepest {α : Type} (counts : α → Bool) : Forest α → Nat
  | .nil => 0
  | .cons a children rest =>
    max (children.deepest counts + (counts a).toNat) (rest.deepest counts)

theorem Forest.deepest_append {α : Type} (counts : α → Bool) (f g : Forest α) :
    (f ++ g).deepest counts = max (f.deepest counts) (g.deepest counts) := by
  induction f with
  | nil => simp [deepest]
  | cons a children rest _ ih => simp [deepest, ih, Nat.max_assoc]

/-- Whether a statement is announced. -/
def Visit.isStatement : Visit → Bool
  | .hook (.statement _) => true
  | _ => false

namespace Visits

/-- The most statements that are announced on a way down a walk. -/
def statementDepth (v : Visits) : Nat := v.deepest Visit.isStatement

@[simp] theorem statementDepth_nil : statementDepth .nil = 0 := rfl

@[simp] theorem statementDepth_append (f g : Visits) :
    statementDepth (f ++ g) = max f.statementDepth g.statementDepth := Forest.deepest_append ..

@[simp] theorem statementDepth_node (info : NodeInfo) (inside : Visits) :
    statementDepth (node info inside) = inside.statementDepth := Nat.max_zero _

@[simp] theorem statementDepth_announce (h : Hook) (inside : Visits) :
    statementDepth (announce h inside) =
      inside.statementDepth + (Visit.isStatement (.hook h)).toNat := Nat.max_zero _

@[simp] theorem statementDepth_leaf (info : NodeInfo) : statementDepth (leaf info) = 0 := rfl

@[simp] theorem statementDepth_hooked {c : Category} (t : Tree c) (v : Visits) :
    statementDepth (t.hooked v) = v.statementDepth + if c = .statement then 1 else 0 := by
  cases c <;> first | rfl | exact Nat.max_zero _

end Visits

/-! ## Ladders -/

/-- The tokens of `n` match statements around a `break`, from `pos` on. Each has one clause, whose
body is the next of them. -/
def ladder : Nat → Nat → List Token
  | 0, pos => [.fixed .breakKeyword pos, .fixed .semicolonToken (pos + 5)]
  | n + 1, pos =>
    .fixed .matchKeyword pos :: .place .decimalIntegerLiteral "1" (pos + 6) ::
      .fixed .openBraceToken (pos + 8) :: .fixed .intKeyword (pos + 10) ::
      .fixed .equalsGreaterThanToken (pos + 14) ::
      (ladder n (pos + 17) ++ [.fixed .closeBraceToken (pos + 19 * n + 24)])

theorem ladder_first (n pos : Nat) : ∃ t rest, ladder n pos = t :: rest ∧
    startsStatement t.kind = true ∧ (t.kind == .openBraceToken) = false := by
  cases n with
  | zero => exact ⟨_, _, rfl, rfl, rfl⟩
  | succ n => exact ⟨_, _, rfl, rfl, rfl⟩

theorem ladder_kinds (n pos : Nat) : ∀ t ∈ ladder n pos, t.isEndOfFile = false := by
  induction n generalizing pos with
  | zero => simp [ladder, Token.isEndOfFile, Token.fixed, Token.place]
  | succ n ih =>
    simpa [ladder, Token.isEndOfFile, Token.fixed, Token.place, or_imp, forall_and] using ih _

section Reading

variable {levels : Nat} {scope : Scope} {s : State}

/-- A statement that begins with a word of its own. -/
theorem leads_statement {t : Token} (start : StatementStart) {tree : Statement} {u : State}
    (ht : scope.buffer.get s.position = t)
    (hn : Operator.isName scope.options.allowAnyIdentifierNames t.kind = false)
    (hk : StatementStart.ofKind? t.kind = some start)
    (h : Leads (recursion levels) scope s (statementFrom start) tree u) :
    Leads (recursion (levels + 1)) scope s statement tree u := by
  have hkind := Scope.kindAt_zero ht
  have hrule : Leads (recursion levels) scope s statementBody tree u := by
    refine .look looks_startsReservedCall (.ite_neg ?_ (.look (looks_kind 0) ?_))
    · rw [hkind, hn]
      simp
    · rw [hkind, hk]
      exact h
  exact hrule

theorem straight_statement {t : Token} (start : StatementStart) {tree : Statement} {j : Nat}
    (ht : scope.buffer.get s.position = t)
    (hn : Operator.isName scope.options.allowAnyIdentifierNames t.kind = false)
    (hk : StatementStart.ofKind? t.kind = some start)
    (h : Straight (recursion levels) scope s (statementFrom start) tree j) :
    Straight (recursion (levels + 1)) scope s statement tree j :=
  leads_statement start ht hn hk h

/-- A keyword and the semicolon behind it. -/
theorem straight_break {word stop : Token} (hs : scope.buffer.Shows s.position [word, stop])
    (hw : word.kind = .breakKeyword) (hk : stop.kind = .semicolonToken) :
    Straight (recursion (levels + 1)) scope s statement
      (.breakLoop (.over .breakStatement s.position [word, stop])) (s.position + 2) := by
  have hword := Buffer.Shows.get hs.1
  have hstop := Buffer.Shows.get hs.2.1
  refine straight_statement .breakLoop hword ?_ (by rw [hw]; rfl) ?_
  · rw [hw]
    cases scope.options.allowAnyIdentifierNames <;> rfl
  refine .bind (j := s.position + 2) ?_ (.pure _ rfl)
  refine .look looks_mark (.bind (.bump hword (by rw [hw]; decide)) (.bind
    (.expect (s := s.goTo (s.position + 1)) hstop hk (by decide)) ?_))
  exact .finish (s := s.goTo (s.position + 2)) _ hs (List.cons_ne_nil _ _) rfl

/-- The only clause of a match statement, whose body is a statement by itself. -/
theorem straight_clause {type arrow first : Token} {body : Statement} {j : Nat}
    (hs : scope.buffer.Shows s.position [type, arrow, first]) (ht : type.kind = .intKeyword)
    (ha : arrow.kind = .equalsGreaterThanToken) (hf : (first.kind == .openBraceToken) = false)
    (hu : s.unwinding = false) (hl : 3 ≤ levels)
    (hd : scope.depth < scope.options.maxNestingDepth)
    (hb : Straight (recursion levels) scope (s.goTo (s.position + 2)) statement body j) :
    ∃ info info' keyword, Straight (recursion levels) scope s matchClause
      (.matchClause info (.builtinType info' keyword) none (.matchStatementBody body)) j := by
  have harrow := Buffer.Shows.get hs.2.1
  have hfirst := Buffer.Shows.get hs.2.2.1
  have hnext : scope.typeOperator? (s.goTo (s.position + 1)) = none := by
    have hkind : scope.kindAt (s.goTo (s.position + 1)) 0 = .equalsGreaterThanToken :=
      (Scope.kindAt_zero harrow).trans ha
    rw [Scope.typeOperator?, hkind]
    rfl
  have htype := straight_intType hs.1 ht hnext hu hl hd
  have hbinding : Straight (recursion levels) scope (s.goTo (s.position + 1)) optionalIdentifier
      none (s.position + 1) := by
    refine .look (looks_atKind _) (.ite_neg ?_ (.pure _ rfl))
    rw [Scope.kindAt_zero harrow, ha]
    decide
  have hbody : Straight (recursion levels) scope (s.goTo (s.position + 2)) matchBody
      (.matchStatementBody body) j := by
    refine .look (looks_atKind _) (.ite_neg ?_ (.bind hb (.pure _ rfl)))
    rw [Scope.kindAt_zero hfirst, hf]
    exact Bool.false_ne_true
  refine ⟨_, _, _, .look looks_mark (.bind htype (.bind hbinding (.bind
    (.expect (s := s.goTo (s.position + 1)) harrow ha (by decide)) (.bind hbody
      (.look (finish_eq _ _) (.pure _ rfl))))))⟩

/-- A match statement adds one to the statements on a way down through its clause. -/
theorem statementDepth_matchStatement {info info' info'' : NodeInfo} {keyword : Leaf}
    {subject : Expression} {body : Statement} (hs : subject.visits.statementDepth = 0) :
    (Tree.matchStatement info subject (.cons (.matchClause info' (.builtinType info'' keyword) none
      (.matchStatementBody body)) .nil)).visits.statementDepth = body.visits.statementDepth + 1 := by
  change (Visits.node info (subject.hooked subject.visits ++ (Visits.node info'
    (Tree.hooked (.builtinType info'' keyword) (Visits.leaf info'') ++ body.hooked body.visits) ++
      .nil))).statementDepth = _
  simp [hs]

/-- One more match statement around a statement that is read. -/
theorem straight_rung {ts : List Token} {word subject opening type arrow closing first : Token}
    {rest : List Token} {body : Statement} (hts : ts = first :: rest)
    (hs : scope.buffer.Shows s.position
      (word :: subject :: opening :: type :: arrow :: (ts ++ [closing])))
    (hw : word.kind = .matchKeyword) (hv : subject.kind = .decimalIntegerLiteral)
    (ho : opening.kind = .openBraceToken) (ht : type.kind = .intKeyword)
    (ha : arrow.kind = .equalsGreaterThanToken) (hc : closing.kind = .closeBraceToken)
    (hf : (first.kind == .openBraceToken) = false) (hu : s.unwinding = false) (hl : 3 ≤ levels)
    (hd : scope.depth < scope.options.maxNestingDepth)
    (hb : Straight (recursion levels) scope (s.goTo (s.position + 5)) statement body
      (s.position + 5 + ts.length)) :
    ∃ info info' info'' keyword, Straight (recursion (levels + 1)) scope s statement
      (.matchStatement info ((Phrase.integer none subject).tree (s.position + 1))
        (.cons (.matchClause info' (.builtinType info'' keyword) none (.matchStatementBody body))
          .nil)) (s.position + 5 + ts.length + 1) := by
  obtain ⟨hword, hsubject, hopening, htype, harrow, hinner⟩ := hs
  obtain ⟨hbodyShows, hclosing, -⟩ := Buffer.Shows.append.mp hinner
  have hfirst : scope.buffer.tokens[s.position + 5]? = some first := by
    rw [hts] at hbodyShows
    exact hbodyShows.1
  have hclose := Buffer.Shows.get hclosing
  have hopen := Buffer.Shows.get hopening
  have hnumber := straight_numeral (s := s.goTo (s.position + 1)) hsubject (by rw [hv]; rfl)
    (by rw [State.goTo_position, hopen, ho]; rfl) hu hl hd
  obtain ⟨info', info'', keyword, hclause⟩ := straight_clause (s := s.goTo (s.position + 3))
    ⟨htype, harrow, hfirst, trivial⟩ ht ha hf hu hl hd hb
  have hclauses : Straight (recursion levels) scope (s.goTo (s.position + 3)) matchClauses
      [.matchClause info' (.builtinType info'' keyword) none (.matchStatementBody body)]
      (s.position + 5 + ts.length) := by
    refine .many_one (.look (looks_atListEnd _) (.ite_neg ?_ (.bind (.progressing _ hclause ?_)
      (.pure _ rfl)))) (.look (looks_atListEnd _) (.ite_pos ?_ (.pure _ rfl))) ?_
    · rw [Scope.kindAt_zero (Buffer.Shows.get htype), ht, State.goTo_unwinding, hu]
      decide
    · change s.position + 5 + ts.length ≠ s.position + 3
      omega
    · rw [Scope.kindAt_zero hclose, hc, State.goTo_unwinding]
      simp
    · obtain ⟨n, rfl⟩ := Nat.exists_eq_add_of_le' hl
      exact Nat.le_add_left 2 n
  refine ⟨_, info', info'', keyword, straight_statement .matchCases (Buffer.Shows.get hword) ?_
    (by rw [hw]; rfl) (.look looks_mark (.bind (.bump (Buffer.Shows.get hword) (by rw [hw]; decide))
      (.bind hnumber (.bind (.expect (s := s.goTo (s.position + 2)) hopen ho
        (by decide)) (.bind hclauses (.bind
          (.expectClosing (s := s.goTo (s.position + 5 + ts.length)) hclose hc (by decide))
            (.look (finishDelimited_eq _ _ _) (.pure _ rfl))))))))⟩
  rw [hw]
  cases scope.options.allowAnyIdentifierNames <;> rfl

end Reading

/-- A ladder of any height is read without an error wherever one more level of nesting is allowed,
and all of its statements are on one way down. -/
theorem straight_ladder {n pos levels : Nat} {scope : Scope} {s : State}
    (hs : scope.buffer.Shows s.position (ladder n pos)) (hu : s.unwinding = false)
    (hd : scope.depth < scope.options.maxNestingDepth) (hl : n + 4 ≤ levels) :
    ∃ t : Statement, Straight (recursion levels) scope s statement t
        (s.position + (ladder n pos).length) ∧
      t.visits.statementDepth = n := by
  induction n generalizing pos s levels with
  | zero =>
    obtain ⟨l, rfl⟩ := Nat.exists_eq_add_of_le' hl
    exact ⟨_, straight_break hs rfl rfl, rfl⟩
  | succ n ih =>
    obtain ⟨l, rfl⟩ := Nat.exists_eq_add_of_le' hl
    obtain ⟨first, rest, hts, -, hf⟩ := ladder_first n (pos + 17)
    obtain ⟨hinner, -⟩ := Buffer.Shows.append.mp hs.2.2.2.2.2
    have hlevels : n + 4 ≤ l + n + 4 := by omega
    obtain ⟨body, hb, hn⟩ := ih (s := s.goTo (s.position + 5)) hinner hu hlevels
    obtain ⟨info, info', info'', keyword, hr⟩ := straight_rung hts hs rfl rfl rfl rfl rfl rfl hf hu
      (by omega) hd hb
    have hend : s.position + 5 + (ladder n (pos + 17)).length + 1 =
        s.position + (ladder (n + 1) pos).length := by
      simp only [ladder, List.length_cons, List.length_append, List.length_nil]
      omega
    rw [hend] at hr
    refine ⟨_, hr, ?_⟩
    rw [statementDepth_matchStatement rfl, hn]

/-! ## Units -/

/-- The tokens of a function whose body is a ladder of `n` match statements. -/
def ladderFunction (n : Nat) : List Token :=
  .fixed .functionKeyword 0 :: .place .identifier "f" 9 :: .fixed .openParenToken 10 ::
    .fixed .closeParenToken 11 :: .fixed .openBraceToken 13 ::
    (ladder n 15 ++ [.fixed .closeBraceToken (19 * n + 22)])

def SourceUnit.ladder (n : Nat) : SourceUnit :=
  ⟨"ladder.bal", { tokens := ladderFunction n ++ [.endOfFile (19 * n + 23)] }⟩

theorem ladderFunction_kinds (n : Nat) : ∀ t ∈ ladderFunction n, t.isEndOfFile = false := by
  simpa [ladderFunction, Token.isEndOfFile, Token.fixed, Token.place, or_imp, forall_and] using
    ladder_kinds n 15

theorem ladder_length (n pos : Nat) : (ladder n pos).length = 6 * n + 2 := by
  induction n generalizing pos with
  | zero => rfl
  | succ n ih =>
    simp only [ladder, List.length_cons, List.length_append, List.length_nil, ih]
    omega

/-- The only statement of a function is on all ways down that have the most statements. -/
theorem statementDepth_function {info info' info'' info₃ : NodeInfo} {name : Identifier}
    {body : Statement} :
    (Definition.function
      { info := info
        metadata := .metadata [] [] .nil
        receiver := none
        signature := .signature info' name (.parameterList info'' .nil) .absent
        body := some (.callableBody info₃ .nil (.cons body .nil) .nil) }).walk.statementDepth =
      body.visits.statementDepth + 1 := by
  change (Visits.announce _ (Visits.node info (Tree.hooked (.metadata [] [] .nil) .nil ++
    Tree.hooked (.signature info' name (.parameterList info'' .nil) .absent)
      (Visits.node info' (Visits.node info'' .nil ++ .nil)) ++
    (Tree.hooked (.callableBody info₃ .nil (.cons body .nil) .nil)
      (Visits.node info₃ (.nil ++ (body.hooked body.visits ++ .nil) ++ .nil)) ++
        .nil)))).statementDepth = _
  simp [Visit.isStatement]

/-- The definition that such a function is, wherever two levels of nesting are allowed. -/
theorem straight_ladderFunction {n levels : Nat} {scope : Scope} {s : State}
    (hs : scope.buffer.Shows s.position (ladderFunction n)) (hu : s.unwinding = false)
    (hd : scope.depth + 2 ≤ scope.options.maxNestingDepth) (hl : n + 5 ≤ levels) :
    ∃ d, Straight (recursion levels) scope s definition d
        (s.position + (ladderFunction n).length) ∧
      d.walk.statementDepth = n + 1 := by
  obtain ⟨l, rfl⟩ := Nat.exists_eq_add_of_le' hl
  obtain ⟨hkeyword, hname, hopening, hclosing, hbody⟩ := hs
  obtain ⟨first, rest, hts, hf, -⟩ := ladder_first n 15
  obtain ⟨hladder, -⟩ := Buffer.Shows.append.mp hbody.2
  have hinner : Buffer.Shows
      { scope with depth := scope.depth + 1, recovery := statementSync :: scope.recovery }.buffer
      (s.goTo (s.position + 5)).position (ladder n 15) := hladder
  obtain ⟨body, hr, hn⟩ := straight_ladder hinner hu hd (Nat.le_add_left (n + 4) l)
  obtain ⟨info, hblock⟩ := straight_body (s := s.goTo (s.position + 4)) hts hbody rfl rfl hf hu
    (by omega) (by omega) hr
  have hsteps : 1 ≤ (recursion (l + (n + 4) + 1)).steps := Nat.le_add_left 1 (l + (n + 3))
  obtain ⟨info', info'', info₃, hfunction⟩ := leads_function
    (h := ⟨s.mark, .metadata [] [] .nil, {}⟩) ⟨hkeyword, hname, hopening, hclosing, hbody.1, trivial⟩
    rfl rfl rfl rfl rfl hblock
  have hd := leads_definition ⟨hkeyword, hname, trivial⟩ rfl rfl hsteps hfunction
  have hend : s.position + 4 + 1 + (ladder n 15).length + 1 =
      s.position + (ladderFunction n).length := by
    simp only [ladderFunction, List.length_cons, List.length_append, List.length_nil]
    omega
  refine ⟨_, hend ▸ hd, ?_⟩
  rw [statementDepth_function, hn]

/-- Whatever the limit is, if it lets a type in a function be read, statements nest as deep as one
likes: a unit without an error has `n` match statements and a `break` on one way down. -/
theorem SourceUnit.parse?_ladder (n : Nat) {options : Options} (h : 2 ≤ options.maxNestingDepth) :
    ∃ t, (SourceUnit.ladder n).parse? options = some (.ok t) ∧ t.diagnostics = [] ∧
      t.root.walk.statementDepth = n + 1 := by
  have hsource : (SourceUnit.ladder n).source.tokens =
      ladderFunction n ++ [.endOfFile (19 * n + 23)] := rfl
  obtain ⟨htokens, hfatal⟩ := Buffer.ofSource_ended hsource (ladderFunction_kinds n) rfl
  have hshows : (Buffer.ofSource (SourceUnit.ladder n).source).Shows ([] : List Token).length
      (ladderFunction n ++ [.endOfFile (19 * n + 23)]) := Buffer.shows_tokens htokens
  obtain ⟨hfunction, hlast, -⟩ := Buffer.Shows.append.mp hshows
  have hsize : (Buffer.ofSource (SourceUnit.ladder n).source).size = 6 * n + 9 := by
    rw [Buffer.size, ← Array.length_toList, htokens]
    simp [ladderFunction, ladder_length]
  have hlevels : n + 5 ≤ (Buffer.ofSource (SourceUnit.ladder n).source).steps := by
    rw [Buffer.steps, hsize]
    omega
  have hrounds : 2 ≤ (recursion (Buffer.ofSource (SourceUnit.ladder n).source).steps).steps := by
    rw [Buffer.steps, hsize]
    exact Nat.le_add_left 2 _
  have hroom : (⟨.ofSource (SourceUnit.ladder n).source, options, "ladder.bal", [], 0⟩ :
      Scope).depth + 2 ≤ options.maxNestingDepth := by omega
  obtain ⟨d, hd, hn⟩ := straight_ladderFunction (s := {}) hfunction rfl hroom hlevels
  have hfirst := Buffer.Shows.get hfunction.1
  have hmoved : ({} : State).position + (ladderFunction n).length ≠ ({} : State).position :=
    Nat.succ_ne_zero _
  have hitems := straight_unitItems hfirst rfl (Buffer.Shows.get hlast) rfl rfl hmoved hrounds hd
  obtain ⟨info, leaf, hunit⟩ := straight_compilationUnit (Buffer.Shows.get hlast) rfl hitems
  refine ⟨_, SourceUnit.parse?_eq_ok.mpr ⟨_, _, hunit, hfatal, rfl⟩, rfl, ?_⟩
  change (Visits.announce _ (Visits.node info (.nil ++ (d.walk ++ .nil)))).statementDepth = _
  simp [Visit.isStatement, hn]

/-- Three match statements and a `break` under a limit of three. -/
theorem SourceUnit.threeMatches_nest : 2 ≤ ({ maxNestingDepth := 3 } : Options).maxNestingDepth ∧
    ∃ t, (SourceUnit.ladder 3).parse? { maxNestingDepth := 3 } = some (.ok t) ∧
      t.diagnostics = [] ∧ t.root.walk.statementDepth = 4 :=
  ⟨by decide, SourceUnit.parse?_ladder 3 (by decide)⟩

/-- It is not so that statements nest at most as deep as the limit is. -/
theorem SourceUnit.statementDepth_unbounded : ¬∀ (u : SourceUnit) (options : Options)
    (t : ParseTree), u.parse? options = some (.ok t) →
      t.root.walk.statementDepth ≤ options.maxNestingDepth := by
  intro h
  have hread : ((SourceUnit.ladder 3).parse? { maxNestingDepth := 3 }).bind
      (·.toOption.map (·.root.walk.statementDepth)) = some 4 := by decide +kernel
  obtain ⟨r, hr, hdepth⟩ := Option.bind_eq_some_iff.mp hread
  cases r with
  | error e => cases hdepth
  | ok t =>
    have hbound := h _ _ t hr
    have hfour : t.root.walk.statementDepth = 4 := Option.some.inj hdepth
    rw [hfour] at hbound
    exact absurd hbound (by decide)

end BallerinaSyntax
