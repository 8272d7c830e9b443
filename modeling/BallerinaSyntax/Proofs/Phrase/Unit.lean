import BallerinaSyntax.Proofs.Phrase.Climb

/-!
Units read straight on: one function without parameters or a return type, with one statement in its
body.
-/

namespace BallerinaSyntax

open Grammar Parse

variable {r : Recursion} {scope : Scope} {s : State}

/-! ## Words -/

/-- A type that is the word `int`, before what is no part of a type. -/
theorem straight_intType {levels : Nat} {t : Token}
    (ht : scope.buffer.tokens[s.position]? = some t) (hk : t.kind = .intKeyword)
    (hn : scope.typeOperator? (s.goTo (s.position + 1)) = none) (hu : s.unwinding = false)
    (hl : 3 ≤ levels) (hd : scope.depth < scope.options.maxNestingDepth) :
    Straight (recursion levels) scope s typeName
      (.builtinType (.over .builtinTypeName s.position [t]) (t.leaf s.position))
      (s.position + 1) := by
  obtain ⟨n, rfl⟩ := Nat.exists_eq_add_of_le' hl
  have hg := Buffer.Shows.get ht
  have hkind := Scope.kindAt_zero hg
  have looks : Looks typeRule.operator? Scope.typeOperator? := looks_typeOperator?
  refine .call (.nested hd ((ClimbsTo.primary ?_).done (Nat.succ_pos n) looks hu fun op hop => ?_))
  · refine .look looks_mark (.look (looks_kind 0) (.look (looks_isKind _ _) (.ite_neg ?_
      (.ite_pos ?_ (.bind (.bump hg (by rw [hk]; decide)) (.bind ?_ (.pure _ rfl)))))))
    · change ¬((scope.kindAt s 0).isConstrainableType && _) = true
      rw [hkind, hk]
      exact Bool.false_ne_true
    · change (scope.kindAt s 0).isBuiltinType = true
      rw [hkind, hk]
      rfl
    · have hs : scope.buffer.Shows s.position [t] := ⟨ht, trivial⟩
      exact .finish (s := s.goTo _) _ hs (List.cons_ne_nil _ _) rfl
  · cases hn.symm.trans hop

/-- A primary by itself, before what is no operator. -/
theorem straight_expression {levels j : Nat} {e : Expression}
    (h : Straight (recursion levels) scope.deeper s primaryExpression e j)
    (hn : Operator.expression? (scope.buffer.get j).kind = none) (hu : s.unwinding = false)
    (hl : 2 ≤ levels) (hd : scope.depth < scope.options.maxNestingDepth) :
    Straight (recursion (levels + 1)) scope s expression e j := by
  have hsteps : 0 < (recursion levels).steps := by
    rw [steps_recursion]
    omega
  have looks : Looks expressionRule.operator? Scope.expressionOperator? := looks_expressionOperator?
  refine .call (.nested hd ((ClimbsTo.primary h).done hsteps looks hu fun op hop => ?_))
  cases hn.symm.trans (Scope.expression_of_expressionOperator hop)

/-- A number by itself, before what is no operator. -/
theorem straight_numeral {levels : Nat} {t : Token}
    (ht : scope.buffer.tokens[s.position]? = some t) (hk : t.kind.isIntegerLiteral = true)
    (hn : Operator.expression? (scope.buffer.get (s.position + 1)).kind = none)
    (hu : s.unwinding = false) (hl : 3 ≤ levels)
    (hd : scope.depth < scope.options.maxNestingDepth) :
    Straight (recursion levels) scope s expression ((Phrase.integer none t).tree s.position)
      (s.position + 1) := by
  obtain ⟨n, rfl⟩ := Nat.exists_eq_add_of_le' hl
  have hs : scope.deeper.buffer.Shows s.position ((none : Option Token).toList ++ [t]) :=
    ⟨ht, trivial⟩
  have hm : ∀ minus ∈ (none : Option Token), minus.kind = .minusToken := fun _ h => nomatch h
  exact straight_expression (Phrase.isPrimary_integer hs hk hm) hn hu (Nat.le_add_left 2 n) hd

/-! ## Headings and signatures -/

/-- The tokens that may stand in the heading of a definition. -/
def headingStart : List Kind :=
  [.documentationTemplateStart, .deprecatedTemplateStart, .atToken] ++ modifierKeywords

/-- The heading of a definition that begins with its keyword or its type. -/
theorem straight_heading (hk : scope.kindAt s 0 ∉ headingStart) (hr : 1 ≤ r.steps) :
    Straight r scope s heading ⟨s.mark, .metadata [] [] .nil, {}⟩ s.position := by
  refine .look looks_mark (.bind (a := .metadata [] [] .nil) (j := s.position) ?_
    (.bind (a := {}) (j := s.position) ?_ (.pure _ rfl)))
  · refine .bind (.loop_stop (b := {}) (.look (looks_kind 0) ?_) hr) (.pure _ rfl)
    split
    · rename_i he
      exact absurd (by rw [he]; decide) hk
    · rename_i he
      exact absurd (by rw [he]; decide) hk
    · rename_i he
      exact absurd (by rw [he]; decide) hk
    · exact .pure _ rfl
  · refine .bind (.many_none (.look (looks_atAny _) (.ite_neg ?_ (.pure _ rfl))) hr) (.pure _ rfl)
    change ¬modifierKeywords.contains (scope.kindAt s 0) = true
    rw [List.contains_iff_mem]
    exact fun h => hk (List.mem_append_right _ h)

/-- Parentheses with nothing in them. -/
theorem straight_noParameters {opening closing : Token}
    (hs : scope.buffer.Shows s.position [opening, closing]) (ho : opening.kind = .openParenToken)
    (hc : closing.kind = .closeParenToken) :
    ∃ info, Straight r scope s parameterList (.parameterList info .nil) (s.position + 2) := by
  have hclosing := Buffer.Shows.get hs.2.1
  refine ⟨_, .look looks_mark (.bind (.expect (Buffer.Shows.get hs.1) ho (by decide))
    (.bind (a := []) (j := s.position + 1) ?_ (.bind
      (.expectClosing (s := s.goTo (s.position + 1)) hclosing hc (by decide))
        (.look (finishDelimited_eq _ _ _) (.pure _ rfl)))))⟩
  refine .look (looks_atListEnd _) (.ite_pos ?_ (.pure _ rfl))
  rw [Scope.kindAt_zero hclosing, hc]
  simp

theorem straight_signature {levels : Nat} {name opening closing next : Token}
    (hs : scope.buffer.Shows s.position [name, opening, closing, next])
    (hn : name.kind = .identifier) (ho : opening.kind = .openParenToken)
    (hc : closing.kind = .closeParenToken) (hb : next.kind = .openBraceToken) :
    ∃ info info', Straight (recursion levels) scope s signature
      (.signature info (name.named s.position) (.parameterList info' .nil) .absent)
      (s.position + 3) := by
  obtain ⟨hname, hopening, hclosing, hnext, -⟩ := hs
  have hname := Buffer.Shows.get hname
  have hcallable : Straight (recursion levels) scope s callableName (name.named s.position)
      (s.position + 1) := by
    refine .look (looks_kind 0) (.look (looks_isName _) (.ite_pos ?_ (straight_bumpName hname hn)))
    rw [Scope.kindAt_zero hname, hn]
    cases scope.options.allowAnyIdentifierNames <;> rfl
  obtain ⟨info', hparameters⟩ := straight_noParameters (r := recursion levels)
    (s := s.goTo (s.position + 1))
    ⟨hopening, hclosing, trivial⟩ ho hc
  have hreturns : Straight (recursion levels) scope (s.goTo (s.position + 3)) optionalReturn .absent
      (s.position + 3) := by
    refine .look (looks_atKind _) (.ite_neg ?_ (.pure _ rfl))
    rw [Scope.kindAt_zero (Buffer.Shows.get hnext), hb]
    decide
  exact ⟨_, info', .look looks_mark (.bind hcallable (.bind hparameters (.bind hreturns
    (.look (finish_eq _ _) (.pure _ rfl)))))⟩

/-! ## Bodies -/

/-- What begins a statement is none of the tokens that do not. -/
theorem beq_of_startsStatement {k k' : Kind} (hk : startsStatement k = true)
    (hk' : startsStatement k' = false) : (k == k') = false := by
  rw [beq_eq_false_iff_ne]
  rintro rfl
  exact Bool.false_ne_true (hk'.symm.trans hk)

/-- A round of a list of statements that reads one. -/
theorem straight_statementRound {first : Token} {body : Statement} {j : Nat}
    (hf : scope.buffer.get s.position = first)
    (hk : startsStatement first.kind = true) (hj : j ≠ s.position)
    (hb : Straight r scope s statement body j) :
    Straight r scope s statementRound (some body) j := by
  refine .look (looks_kind 0) (.ite_neg ?_ (.look (looks_isName _) (.ite_neg ?_
    (.bind (.progressing _ hb hj) (.pure _ rfl)))))
  · rw [Scope.kindAt_zero hf, beq_of_startsStatement hk (by decide)]
    exact Bool.false_ne_true
  · rw [Scope.kindAt_zero hf, hk]
    exact Bool.false_ne_true

/-- One statement and the brace behind it. -/
theorem straight_statements {first closing : Token} {body : Statement} {j : Nat}
    (hf : scope.buffer.get s.position = first) (hc : scope.buffer.get j = closing)
    (hk : startsStatement first.kind = true)
    (hck : closing.kind = .closeBraceToken) (hu : s.unwinding = false) (hj : j ≠ s.position)
    (hr : 2 ≤ r.steps)
    (hb : Straight r { scope with recovery := statementSync :: scope.recovery } s statement body j) :
    Straight r scope s statements (.cons body .nil) j := by
  have hround : Straight r { scope with recovery := statementSync :: scope.recovery } s
      statementRound (some body) j := straight_statementRound hf hk hj hb
  refine .bind (a := #[body]) (.loop_again (c := #[body])
    (.look (looks_atListEnd _) (.ite_neg ?_ (.bind hround (.pure _ rfl))))
      (.look (looks_atListEnd _) (.ite_pos ?_ (.pure _ rfl))) hr) (.pure _ rfl)
  · change ¬(s.unwinding || scope.kindAt s 0 == .closeBraceToken ||
      scope.kindAt s 0 == .endOfFileToken) = true
    rw [Scope.kindAt_zero hf, hu, beq_of_startsStatement hk (by decide),
      beq_of_startsStatement hk (by decide)]
    exact Bool.false_ne_true
  · change (s.unwinding || scope.kindAt (s.goTo j) 0 == .closeBraceToken ||
      scope.kindAt (s.goTo j) 0 == .endOfFileToken) = true
    rw [Scope.kindAt_zero hc, hck]
    simp

/-- No endpoint is in front of a statement. -/
theorem straight_noEndpoints {first : Token} (hf : scope.buffer.get s.position = first)
    (hk : startsStatement first.kind = true) (hu : s.unwinding = false)
    (hr : 1 ≤ r.steps) : Straight r scope s localEndpoints [] s.position := by
  refine .many_none (.look looks_isUnwinding (.look (looks_atKind _) (.look (looks_atKind _)
    (.ite_neg ?_ (.pure _ rfl))))) hr
  rw [Scope.kindAt_zero hf, hu, beq_of_startsStatement hk (by decide),
    beq_of_startsStatement hk (by decide)]
  exact Bool.false_ne_true

/-- A body in braces with one statement in it. -/
theorem straight_body {levels : Nat} {opening first closing : Token} {ts rest : List Token}
    {body : Statement} (hts : ts = first :: rest)
    (hs : scope.buffer.Shows s.position (opening :: (ts ++ [closing])))
    (ho : opening.kind = .openBraceToken) (hc : closing.kind = .closeBraceToken)
    (hf : startsStatement first.kind = true)
    (hu : s.unwinding = false) (hl : 3 ≤ levels) (hd : scope.depth < scope.options.maxNestingDepth)
    (hb : Straight (recursion levels)
      { scope with depth := scope.depth + 1, recovery := statementSync :: scope.recovery }
      (s.goTo (s.position + 1)) statement body (s.position + 1 + ts.length)) :
    ∃ info, Straight (recursion (levels + 1)) scope s callableBody
      (.callableBody info .nil (.cons body .nil) .nil) (s.position + 1 + ts.length + 1) := by
  obtain ⟨hopening, hinner⟩ := hs
  obtain ⟨hbody, hclosing, -⟩ := Buffer.Shows.append.mp hinner
  have hclose := Buffer.Shows.get hclosing
  have hfirst : scope.buffer.get (s.position + 1) = first := by
    rw [hts] at hbody
    exact Buffer.Shows.get hbody.1
  have hsteps : 2 ≤ (recursion levels).steps := by
    obtain ⟨n, rfl⟩ := Nat.exists_eq_add_of_le' hl
    exact Nat.le_add_left 2 n
  have hmoved : s.position + 1 + ts.length ≠ s.position + 1 := by
    rw [hts, List.length_cons]
    omega
  have hendpoints : Straight (recursion levels) { scope with depth := scope.depth + 1 }
      (s.goTo (s.position + 1)) localEndpoints [] (s.position + 1) :=
    straight_noEndpoints hfirst hf hu (Nat.le_of_lt hsteps)
  have hstatements : Straight (recursion levels) { scope with depth := scope.depth + 1 }
      (s.goTo (s.position + 1)) statements (.cons body .nil) (s.position + 1 + ts.length) :=
    straight_statements hfirst hclose hf hc hu hmoved hsteps hb
  have hworkers : ¬(({ scope with depth := scope.depth + 1 } : Scope).kindAt
      (s.goTo (s.position + 1)) 0 == .workerKeyword) = true := by
    change ¬((scope.buffer.get (s.position + 1)).kind == .workerKeyword) = true
    rw [hfirst, beq_of_startsStatement hf (by decide)]
    exact Bool.false_ne_true
  exact ⟨_, .call (.nested hd (.look looks_mark (.bind
    (.expect (Buffer.Shows.get hopening) ho (by decide)) (.bind hendpoints (.look (looks_atKind _)
      (.ite_neg hworkers (.give (.ite_neg hworkers (.bind hstatements (.bind
        (.expectClosing (s := s.goTo (s.position + 1 + ts.length)) hclose hc (by decide))
          (.look (finishDelimited_eq _ _ _) (.pure _ rfl))))))))))))⟩

/-! ## Definitions and units -/

/-- No receiver is in front of a name that a parenthesis follows. -/
theorem straight_noReceiver {opening : Token}
    (hopen : scope.buffer.get (s.position + 1) = opening) (ho : opening.kind = .openParenToken) :
    Straight r scope s (identifierBefore .colonColonToken) none s.position := by
  refine .look (looks_atKind _) (.look (looks_isKind _ _) (.ite_neg ?_ (.pure _ rfl)))
  change ¬(_ && (scope.buffer.get (s.position + 1)).kind == .colonColonToken) = true
  rw [hopen, ho, Bool.and_eq_true]
  exact fun h => absurd h.2 (by decide)

/-- The name of a function is the token at an index. -/
def FunctionDefinition.IsNamed (f : FunctionDefinition) (name : Token) (index : Nat) : Prop :=
  ∃ info parameters, f.signature = .signature info (name.named index) parameters .absent

/-- A function without parameters or a return type. -/
theorem leads_function {levels : Nat} {h : Heading} {body : Tree .callableBody} {t : State}
    {keyword name opening closing brace : Token}
    (hs : scope.buffer.Shows s.position [keyword, name, opening, closing, brace])
    (hk : keyword.kind = .functionKeyword) (hn : name.kind = .identifier)
    (ho : opening.kind = .openParenToken) (hc : closing.kind = .closeParenToken)
    (hb : brace.kind = .openBraceToken)
    (hbody : Leads (recursion levels) scope (s.goTo (s.position + 4)) callableBody body t) :
    ∃ info info' info'', Leads (recursion levels) scope s (function h)
      { info := info
        metadata := h.metadata
        receiver := none
        signature := .signature info' (name.named (s.position + 1)) (.parameterList info'' .nil) .absent
        body := some body } t := by
  obtain ⟨hkeyword, hname, hopening, hclosing, hbrace, -⟩ := hs
  have hopen := Buffer.Shows.get hopening
  have hword : Straight (recursion levels) scope s bump _ _ :=
    .bump (Buffer.Shows.get hkeyword) (by rw [hk]; decide)
  have hreceiver : Straight (recursion levels) scope (s.goTo (s.position + 1))
      (identifierBefore .colonColonToken) none (s.position + 1) :=
    straight_noReceiver (s := s.goTo (s.position + 1)) hopen ho
  obtain ⟨info, info', hsignature⟩ := @straight_signature scope (s.goTo (s.position + 1)) levels
    _ _ _ _ ⟨hname, hopening, hclosing, hbrace, trivial⟩ hn ho hc hb
  have hsemicolon : Straight (recursion levels) scope (s.goTo (s.position + 4))
      (accept .semicolonToken) false (s.position + 4) := by
    refine .accept_no ?_
    rw [Scope.kindAt_zero (Buffer.Shows.get hbrace), hb]
    decide
  have hthere : Straight (recursion levels) scope (s.goTo (s.position + 4))
      (accept .semicolonToken >>= fun none => pure !none) true (s.position + 4) :=
    .bind hsemicolon (.pure _ rfl)
  have hoptional : Leads (recursion levels) scope (s.goTo (s.position + 4)) optionalBody
      (.present body) t :=
    .bind hthere.leads (.ite_pos rfl (.bind hbody (.pure _)))
  exact ⟨_, info, info', .bind hword.leads (.bind hreceiver.leads (.bind hsignature.leads
    (.bind hoptional (.bind (.look (finish_eq _ _) (.pure _)) (.pure _)))))⟩

/-- A definition that is such a function, without metadata or modifiers. -/
theorem leads_definition {f : FunctionDefinition} {t : State} {keyword name : Token}
    (hs : scope.buffer.Shows s.position [keyword, name])
    (hk : keyword.kind = .functionKeyword) (hn : name.kind = .identifier) (hr : 1 ≤ r.steps)
    (hf : Leads r scope s (function ⟨s.mark, .metadata [] [] .nil, {}⟩) f t) :
    Leads r scope s definition (.function f) t := by
  have hkind : scope.kindAt s 0 = .functionKeyword :=
    (Scope.kindAt_zero (Buffer.Shows.get hs.1)).trans hk
  have hkind' : scope.kindAt (s.goTo s.position) 0 = .functionKeyword := hkind
  refine .bind (straight_heading (by rw [hkind]; decide) hr).leads (.look (looks_kind 0) ?_)
  rw [hkind']
  refine .look (looks_isKind _ _) (.ite_pos ?_ (.bind hf (.pure _)))
  change (_ && !((scope.buffer.get (s.position + 1)).kind == .openParenToken)) = true
  rw [Buffer.Shows.get hs.2.1, hn]
  rfl

/-- A unit of one definition. -/
theorem straight_unitItems {d : Definition} {j : Nat} {keyword last : Token}
    (hk : scope.buffer.get s.position = keyword) (hkk : keyword.kind = .functionKeyword)
    (hl : scope.buffer.get j = last) (hlk : last.kind = .endOfFileToken)
    (hu : s.unwinding = false) (hj : j ≠ s.position) (hr : 2 ≤ r.steps)
    (hd : Straight r scope s definition d j) :
    Straight r scope s unitItems { definitions := #[d] } j := by
  have hitem : Straight r scope s (unitItem {}) { definitions := #[d] } j := by
    refine .look (looks_kind 0) ?_
    rw [Scope.kindAt_zero hk, hkk]
    exact .bind hd (.pure _ rfl)
  have hrunning : ¬s.unwinding = true := ne_true_of_eq_false hu
  refine .loop_again (i := j) (.look looks_isUnwinding (.ite_neg hrunning (.look looks_atEnd
    (.ite_neg ?_ (.bind (.progressing _ hitem hj) (.pure _ rfl))))))
    (.look looks_isUnwinding (.ite_neg hrunning (.look looks_atEnd (.ite_pos ?_
      (.pure _ rfl))))) hr
  · rw [Scope.kindAt_zero hk, hkk]
    decide
  · rw [Scope.kindAt_zero hl, hlk]
    rfl

/-- The end of the file is taken. -/
theorem straight_bumpEndOfFile {last : Token} (hl : scope.buffer.get s.position = last)
    (hk : last.kind = .endOfFileToken) :
    ∃ leaf, Straight r scope s bumpEndOfFile leaf (s.position + 1) := by
  have hend : (scope.buffer.get (s.position + 0)).isEndOfFile = true := by
    rw [Token.isEndOfFile, Nat.add_zero, hl, hk]
    rfl
  have hmove : Straight r scope s (modify fun s => { s with position := s.position + 1 }) ()
      (s.position + 1) := rfl
  exact ⟨_, .look (looks_token 0) (.look looks_position (.ite_pos hend
    (.bind hmove (.pure _ rfl))))⟩

theorem straight_compilationUnit {d : Definition} {j : Nat} {last : Token}
    (hl : scope.buffer.get j = last) (hlk : last.kind = .endOfFileToken)
    (hd : Straight r scope s unitItems { definitions := #[d] } j) :
    ∃ info endOfFile, Straight r scope s compilationUnit
      { info := info, imports := [], definitions := [d], endOfFile := endOfFile } (j + 1) := by
  obtain ⟨leaf, hend⟩ := straight_bumpEndOfFile (r := r) (s := s.goTo j) hl hlk
  exact ⟨_, leaf, .look looks_mark (.bind hd (.bind hend (.look (finish_eq _ _) (.pure _ rfl))))⟩

end BallerinaSyntax
