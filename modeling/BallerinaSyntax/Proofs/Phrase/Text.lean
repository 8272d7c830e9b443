import BallerinaSyntax.Proofs.Phrase.Climb

/-!
Text as it is written: text with names in between, as in string templates, and the text of
documentation, with code in between. Text goes on as far as it can, so it is read back if what follows
it is no text.
-/

namespace BallerinaSyntax

open Grammar Parse

/-! ## Text with names in between -/

/-- A name between a token that ends with the opening of an expression and the one that closes it. -/
structure HolePhrase where
  opening : Token
  name : Token
  closing : Token

namespace HolePhrase

def tokens (h : HolePhrase) : List Token := [h.opening, h.name, h.closing]

structure WellFormed (template : Kind) (h : HolePhrase) : Prop where
  opening : h.opening.kind = template
  name : h.name.kind = .identifier
  closing : h.closing.kind = .expressionEnd

def tree (h : HolePhrase) (i : Nat) : Tree .textSegment :=
  .interpolation (.over .templateInterpolation i h.tokens) (h.opening.leaf i)
    ((Phrase.name h.name).tree (i + 1)) (h.closing.leaf (i + 2))

end HolePhrase

/-- Holes, each with the text before it, and the text behind the last one. -/
structure TextPhrase where
  holes : List HolePhrase
  last : Option Token

namespace TextPhrase

def tokens (t : TextPhrase) : List Token := t.holes.flatMap HolePhrase.tokens ++ t.last.toList

structure WellFormed (template text : Kind) (t : TextPhrase) : Prop where
  holes : ∀ h ∈ t.holes, h.WellFormed template
  last : ∀ l ∈ t.last, l.kind = text

def segments (t : TextPhrase) (i : Nat) : List (Tree .textSegment) :=
  placeAll HolePhrase.tokens HolePhrase.tree t.holes i ++
    t.last.toList.map fun l => .plainText (l.leaf (i + (t.holes.flatMap HolePhrase.tokens).length))

def tree (t : TextPhrase) (info : NodeInfo) (i : Nat) : Tree .interpolatedText :=
  .interpolatedText info (.ofList (t.segments i))

end TextPhrase

/-- Text between a token that opens it and one that closes it. -/
structure QuotedPhrase where
  opening : Token
  text : TextPhrase
  closing : Token

namespace QuotedPhrase

def tokens (q : QuotedPhrase) : List Token := q.opening :: (q.text.tokens ++ [q.closing])

structure WellFormed (template text stop : Kind) (q : QuotedPhrase) : Prop where
  text : q.text.WellFormed template text
  closing : q.closing.kind = stop

/-- The text, whose node stands before the closing token if there is none. -/
def content (q : QuotedPhrase) (i : Nat) : Tree .interpolatedText :=
  q.text.tree (.before .interpolatedText (i + 1) q.text.tokens q.closing) (i + 1)

structure IsStringTemplate (q : QuotedPhrase) : Prop where
  opening : q.opening.kind = .stringTemplateLiteralStart
  wellFormed :
    q.WellFormed .stringTemplateExpressionStart .stringTemplateText .stringTemplateLiteralEnd

def stringTemplate (q : QuotedPhrase) (i : Nat) : Expression :=
  .stringTemplate (.over .stringTemplateLiteral i q.tokens) (q.content i)

end QuotedPhrase

section Text

variable {levels : Nat} {scope : Scope} {s : State} {template text : Kind}

/-- A name in front of the end of its hole is an expression. -/
theorem straight_holeName {name closing : Token} (hn : name.kind = .identifier)
    (hc : closing.kind = .expressionEnd) (hs : scope.buffer.Shows s.position [name, closing])
    (hu : s.unwinding = false) (hd : scope.depth + 1 < scope.options.maxNestingDepth)
    (hl : 4 ≤ levels) :
    Straight (recursion levels) scope s expression ((Phrase.name name).tree s.position)
      (s.position + 1) := by
  obtain ⟨hname, hclosing, -⟩ := hs
  have hend : (scope.buffer.get (s.position + 1)).kind = .expressionEnd := by
    rw [Buffer.Shows.get hclosing, hc]
  have hplaced : (Phrase.name name).Placed scope.buffer s.position := by
    refine ⟨hn, ⟨hname, trivial⟩, fun j hi hj => ?_, ?_, fun _ hop => by cases hop⟩
    · obtain rfl : j = s.position := Nat.le_antisymm (Nat.le_of_lt_succ hj) hi
      rw [Buffer.qualifiedAt, Token.qualifies, hend]
      simp
    · change (scope.buffer.get (s.position + 1)).kind ∉ _
      rw [hend]
      decide
  refine (Phrase.name name).climbs.call _ hplaced ⟨hl, hd⟩ hu (fun _ hop => by cases hop) ?_
  change Operator.Stops (Operator.expression? (scope.buffer.get (s.position + 1)).kind) _
  rw [hend]
  intro op hop
  cases hop

/-- A hole is read back. -/
theorem HolePhrase.WellFormed.straight {h : HolePhrase} (hw : h.WellFormed template)
    (ht : template ≠ .endOfFileToken) (hs : scope.buffer.Shows s.position h.tokens)
    (hu : s.unwinding = false) (hd : scope.depth + 1 < scope.options.maxNestingDepth)
    (hl : 4 ≤ levels) :
    Straight (recursion levels) scope s interpolation (h.tree s.position) (s.position + 3) := by
  obtain ⟨ho, hn, hc⟩ := hw
  obtain ⟨hopening, hbehind⟩ := id hs
  have hbump : Straight (recursion levels) scope s bump (h.opening.leaf s.position)
      (s.position + 1) := .bump (Buffer.Shows.get hopening) (by rwa [ho])
  have hname : Straight (recursion levels) scope (s.goTo (s.position + 1)) expression _
      (s.position + 2) := straight_holeName hn hc hbehind hu hd hl
  have hexpect : Straight (recursion levels) scope (s.goTo (s.position + 2))
      (expect .expressionEnd) _ (s.position + 3) :=
    .expect (Buffer.Shows.get hbehind.2.1) hc (by decide)
  have hnode : Straight (recursion levels) scope (s.goTo (s.position + 3))
      (finish s.mark .templateInterpolation) (.over .templateInterpolation s.position h.tokens)
      (s.position + 3) := .finish (s := s.goTo _) _ hs (List.cons_ne_nil _ _) rfl
  exact .look looks_mark (.bind hbump (.bind hname (.bind hexpect (.bind hnode (.pure _ rfl)))))

namespace TextPhrase

/-- The holes of a text, up to a token that is no template text. -/
theorem WellFormed.straight_holes {t : TextPhrase} (hw : t.WellFormed template text)
    (ht : template ≠ .endOfFileToken)
    (hs : scope.buffer.Shows s.position (t.holes.flatMap HolePhrase.tokens))
    (hnext : scope.kindAt (s.goTo (s.position + (t.holes.flatMap HolePhrase.tokens).length)) 0 ≠
      template)
    (hu : s.unwinding = false) (hd : scope.depth + 1 < scope.options.maxNestingDepth)
    (hl : t.tokens.length + 4 ≤ levels) :
    Straight (recursion levels) scope s
      (many do if ← goesOn template then return some (← interpolation) else return none)
      (placeAll HolePhrase.tokens HolePhrase.tree t.holes s.position)
      (s.position + (t.holes.flatMap HolePhrase.tokens).length) := by
  have hlength : (t.holes.flatMap HolePhrase.tokens).length ≤ t.tokens.length := by
    rw [tokens, List.length_append]
    exact Nat.le_add_right _ _
  have hrow : Row (fun i a j => scope.kindAt (s.goTo i) 0 = template ∧
        Straight (recursion levels) scope (s.goTo i) interpolation a j)
      s.position (placeAll HolePhrase.tokens HolePhrase.tree t.holes s.position)
      (s.position + (t.holes.flatMap HolePhrase.tokens).length) := by
    refine .parts (fun _ => True) (fun h _ => ⟨h.opening, _, rfl, trivial⟩) ?_ hs trivial
    intro h hh i hshows _
    have hwh := hw.holes h hh
    refine ⟨?_, hwh.straight (s := s.goTo i) ht hshows hu hd (by omega)⟩
    rw [Scope.kindAt_zero (s := s.goTo i) (Buffer.Shows.get hshows.1), hwh.opening]
  refine hrow.many (fun i a j hstep => ?_) ?_ ?_
  · obtain ⟨hat, hread⟩ := hstep
    refine .look (looks_goesOn _) (.ite_pos ?_ (.bind hread (.pure _ rfl)))
    rw [hat, State.goTo_unwinding, hu]
    exact Bool.and_eq_true_iff.mpr ⟨beq_self_eq_true _, rfl⟩
  · refine .look (looks_goesOn _) (.ite_neg ?_ (.pure _ rfl))
    rw [Bool.and_eq_true, beq_iff_eq]
    exact fun h => hnext h.1
  · have hcount : (placeAll HolePhrase.tokens HolePhrase.tree t.holes s.position).length ≤
        (t.holes.flatMap HolePhrase.tokens).length :=
      length_placeAll _ _ fun _ _ => List.cons_ne_nil _ _
    rw [steps_recursion]
    omega

/-- Text is read back in front of a token that is no part of it. There must be a last token of text
where one is required. -/
theorem WellFormed.straight {t : TextPhrase} {required : Bool} (hw : t.WellFormed template text)
    (ht : template ∉ [.endOfFileToken, text]) (htext : text ≠ .endOfFileToken)
    (hs : scope.buffer.Shows s.position t.tokens)
    (hend : t.last = none → required = false ∧
      (scope.buffer.get (s.position + t.tokens.length)).kind ∉ [template, text])
    (hu : s.unwinding = false) (hd : scope.depth + 1 < scope.options.maxNestingDepth)
    (hl : t.tokens.length + 4 ≤ levels) :
    Straight (recursion levels) scope s (interpolatedText template text required)
      (t.tree (.before .interpolatedText s.position t.tokens
        (scope.buffer.get (s.position + t.tokens.length))) s.position)
      (s.position + t.tokens.length) := by
  simp only [List.mem_cons, List.not_mem_nil, or_false, not_or] at ht
  obtain ⟨hsholes, hslast⟩ := Buffer.Shows.append.mp hs
  have hnode : Straight (recursion levels) scope (s.goTo (s.position + t.tokens.length))
      (finish s.mark .interpolatedText)
      (.before .interpolatedText s.position t.tokens
        (scope.buffer.get (s.position + t.tokens.length))) (s.position + t.tokens.length) :=
    .finish_before (s := s.goTo _) _ hs rfl
  cases hlast : t.last with
  | none =>
    obtain ⟨rfl, hnext⟩ := hend hlast
    simp only [List.mem_cons, List.not_mem_nil, or_false, not_or] at hnext
    have htokens : t.tokens = t.holes.flatMap HolePhrase.tokens := by
      rw [tokens, hlast]
      exact List.append_nil _
    have hholes := hw.straight_holes ht.1 hsholes (by rw [← htokens]; exact hnext.1) hu hd hl
    have hsegments : t.segments s.position =
        placeAll HolePhrase.tokens HolePhrase.tree t.holes s.position ++ [] := by
      rw [segments, hlast]
      rfl
    rw [← htokens] at hholes
    rw [tree, hsegments]
    refine .look looks_mark (.bind hholes (.look (looks_atKind _) (.ite_neg ?_ (.ite_neg nofun
      (.give (.bind hnode (.pure _ rfl)))))))
    rw [beq_iff_eq]
    exact hnext.2
  | some l =>
    have hk : l.kind = text := hw.last l hlast
    rw [hlast] at hslast
    have hget := Buffer.Shows.get hslast.1
    have hat : (scope.kindAt
        (s.goTo (s.position + (t.holes.flatMap HolePhrase.tokens).length)) 0 == text) = true := by
      rw [Scope.kindAt_zero (s := s.goTo _) hget, hk]
      exact beq_self_eq_true _
    have hholes := hw.straight_holes ht.1 hsholes
      (by rw [beq_iff_eq.mp hat]; exact Ne.symm ht.2) hu hd hl
    have hj : s.position + (t.holes.flatMap HolePhrase.tokens).length + 1 =
        s.position + t.tokens.length := by
      rw [tokens, hlast, List.length_append]
      rfl
    have hbump : Straight (recursion levels) scope
        (s.goTo (s.position + (t.holes.flatMap HolePhrase.tokens).length)) bump
        (l.leaf (s.position + (t.holes.flatMap HolePhrase.tokens).length))
        (s.position + t.tokens.length) := by
      rw [← hj]
      exact .bump (s := s.goTo _) hget (by rwa [hk])
    have hsegments : t.segments s.position =
        placeAll HolePhrase.tokens HolePhrase.tree t.holes s.position ++
          [.plainText (l.leaf (s.position + (t.holes.flatMap HolePhrase.tokens).length))] := by
      rw [segments, hlast]
      rfl
    rw [tree, hsegments]
    exact .look looks_mark (.bind hholes (.look (looks_atKind _) (.ite_pos hat
      (.bind hbump (.give (.bind hnode (.pure _ rfl)))))))

end TextPhrase

namespace QuotedPhrase

/-- What is quoted is read back. -/
theorem WellFormed.straight_content {q : QuotedPhrase} {stop : Kind}
    (hw : q.WellFormed template text stop) (ht : template ∉ [.endOfFileToken, text])
    (htext : text ≠ .endOfFileToken) (hstop : stop ∉ [template, text])
    (hs : scope.buffer.Shows s.position q.tokens) (hu : s.unwinding = false)
    (hd : scope.depth + 1 < scope.options.maxNestingDepth) (hl : q.tokens.length + 2 ≤ levels) :
    Straight (recursion levels) scope (s.goTo (s.position + 1))
      (interpolatedText template text false) (q.content s.position)
      (s.position + 1 + q.text.tokens.length) := by
  obtain ⟨-, hbehind⟩ := hs
  obtain ⟨htokens, hclosing, -⟩ := Buffer.Shows.append.mp hbehind
  have hget := Buffer.Shows.get hclosing
  have hlength : q.tokens.length = q.text.tokens.length + 2 := by simp [tokens]
  have hlevels : q.text.tokens.length + 4 ≤ levels := by omega
  have hread := hw.text.straight (s := s.goTo (s.position + 1)) ht htext htokens
    (fun _ => ⟨rfl, by rw [State.goTo_position, hget, hw.closing]; exact hstop⟩) hu hd hlevels
  rw [State.goTo_position, hget] at hread
  exact hread

/-- A string template is read back. -/
theorem IsStringTemplate.straight {q : QuotedPhrase} (h : q.IsStringTemplate)
    (hs : scope.buffer.Shows s.position q.tokens) (hu : s.unwinding = false)
    (hd : scope.depth + 1 < scope.options.maxNestingDepth) (hl : q.tokens.length + 2 ≤ levels) :
    Straight (recursion levels) scope s Grammar.stringTemplate (q.stringTemplate s.position)
      (s.position + q.tokens.length) := by
  obtain ⟨ho, hw⟩ := h
  obtain ⟨hopening, hbehind⟩ := id hs
  obtain ⟨-, hclosing, -⟩ := Buffer.Shows.append.mp hbehind
  have hbump : Straight (recursion levels) scope s bump (q.opening.leaf s.position)
      (s.position + 1) := .bump (Buffer.Shows.get hopening) (by rw [ho]; decide)
  have hcontent := hw.straight_content (by decide) (by decide) (by decide) hs hu hd hl
  have hclose : Straight (recursion levels) scope
      (s.goTo (s.position + 1 + q.text.tokens.length))
      (expectClosing (q.opening.leaf s.position) .stringTemplateLiteralEnd "string template") _
      (s.position + 1 + q.text.tokens.length + 1) :=
    .expectClosing (Buffer.Shows.get hclosing) hw.closing (by decide)
  have hj : s.position + 1 + q.text.tokens.length + 1 = s.position + q.tokens.length := by
    simp [tokens]
    omega
  rw [hj] at hclose
  have hnode : Straight (recursion levels) scope (s.goTo (s.position + q.tokens.length))
      (finishDelimited s.mark .stringTemplateLiteral
        (q.closing.leaf (s.position + 1 + q.text.tokens.length)))
      (.over .stringTemplateLiteral s.position q.tokens) (s.position + q.tokens.length) :=
    .finishDelimited (s := s.goTo _) _ hs (List.cons_ne_nil _ _) rfl rfl
  exact .look looks_mark (.bind hbump (.bind hcontent (.bind hclose
    (.bind hnode (.pure _ rfl)))))

end QuotedPhrase

end Text

end BallerinaSyntax
