import BallerinaSyntax.Proofs.Phrase.Climb

/-!
References to variables as they are written, of a name or a call and the suffixes behind it. The
powers of suffixes differ, but a climb starts with the lowest one and there is no operand behind a
suffix, so each one applies to all that stands before it.
-/

namespace BallerinaSyntax

open Grammar Parse

/-! ## References as they are written -/

/-- A token that is a whole expression, a name or a whole number. -/
def Token.IsAtom (t : Token) : Prop := t.kind = .identifier ∨ t.kind.isIntegerLiteral = true

def Token.atom (t : Token) : Phrase := if t.kind = .identifier then .name t else .integer none t

/-- Arguments in parentheses, more of them behind commas. -/
inductive ArgumentsPhrase where
  | none (opening closing : Token)
  | some (opening first : Token) (more : List (Token × Token)) (closing : Token)

namespace ArgumentsPhrase

/-- The tokens of commas and arguments in order. -/
def tokensBehind : List (Token × Token) → List Token
  | [] => []
  | (comma, argument) :: more => comma :: argument :: tokensBehind more

def tokens : ArgumentsPhrase → List Token
  | none opening closing => [opening, closing]
  | some opening first more closing => opening :: first :: (tokensBehind more ++ [closing])

def WellFormed : ArgumentsPhrase → Prop
  | none opening closing => opening.kind = .openParenToken ∧ closing.kind = .closeParenToken
  | some opening first more closing =>
    opening.kind = .openParenToken ∧ first.IsAtom ∧
      (∀ p ∈ more, p.1.kind = .commaToken ∧ p.2.IsAtom) ∧ closing.kind = .closeParenToken

/-- The arguments behind commas, the first of which has this index. -/
def treesBehind : List (Token × Token) → Nat → List (Tree .argument)
  | [], _ => []
  | (_, argument) :: more, i => .positional (argument.atom.tree (i + 1)) :: treesBehind more (i + 2)

def trees : ArgumentsPhrase → Nat → List (Tree .argument)
  | none .., _ => []
  | some _ first more _, i => .positional (first.atom.tree (i + 1)) :: treesBehind more (i + 2)

end ArgumentsPhrase

inductive SuffixPhrase where
  | index (opening value closing : Token)
  | field (accessor name : Token)
  /-- All fields. -/
  | allFields (dot star : Token)
  /-- All attributes. -/
  | allAttributes (sign : Token)
  | oneAttribute (sign opening value closing : Token)
  | method (dot name : Token) (arguments : ArgumentsPhrase)

namespace SuffixPhrase

def tokens : SuffixPhrase → List Token
  | index opening value closing => [opening, value, closing]
  | field accessor name => [accessor, name]
  | allFields dot star => [dot, star]
  | allAttributes sign => [sign]
  | oneAttribute sign opening value closing => [sign, opening, value, closing]
  | method dot name arguments => dot :: name :: arguments.tokens

def WellFormed : SuffixPhrase → Prop
  | index opening value closing =>
    opening.kind = .openBracketToken ∧ value.IsAtom ∧ closing.kind = .closeBracketToken
  | field accessor name =>
    (accessor.kind = .dotToken ∨ accessor.kind = .exclamationToken) ∧ name.kind = .identifier
  | allFields dot star => dot.kind = .dotToken ∧ star.kind = .asteriskToken
  | allAttributes sign => sign.kind = .atToken
  | oneAttribute sign opening value closing =>
    sign.kind = .atToken ∧ opening.kind = .openBracketToken ∧ value.IsAtom ∧
      closing.kind = .closeBracketToken
  | method dot name arguments =>
    dot.kind = .dotToken ∧ name.kind = .identifier ∧ arguments.WellFormed

/-- The operator that a suffix is read as. -/
def operator : SuffixPhrase → Operator
  | index .. => ⟨ReferencePower.index.toNat, .left, .postfixOp, .indexReference⟩
  | field .. | allFields .. => ⟨ReferencePower.field.toNat, .left, .postfixOp, .fieldReference⟩
  | allAttributes _ | oneAttribute .. =>
    ⟨ReferencePower.xmlAttribute.toNat, .left, .postfixOp, .xmlAttributeReference⟩
  | method .. => ⟨ReferencePower.invocation.toNat, .left, .postfixOp, .methodInvocation⟩

/-- The suffix, whose first token has this index, applied to a reference. -/
def apply (info : NodeInfo) (target : Reference) (i : Nat) : SuffixPhrase → Reference
  | index _ value _ => .indexReference info target (value.atom.tree (i + 1))
  | field accessor name =>
    .fieldReference info target (accessor.leaf i)
      (.name (name.named (i + 1)))
  | allFields dot star => .fieldReference info target (dot.leaf i) (.all (star.leaf (i + 1)))
  | allAttributes _ => .xmlAttributeReference info target .absent
  | oneAttribute _ _ value _ =>
    .xmlAttributeReference info target (.present (value.atom.tree (i + 2)))
  | method _ name arguments =>
    .methodCall info target (name.named (i + 1))
      (.ofList (arguments.trees (i + 2)))

/-- Tokens that are read as a part of a suffix if they stand behind it. -/
def continuations : SuffixPhrase → List Kind
  | field .. => [.openParenToken]
  | allAttributes _ => [.openBracketToken]
  | _ => []

end SuffixPhrase

inductive ReferencePhrase where
  | name (name : NamePhrase)
  | call (name : NamePhrase) (arguments : ArgumentsPhrase)
  | suffixed (target : ReferencePhrase) (suffix : SuffixPhrase)

namespace ReferencePhrase

def tokens : ReferencePhrase → List Token
  | name n => n.tokens
  | call n arguments => n.tokens ++ arguments.tokens
  | suffixed target suffix => target.tokens ++ suffix.tokens

/-- Whether there is an index right behind all attributes, which is read as an index of those. -/
def Clashes : ReferencePhrase → SuffixPhrase → Prop
  | suffixed _ (.allAttributes _), .index .. => True
  | _, _ => False

/-- All tokens are of the kinds that belong there, and no two suffixes clash. -/
def WellFormed : ReferencePhrase → Prop
  | name n => n.WellFormed
  | call n arguments => n.WellFormed ∧ arguments.WellFormed
  | suffixed target suffix => target.WellFormed ∧ suffix.WellFormed ∧ ¬target.Clashes suffix

/-- The reference when its first token has this index: every suffix applies to what all before it
make. -/
def tree : ReferencePhrase → Nat → Reference
  | name n, i => .simpleReference (.over .simpleVariableReference i n.tokens) (n.tree i)
  | call n arguments, i =>
    .functionCall (.invocation (.over .functionInvocation i (n.tokens ++ arguments.tokens))
      (n.tree i) (.ofList (arguments.trees (i + n.tokens.length))))
  | suffixed target suffix, i =>
    suffix.apply (.over suffix.operator.node i (target.tokens ++ suffix.tokens)) (target.tree i)
      (i + target.tokens.length)

/-- Tokens that are read as a part of a reference if they stand behind it. -/
def continuations : ReferencePhrase → List Kind
  | name _ => [.colonToken, .openParenToken]
  | call .. => []
  | suffixed _ suffix => suffix.continuations

end ReferencePhrase

/-! ## Reading parts back -/

section Parts

variable {levels : Nat} {scope : Scope} {s : State} {r : Recursion}

theorem Token.IsAtom.wellFormed {t : Token} (h : t.IsAtom) : t.atom.WellFormed := by
  rw [Token.atom]
  split
  · assumption
  · exact ⟨h.resolve_left ‹_›, fun _ h => nomatch h⟩

theorem Token.tokens_atom (t : Token) : t.atom.tokens = [t] := by
  rw [Token.atom]
  split <;> rfl

theorem Token.size_atom (t : Token) : t.atom.size = 1 := by
  rw [Token.atom]
  split <;> rfl

theorem Token.IsAtom.ne {t : Token} (h : t.IsAtom) :
    t.kind ∉ [Kind.closeParenToken, .endOfFileToken, .dotDotDotToken, .dotDotToken] := by
  have hkinds : ∀ k : Kind, k = .identifier ∨ k.isIntegerLiteral = true →
      k ∉ [Kind.closeParenToken, .endOfFileToken, .dotDotDotToken, .dotDotToken] := by
    intro k hk
    rcases hk with rfl | hk
    · decide
    · revert hk
      cases k <;> decide
  exact hkinds _ h

/-- An atom in front of a token that ends expressions is an expression. -/
theorem straight_atom {t stop : Token} (h : t.IsAtom)
    (hs : scope.buffer.Shows s.position [t, stop]) (hstop : stop.kind ∈ phraseEnds)
    (hu : s.unwinding = false) (hd : scope.depth + 1 < scope.options.maxNestingDepth)
    (hl : 4 ≤ levels) :
    Straight (recursion levels) scope s expression (t.atom.tree s.position) (s.position + 1) := by
  have htokens := t.tokens_atom
  have hdepth : scope.depth + t.atom.size < scope.options.maxNestingDepth := by
    rw [t.size_atom]
    exact hd
  have hlevels : t.atom.size + 3 ≤ levels := by
    rw [t.size_atom]
    exact hl
  have hread := expression_readsBack t.atom stop h.wellFormed (by rw [htokens]; rfl)
    (by rw [htokens]; exact hs) hstop hu hdepth hlevels
  rw [htokens] at hread
  exact hread

/-- An atom in front of a token that ends expressions is an argument without a name. -/
theorem straight_argument {t stop : Token} (h : t.IsAtom)
    (hs : scope.buffer.Shows s.position [t, stop]) (hstop : stop.kind ∈ phraseEnds)
    (hu : s.unwinding = false) (hd : scope.depth + 1 < scope.options.maxNestingDepth)
    (hl : 4 ≤ levels) :
    Straight (recursion levels) scope s argument (.positional (t.atom.tree s.position))
      (s.position + 1) := by
  have hkind := Scope.kindAt_zero (Buffer.Shows.get hs.1)
  have hnext : scope.kindAt s 1 = stop.kind := congrArg Token.kind (Buffer.Shows.get hs.2.1)
  have hdots : scope.kindAt s 0 ≠ .dotDotDotToken := by
    rw [hkind]
    intro hk
    exact h.ne (by rw [hk]; decide)
  have hnamed : ¬(scope.kindAt s 0 == .identifier && scope.kindAt s 1 == .equalsToken) = true := by
    rw [Bool.and_eq_true, beq_iff_eq, beq_iff_eq, hnext]
    rintro ⟨-, hk⟩
    rw [hk] at hstop
    exact absurd hstop (by decide)
  exact .look looks_mark (.bind (.accept_no hdots) (.ite_neg nofun
    (.look (looks_atKind _) (.look (looks_isKind _ _) (.ite_neg hnamed
      (.bind (straight_atom h hs hstop hu hd hl) (.pure _ rfl)))))))

namespace ArgumentsPhrase

theorem length_treesBehind : ∀ (more : List (Token × Token)) (i : Nat),
    (treesBehind more i).length ≤ (tokensBehind more).length
  | [], _ => Nat.le_refl _
  | _ :: more, i => by
    have h := length_treesBehind more (i + 2)
    rw [treesBehind, tokensBehind, List.length_cons, List.length_cons, List.length_cons]
    omega

/-- Commas and arguments up to the parenthesis that closes. -/
theorem row {closing : Token} (hc : closing.kind = .closeParenToken) (hu : s.unwinding = false)
    (hd : scope.depth + 1 < scope.options.maxNestingDepth) (hl : 4 ≤ levels) :
    ∀ {more : List (Token × Token)} {i : Nat},
      (∀ p ∈ more, p.1.kind = .commaToken ∧ p.2.IsAtom) →
      scope.buffer.Shows i (tokensBehind more ++ [closing]) →
      Row (fun i a j => scope.kindAt (s.goTo i) 0 = .commaToken ∧
          Straight (recursion levels) scope (s.goTo (i + 1)) argument a j)
        i (treesBehind more i) (i + (tokensBehind more).length)
  | [], i, _, _ => .nil i
  | (comma, t) :: more, i, hw, hs => by
    obtain ⟨hcomma, hatom⟩ := hw _ List.mem_cons_self
    obtain ⟨hfirst, hsecond, hbehind⟩ := hs
    have hmore : ∀ p ∈ more, p.1.kind = .commaToken ∧ p.2.IsAtom :=
      fun p hp => hw p (List.mem_cons_of_mem _ hp)
    have htail := row hc hu hd hl hmore hbehind
    have hj : i + 2 + (tokensBehind more).length =
        i + (tokensBehind ((comma, t) :: more)).length := by
      rw [tokensBehind, List.length_cons, List.length_cons]
      omega
    obtain ⟨stop, hstop, hends⟩ : ∃ stop, scope.buffer.Shows (i + 2) [stop] ∧
        stop.kind ∈ phraseEnds := by
      cases more with
      | nil => exact ⟨closing, hbehind, by rw [hc]; decide⟩
      | cons p more =>
        obtain ⟨hkind, -⟩ := hmore p List.mem_cons_self
        exact ⟨p.1, ⟨hbehind.1, trivial⟩, by rw [hkind]; decide⟩
    have hread := straight_argument (s := s.goTo (i + 1)) hatom ⟨hsecond, hstop⟩ hends hu hd hl
    rw [hj] at htail
    exact .cons ⟨(congrArg Token.kind (Buffer.Shows.get hfirst)).trans hcomma, hread⟩ htail

theorem WellFormed.exists_first {a : ArgumentsPhrase} (h : a.WellFormed) :
    ∃ t ts, a.tokens = t :: ts ∧ t.kind = .openParenToken := by
  cases a with
  | none opening closing => exact ⟨opening, _, rfl, h.1⟩
  | some opening first more closing => exact ⟨opening, _, rfl, h.1⟩

/-- Arguments and their parentheses are read back. -/
theorem WellFormed.straight {a : ArgumentsPhrase} (h : a.WellFormed)
    (hs : scope.buffer.Shows s.position a.tokens) (hu : s.unwinding = false)
    (hd : scope.depth + 1 < scope.options.maxNestingDepth) (hl : a.tokens.length + 4 ≤ levels) :
    Straight (recursion levels) scope s argumentList (.ofList (a.trees s.position))
      (s.position + a.tokens.length) := by
  cases a with
  | none opening closing =>
    obtain ⟨ho, hc⟩ := h
    obtain ⟨hopening, hclosing, -⟩ := hs
    have hclose := Buffer.Shows.get hclosing
    have hexpect : Straight (recursion levels) scope s (expect .openParenToken)
        (opening.leaf s.position) (s.position + 1) :=
      .expect (Buffer.Shows.get hopening) ho (by decide)
    have hend : ((s.goTo (s.position + 1)).unwinding ||
        scope.kindAt (s.goTo (s.position + 1)) 0 == .closeParenToken ||
        scope.kindAt (s.goTo (s.position + 1)) 0 == .endOfFileToken) = true := by
      rw [Scope.kindAt_zero hclose, hc, Bool.or_eq_true, Bool.or_eq_true]
      exact .inl (.inr rfl)
    have hclosed : Straight (recursion levels) scope (s.goTo (s.position + 1))
        (expectClosing (opening.leaf s.position) .closeParenToken "argument list") _
        (s.position + 2) := .expectClosing hclose hc (by decide)
    exact .bind hexpect (.bind (.ite_neg nofun (.look (looks_atListEnd _)
      (.ite_pos hend (.pure _ rfl)))) (.bind hclosed (.pure _ rfl)))
  | some opening first more closing =>
    obtain ⟨ho, hatom, hmore, hc⟩ := h
    obtain ⟨hopening, hfirst, hbehind⟩ := hs
    have hlength : (some opening first more closing).tokens.length =
        (tokensBehind more).length + 3 := by simp [tokens]
    have hl' : 4 ≤ levels := by omega
    obtain ⟨stop, hstop, hends⟩ : ∃ stop, scope.buffer.Shows (s.position + 2) [stop] ∧
        stop.kind ∈ phraseEnds := by
      cases more with
      | nil => exact ⟨closing, hbehind, by rw [hc]; decide⟩
      | cons p more =>
        obtain ⟨hkind, -⟩ := hmore p List.mem_cons_self
        exact ⟨p.1, ⟨hbehind.1, trivial⟩, by rw [hkind]; decide⟩
    have hread := straight_argument (s := s.goTo (s.position + 1)) hatom ⟨hfirst, hstop⟩ hends hu
      hd hl'
    have hrow := row (i := s.position + 2) hc hu hd hl' hmore hbehind
    obtain ⟨-, hclosing, -⟩ := Buffer.Shows.append.mp hbehind
    have hclose := Buffer.Shows.get hclosing
    have hnext : scope.kindAt (s.goTo (s.position + 2 + (tokensBehind more).length)) 0 ≠
        .commaToken := by
      rw [Scope.kindAt_zero hclose, hc]
      decide
    have hrest : Straight (recursion levels) scope (s.goTo (s.position + 2)) (moreBehind .commaToken argument)
        (treesBehind more (s.position + 2)) (s.position + 2 + (tokensBehind more).length) := by
      refine hrow.moreBehind (fun _ _ _ hstep => hstep) hu (by decide) hnext ?_
      have hcount := length_treesBehind more (s.position + 2)
      rw [steps_recursion]
      omega
    have hexpect : Straight (recursion levels) scope s (expect .openParenToken) (opening.leaf s.position)
        (s.position + 1) := .expect (Buffer.Shows.get hopening) ho (by decide)
    have hend : ¬((s.goTo (s.position + 1)).unwinding ||
        scope.kindAt (s.goTo (s.position + 1)) 0 == .closeParenToken ||
        scope.kindAt (s.goTo (s.position + 1)) 0 == .endOfFileToken) = true := by
      rw [Scope.kindAt_zero (Buffer.Shows.get hfirst), Bool.or_eq_true, Bool.or_eq_true,
        beq_iff_eq, beq_iff_eq, State.goTo_unwinding, hu]
      rintro ((hk | hk) | hk)
      · cases hk
      · exact hatom.ne (by rw [hk]; decide)
      · exact hatom.ne (by rw [hk]; decide)
    have hclosed : Straight (recursion levels) scope
        (s.goTo (s.position + 2 + (tokensBehind more).length))
        (expectClosing (opening.leaf s.position) .closeParenToken "argument list") _
        (s.position + 2 + (tokensBehind more).length + 1) := .expectClosing hclose hc (by decide)
    have hj : s.position + 2 + (tokensBehind more).length + 1 =
        s.position + (some opening first more closing).tokens.length := by omega
    rw [hj] at hclosed
    exact .bind hexpect (.bind (.ite_neg nofun (.look (looks_atListEnd _)
      (.ite_neg hend (.bind hread (.bind hrest (.pure _ rfl)))))) (.bind hclosed (.pure _ rfl)))

end ArgumentsPhrase

/-- An atom in brackets. -/
theorem straight_index {opening value closing : Token} (construct : String)
    (ho : opening.kind = .openBracketToken) (hv : value.IsAtom)
    (hc : closing.kind = .closeBracketToken)
    (hs : scope.buffer.Shows s.position [opening, value, closing]) (hu : s.unwinding = false)
    (hd : scope.depth + 1 < scope.options.maxNestingDepth) (hl : 4 ≤ levels) :
    Straight (recursion levels) scope s (index construct) (value.atom.tree (s.position + 1))
      (s.position + 3) := by
  obtain ⟨hopening, hbehind⟩ := hs
  have hbump : Straight (recursion levels) scope s bump (opening.leaf s.position)
      (s.position + 1) := .bump (Buffer.Shows.get hopening) (by rw [ho]; decide)
  have hread := straight_atom (s := s.goTo (s.position + 1)) hv hbehind (by rw [hc]; decide) hu hd
    hl
  have hclose : Straight (recursion levels) scope (s.goTo (s.position + 2))
      (expectClosing (opening.leaf s.position) .closeBracketToken construct) _ (s.position + 3) :=
    .expectClosing (Buffer.Shows.get hbehind.2.1) hc (by decide)
  exact .bind hbump (.bind hread (.bind hclose (.pure _ rfl)))

namespace SuffixPhrase

theorem tokens_ne_nil (f : SuffixPhrase) : f.tokens ≠ [] := by
  cases f <;> exact List.cons_ne_nil _ _

/-- What a suffix begins with does not go on with any name. -/
theorem WellFormed.exists_first {f : SuffixPhrase} (h : f.WellFormed) :
    ∃ t ts, f.tokens = t :: ts ∧
      t.kind ∈ [Kind.openBracketToken, .dotToken, .exclamationToken, .atToken] ∧
      (t.kind = .openBracketToken → ∃ opening value closing, f = index opening value closing) := by
  cases f with
  | index opening value closing =>
    exact ⟨opening, _, rfl, by rw [h.1]; decide, fun _ => ⟨_, _, _, rfl⟩⟩
  | field accessor name =>
    obtain ⟨ha, -⟩ := h
    refine ⟨accessor, _, rfl, ?_, ?_⟩
    · rcases ha with ha | ha
      · rw [ha]; decide
      · rw [ha]; decide
    · intro hk
      rw [hk] at ha
      exact absurd ha (by decide)
  | allFields dot star => exact ⟨dot, _, rfl, by rw [h.1]; decide, by rw [h.1]; exact nofun⟩
  | allAttributes sign =>
    have hk : sign.kind = .atToken := h
    exact ⟨sign, _, rfl, by rw [hk]; decide, by rw [hk]; exact nofun⟩
  | oneAttribute sign opening value closing =>
    exact ⟨sign, _, rfl, by rw [h.1]; decide, by rw [h.1]; exact nofun⟩
  | method dot name arguments =>
    exact ⟨dot, _, rfl, by rw [h.1]; decide, by rw [h.1]; exact nofun⟩

theorem isName_asterisk (anyNames : Bool) : Operator.isName anyNames .asteriskToken = false := by
  cases anyNames <;> rfl

/-- The two tokens behind the first one tell which operator a suffix is. -/
theorem WellFormed.found {f : SuffixPhrase} (h : f.WellFormed)
    (hs : scope.buffer.Shows s.position f.tokens)
    (he : (scope.buffer.get (s.position + f.tokens.length)).kind ∉ f.continuations) :
    Operator.reference? (scope.kindAt s 0) (scope.kindAt s 1) (scope.kindAt s 2)
      scope.options.allowAnyIdentifierNames = some f.operator := by
  have kindAt : ∀ {n : Nat} {t : Token}, scope.buffer.tokens[s.position + n]? = some t →
      scope.kindAt s n = t.kind := fun ht => congrArg Token.kind (Buffer.Shows.get ht)
  cases f with
  | index opening value closing =>
    obtain ⟨ho, hv, hc⟩ := h
    obtain ⟨hopening, hvalue, hclosing, -⟩ := hs
    have hcount : ¬(value.kind.isIntegerLiteral && Kind.closeBracketToken == .dotDotToken) =
        true := by
      rw [Bool.and_eq_true]
      rintro ⟨-, hk⟩
      cases hk
    rw [kindAt (n := 0) hopening, kindAt hvalue, kindAt hclosing, ho, hc]
    exact if_neg hcount
  | field accessor name =>
    obtain ⟨ha, hn⟩ := h
    obtain ⟨haccessor, hname, -⟩ := hs
    have hcall : ¬(Operator.isName scope.options.allowAnyIdentifierNames .identifier &&
        scope.kindAt s 2 == .openParenToken) = true := by
      rw [Bool.and_eq_true, beq_iff_eq]
      rintro ⟨-, hk⟩
      exact he (List.mem_singleton.mpr hk)
    rw [kindAt (n := 0) haccessor, kindAt hname, hn]
    rcases ha with ha | ha
    · rw [ha]
      exact if_neg hcall
    · rw [ha]
      rfl
  | allFields dot star =>
    obtain ⟨hd, hstar⟩ := h
    obtain ⟨hdot, hall, -⟩ := hs
    have hcall : ¬(Operator.isName scope.options.allowAnyIdentifierNames .asteriskToken &&
        scope.kindAt s 2 == .openParenToken) = true := by
      rw [isName_asterisk]
      exact nofun
    rw [kindAt (n := 0) hdot, kindAt hall, hd, hstar]
    exact if_neg hcall
  | allAttributes sign =>
    rw [kindAt (n := 0) hs.1, show sign.kind = .atToken from h]
    rfl
  | oneAttribute sign opening value closing =>
    rw [kindAt (n := 0) hs.1, h.1]
    rfl
  | method dot name arguments =>
    obtain ⟨hd, hn, harguments⟩ := h
    obtain ⟨hdot, hname, hbehind⟩ := hs
    obtain ⟨opening, rest, hts, ho⟩ := harguments.exists_first
    rw [hts] at hbehind
    rw [kindAt (n := 0) hdot, kindAt hname, kindAt hbehind.1, hd, hn, ho]
    rfl

/-- A suffix is read back as what it makes of the reference before it. -/
theorem WellFormed.straight {f : SuffixPhrase} {i : Nat} {before : List Token} (h : f.WellFormed)
    (target : Reference) (hs : scope.buffer.Shows i (before ++ f.tokens))
    (hi : s.position = i + before.length)
    (he : (scope.buffer.get (s.position + f.tokens.length)).kind ∉ f.continuations)
    (hu : s.unwinding = false) (hd : scope.depth + 1 < scope.options.maxNestingDepth)
    (hl : f.tokens.length + 4 ≤ levels) :
    Straight (recursion levels) scope s (applyReference ⟨i, s.errorCount⟩ target f.operator)
      (f.apply (.over f.operator.node i (before ++ f.tokens)) target s.position)
      (s.position + f.tokens.length) := by
  have hnode : Straight (recursion levels) scope (s.goTo (s.position + f.tokens.length))
      (finish ⟨i, s.errorCount⟩ f.operator.node)
      (.over f.operator.node i (before ++ f.tokens)) (s.position + f.tokens.length) := by
    refine .finish (s := s.goTo _) _ hs ?_ ?_
    · exact List.append_ne_nil_of_right_ne_nil _ f.tokens_ne_nil
    · rw [State.goTo_position, hi, List.length_append, Nat.add_assoc]
  obtain ⟨-, hshows⟩ := Buffer.Shows.append.mp hs
  rw [← hi] at hshows
  have hl' : 4 ≤ levels := Nat.le_of_add_left_le hl
  cases f with
  | index opening value closing =>
    obtain ⟨ho, hv, hc⟩ := h
    exact .bind (straight_index _ ho hv hc hshows hu hd hl') (.bind hnode (.pure _ rfl))
  | field accessor name =>
    obtain ⟨ha, hn⟩ := h
    obtain ⟨haccessor, hname, -⟩ := hshows
    have hget := Buffer.Shows.get hname
    have hbump : Straight (recursion levels) scope s bump (accessor.leaf s.position)
        (s.position + 1) := by
      refine .bump (Buffer.Shows.get haccessor) ?_
      rcases ha with ha | ha
      · rw [ha]; decide
      · rw [ha]; decide
    have hstar : ¬(scope.kindAt (s.goTo (s.position + 1)) 0 == .asteriskToken) = true := by
      rw [Scope.kindAt_zero hget, hn]
      exact nofun
    have hread : Straight (recursion levels) scope (s.goTo (s.position + 1)) identifier _
        (s.position + 2) := straight_identifier hget hn
    exact .bind hbump (.look (looks_atKind _) (.ite_neg hstar
      (.bind hread (.give (.bind hnode (.pure _ rfl))))))
  | allFields dot star =>
    obtain ⟨hdot, hstar⟩ := h
    obtain ⟨haccessor, hall, -⟩ := hshows
    have hget := Buffer.Shows.get hall
    have hbump : Straight (recursion levels) scope s bump (dot.leaf s.position)
        (s.position + 1) := .bump (Buffer.Shows.get haccessor) (by rw [hdot]; decide)
    have hat : (scope.kindAt (s.goTo (s.position + 1)) 0 == .asteriskToken) = true := by
      rw [Scope.kindAt_zero hget, hstar]
      rfl
    have hread : Straight (recursion levels) scope (s.goTo (s.position + 1)) bump _
        (s.position + 2) := .bump hget (by rw [hstar]; decide)
    exact .bind hbump (.look (looks_atKind _) (.ite_pos hat
      (.bind hread (.give (.bind hnode (.pure _ rfl))))))
  | allAttributes sign =>
    have hk : sign.kind = .atToken := h
    have hbump : Straight (recursion levels) scope s bump (sign.leaf s.position)
        (s.position + 1) := .bump (Buffer.Shows.get hshows.1) (by rw [hk]; decide)
    have hnext : ¬(scope.kindAt (s.goTo (s.position + 1)) 0 == .openBracketToken) = true := by
      rw [beq_iff_eq]
      exact fun hk => he (List.mem_singleton.mpr hk)
    exact .bind hbump (.bind (.look (looks_atKind _) (.ite_neg hnext (.pure _ rfl)))
      (.bind hnode (.pure _ rfl)))
  | oneAttribute sign opening value closing =>
    obtain ⟨hk, ho, hv, hc⟩ := h
    obtain ⟨hsign, hbehind⟩ := hshows
    have hbump : Straight (recursion levels) scope s bump (sign.leaf s.position)
        (s.position + 1) := .bump (Buffer.Shows.get hsign) (by rw [hk]; decide)
    have hnext : (scope.kindAt (s.goTo (s.position + 1)) 0 == .openBracketToken) = true := by
      rw [Scope.kindAt_zero (Buffer.Shows.get hbehind.1), ho]
      rfl
    have hindex : Straight (recursion levels) scope (s.goTo (s.position + 1))
        (Grammar.index "attribute index") (value.atom.tree (s.position + 2)) (s.position + 4) :=
      straight_index (s := s.goTo (s.position + 1)) _ ho hv hc hbehind hu hd hl'
    exact .bind hbump (.bind (.look (looks_atKind _) (.ite_pos hnext
      (.bind hindex (.pure _ rfl)))) (.bind hnode (.pure _ rfl)))
  | method dot name arguments =>
    obtain ⟨hk, hn, harguments⟩ := h
    obtain ⟨hdot, hname, hbehind⟩ := hshows
    have hget := Buffer.Shows.get hname
    have hlength : (method dot name arguments).tokens.length = arguments.tokens.length + 2 := rfl
    have hbump : Straight (recursion levels) scope s bump (dot.leaf s.position)
        (s.position + 1) := .bump (Buffer.Shows.get hdot) (by rw [hk]; decide)
    have hcallable : Straight (recursion levels) scope (s.goTo (s.position + 1)) callableName
        (name.named (s.position + 1)) (s.position + 2) := by
      refine .look (looks_kind 0) (.look (looks_isName _) (.ite_pos ?_
        (straight_bumpName (s := s.goTo (s.position + 1)) hget hn)))
      rw [Scope.kindAt_zero hget, hn]
      rfl
    have hread : Straight (recursion levels) scope (s.goTo (s.position + 2)) argumentList
        (.ofList (arguments.trees (s.position + 2)))
        (s.position + (method dot name arguments).tokens.length) := by
      have hlevels : arguments.tokens.length + 4 ≤ levels := by omega
      have hread := harguments.straight (s := s.goTo (s.position + 2)) hbehind hu hd hlevels
      rw [State.goTo_position, Nat.add_assoc, Nat.add_comm 2, ← hlength] at hread
      exact hread
    exact .bind hbump (.bind hcallable (.bind hread (.bind hnode (.pure _ rfl))))

end SuffixPhrase

/-! ## Reading references back -/

namespace ReferencePhrase

/-- A well-formed reference stands at an index, and what follows it is not read as a part of it. -/
structure Placed (b : Buffer) (i : Nat) (e : ReferencePhrase) : Prop where
  wellFormed : e.WellFormed
  shows : b.Shows i e.tokens
  ended : (b.get (i + e.tokens.length)).kind ∉ e.continuations

/-- There are levels enough for so many tokens, and for names and numbers inside. -/
structure Room (levels : Nat) (scope : Scope) (length : Nat) : Prop where
  levels : length + 4 ≤ levels
  depth : scope.depth + 1 < scope.options.maxNestingDepth

theorem Room.mono {l length : Nat} (h : Room levels scope length) (hl : l ≤ length) :
    Room levels scope l := by
  obtain ⟨hlevels, hdepth⟩ := h
  exact ⟨by omega, hdepth⟩

/-- A reference goes on neither with `suffix` nor with anything else that is no part of a suffix. -/
theorem not_mem_continuations {e : ReferencePhrase} {f : SuffixPhrase} (hc : ¬e.Clashes f)
    {k : Kind} (hk : k ∈ [Kind.openBracketToken, .dotToken, .exclamationToken, .atToken])
    (hf : k = .openBracketToken → ∃ opening value closing, f = .index opening value closing) :
    k ∉ e.continuations := by
  have plain : ∀ k ∈ [Kind.openBracketToken, .dotToken, .exclamationToken, .atToken],
      k ∉ [Kind.colonToken, .openParenToken] ∧ k ∉ [Kind.openParenToken] := by decide
  obtain ⟨hname, hfield⟩ := plain k hk
  cases e with
  | name n => exact hname
  | call n arguments => exact List.not_mem_nil
  | suffixed target suffix =>
    cases suffix with
    | field accessor name => exact hfield
    | allAttributes sign =>
      intro hat
      obtain ⟨opening, value, closing, rfl⟩ := hf (List.mem_singleton.mp hat)
      exact hc trivial
    | _ => exact List.not_mem_nil

theorem mem_of_mem_continuations {e : ReferencePhrase} {k : Kind} (h : k ∈ e.continuations) :
    k ∈ [Kind.colonToken, .openParenToken, .openBracketToken] := by
  cases e with
  | name n => exact List.mem_append_left [.openBracketToken] h
  | call n arguments => cases h
  | suffixed target f =>
    cases f with
    | field accessor name => exact List.mem_cons_of_mem _ (List.mem_append_left [_] h)
    | allAttributes sign => exact List.mem_cons_of_mem _ (List.mem_cons_of_mem _ h)
    | _ => cases h

theorem tokens_ne_nil : ∀ e : ReferencePhrase, e.tokens ≠ []
  | name n => n.tokens_ne_nil
  | call n _ => List.append_ne_nil_of_left_ne_nil n.tokens_ne_nil _
  | suffixed _ suffix => List.append_ne_nil_of_right_ne_nil _ suffix.tokens_ne_nil

/-- What stands first in a name or a call is a name. -/
theorem straight_name {n : NamePhrase} (h : n.WellFormed)
    (hs : scope.buffer.Shows s.position n.tokens)
    (hc : (scope.buffer.get (s.position + n.tokens.length)).kind ≠ .colonToken) {a : Reference}
    {j : Nat}
    (hrest : Straight (recursion levels) scope (s.goTo (s.position + n.tokens.length)) (do
        if ← atKind .openParenToken then
          let arguments ← argumentList
          return .functionCall
            (.invocation (← finish s.mark .functionInvocation) (n.tree s.position) arguments)
        return .simpleReference (← finish s.mark .simpleVariableReference) (n.tree s.position))
      a j) :
    Straight (recursion levels) scope s referencePrimary a j := by
  obtain ⟨first, rest, hts, hfirst⟩ := h.exists_first
  have hkind : scope.kindAt s 0 = .identifier := by
    rw [hts] at hs
    rw [Scope.kindAt_zero (Buffer.Shows.get hs.1), hfirst]
  refine .look looks_mark (.look (looks_atKind _) (.look looks_isCall (.ite_neg ?_
    (.bind (h.straight hs hc) hrest))))
  rw [hkind]
  exact nofun

theorem straight_simpleReference {n : NamePhrase}
    (h : (name n).Placed scope.buffer s.position) :
    Straight (recursion levels) scope s referencePrimary ((name n).tree s.position)
      (s.position + (name n).tokens.length) := by
  have hw : n.WellFormed := h.wellFormed
  have hs : scope.buffer.Shows s.position n.tokens := h.shows
  obtain ⟨hcolon, hparen⟩ : (scope.buffer.get (s.position + n.tokens.length)).kind ≠
      .colonToken ∧ scope.kindAt (s.goTo (s.position + n.tokens.length)) 0 ≠
        .openParenToken := by
    have he := h.ended
    simp only [continuations, List.mem_cons, List.not_mem_nil, or_false, not_or] at he
    exact he
  have hnode : Straight (recursion levels) scope (s.goTo (s.position + n.tokens.length))
      (finish s.mark .simpleVariableReference) (.over .simpleVariableReference s.position n.tokens)
      (s.position + n.tokens.length) :=
    .finish (s := s.goTo _) _ hs n.tokens_ne_nil rfl
  refine straight_name hw hs hcolon (.look (looks_atKind _) (.ite_neg ?_
    (.bind hnode (.pure _ rfl))))
  rwa [beq_iff_eq]

theorem straight_call {n : NamePhrase} {arguments : ArgumentsPhrase}
    (h : (call n arguments).Placed scope.buffer s.position)
    (hr : Room levels scope (call n arguments).tokens.length) (hu : s.unwinding = false) :
    Straight (recursion levels) scope s referencePrimary ((call n arguments).tree s.position)
      (s.position + (call n arguments).tokens.length) := by
  obtain ⟨hw, harguments⟩ := h.wellFormed
  obtain ⟨hshows, hbehind⟩ := Buffer.Shows.append.mp h.shows
  obtain ⟨hlevels, hdepth⟩ := hr
  have hlength : (call n arguments).tokens.length =
      n.tokens.length + arguments.tokens.length := List.length_append
  have hkind : scope.kindAt (s.goTo (s.position + n.tokens.length)) 0 = .openParenToken := by
    obtain ⟨opening, rest, hts, ho⟩ := harguments.exists_first
    rw [hts] at hbehind
    rw [Scope.kindAt_zero (Buffer.Shows.get hbehind.1), ho]
  have hroom : arguments.tokens.length + 4 ≤ levels := by omega
  have hread := harguments.straight (s := s.goTo (s.position + n.tokens.length)) hbehind hu hdepth
    hroom
  rw [State.goTo_position, Nat.add_assoc, ← hlength] at hread
  have hnode : Straight (recursion levels) scope
      (s.goTo (s.position + (call n arguments).tokens.length)) (finish s.mark .functionInvocation)
      (.over .functionInvocation s.position (call n arguments).tokens)
      (s.position + (call n arguments).tokens.length) :=
    .finish (s := s.goTo _) _ h.shows (tokens_ne_nil _) rfl
  refine straight_name hw hshows ?_ (.look (looks_atKind _) (.ite_pos ?_
    (.bind hread (.bind hnode (.pure _ rfl)))))
  · rw [show (scope.buffer.get (s.position + n.tokens.length)).kind = .openParenToken from hkind]
    decide
  · rw [hkind]
    rfl

/-- By induction on the reference: a name or a call is where the climb begins, and every suffix is
one round of it. -/
theorem climbs (e : ReferencePhrase) (h : e.Placed scope.buffer s.position)
    (hr : Room levels scope e.tokens.length) (hu : s.unwinding = false) :
    ∃ k < e.tokens.length, ClimbsTo referenceRule ReferencePower.lowest.toNat (recursion levels)
      scope s k (e.tree s.position) (s.position + e.tokens.length) := by
  induction e with
  | name n =>
    have hpositive : 0 < n.tokens.length := List.length_pos_iff.mpr n.tokens_ne_nil
    exact ⟨0, hpositive, .primary (straight_simpleReference h)⟩
  | call n arguments =>
    have hpositive := List.length_pos_iff.mpr (tokens_ne_nil (call n arguments))
    exact ⟨0, hpositive, .primary (straight_call h hr hu)⟩
  | suffixed target f ih =>
    obtain ⟨htarget, hf, hclash⟩ := h.wellFormed
    obtain ⟨hshows, hbehind⟩ := Buffer.Shows.append.mp h.shows
    have hlength : (suffixed target f).tokens.length = target.tokens.length + f.tokens.length :=
      List.length_append
    have hlevels := hr.levels
    have hpositive : 0 < f.tokens.length := List.length_pos_iff.mpr f.tokens_ne_nil
    have hj : s.position + target.tokens.length + f.tokens.length =
        s.position + (suffixed target f).tokens.length := by omega
    have hends : (scope.buffer.get (s.position + target.tokens.length)).kind ∉
        target.continuations := by
      obtain ⟨first, rest, hts, hk, hindex⟩ := hf.exists_first
      rw [hts] at hbehind
      rw [Buffer.Shows.get hbehind.1]
      exact not_mem_continuations hclash hk hindex
    obtain ⟨k, hk, hclimb⟩ := ih ⟨htarget, hshows, hends⟩ (hr.mono (by omega))
    have hended : (scope.buffer.get (s.position + target.tokens.length + f.tokens.length)).kind ∉
        f.continuations := by
      rw [hj]
      exact h.ended
    have hroom : f.tokens.length + 4 ≤ levels := by omega
    have happly := hf.straight (s := s.goTo (s.position + target.tokens.length))
      (target.tree s.position) h.shows rfl hended hu hr.depth hroom
    rw [State.goTo_position, hj] at happly
    have looks : Looks referenceRule.operator? _ := looks_referenceOperator?
    exact ⟨k + 1, by omega, hclimb.again looks hu
      (hf.found (s := s.goTo (s.position + target.tokens.length)) hbehind hended) (Nat.zero_le _)
      happly⟩

end ReferencePhrase

end Parts

/-- Tokens that end a reference to a variable wherever one may stand. -/
def referenceEnds : List Kind := [
  .semicolonToken, .closeParenToken, .commaToken, .equalsToken, .endOfFileToken]

/-- A well-formed reference in front of a token that ends references is read back: the tree in which
every suffix applies to all that stands before it, all of its tokens taken, and nothing else changed,
so that no error is counted or recorded. Three levels of nesting are enough. -/
theorem reference_readsBack (e : ReferencePhrase) (stop : Token) {levels : Nat} {scope : Scope}
    {s : State} (hw : e.WellFormed) (hs : scope.buffer.Shows s.position (e.tokens ++ [stop]))
    (hstop : stop.kind ∈ referenceEnds) (hu : s.unwinding = false)
    (hd : scope.depth + 3 ≤ scope.options.maxNestingDepth) (hl : e.tokens.length + 5 ≤ levels) :
    reference (recursion levels) scope s =
      some (e.tree s.position, { s with position := s.position + e.tokens.length }) := by
  obtain ⟨hshows, hend, -⟩ := Buffer.Shows.append.mp hs
  have hget := Buffer.Shows.get hend
  have hends : ∀ k ∈ referenceEnds, k ∉ nameSuffixes ∧
      k ∉ [Kind.colonToken, .openParenToken, .openBracketToken] := by decide
  obtain ⟨hsuffix, hcontinued⟩ := hends _ hstop
  have hplaced : e.Placed ({ scope with depth := scope.depth + 1 } : Scope).buffer
      s.position := by
    refine ⟨hw, hshows, fun hk => ?_⟩
    rw [hget] at hk
    exact hcontinued (ReferencePhrase.mem_of_mem_continuations hk)
  obtain ⟨levels, rfl⟩ := Nat.exists_eq_add_of_le' (Nat.le_trans (Nat.le_add_left 1 _) hl)
  have hroom : ReferencePhrase.Room levels { scope with depth := scope.depth + 1 }
      e.tokens.length :=
    ⟨by omega, by change scope.depth + 1 + 1 < scope.options.maxNestingDepth; omega⟩
  obtain ⟨k, hk, hclimb⟩ := e.climbs hplaced hroom hu
  have looks : Looks referenceRule.operator? _ := looks_referenceOperator?
  refine Straight.call (.nested (by omega) (hclimb.done ?_ looks hu fun op hop => ?_))
  · rw [steps_recursion]
    omega
  · change Operator.reference? (scope.buffer.get (s.position + e.tokens.length)).kind _ _ _ =
      some op at hop
    rw [hget, Operator.reference?_eq_none hsuffix] at hop
    cases hop

/-- `p:f(a,b)!x.*[1]@.m()@[k]` -/
def ReferencePhrase.chain : ReferencePhrase :=
  let call : ReferencePhrase :=
    .call
      (.qualified (.place .identifier "p" 0) (.fixed .colonToken 1) (.place .identifier "f" 2))
      (.some (.fixed .openParenToken 3) (.place .identifier "a" 4)
        [(.fixed .commaToken 5, .place .identifier "b" 6)] (.fixed .closeParenToken 7))
  let fields := (call.suffixed
    (.field (.fixed .exclamationToken 8) (.place .identifier "x" 9))).suffixed
      (.allFields (.fixed .dotToken 10) (.fixed .asteriskToken 11))
  let attributes := (fields.suffixed
    (.index (.fixed .openBracketToken 12) (.place .decimalIntegerLiteral "1" 13)
      (.fixed .closeBracketToken 14))).suffixed (.allAttributes (.fixed .atToken 15))
  (attributes.suffixed
    (.method (.fixed .dotToken 16) (.place .identifier "m" 17)
      (.none (.fixed .openParenToken 18) (.fixed .closeParenToken 19)))).suffixed
        (.oneAttribute (.fixed .atToken 20) (.fixed .openBracketToken 21)
          (.place .identifier "k" 22) (.fixed .closeBracketToken 23))

def ReferencePhrase.chainScope : Scope where
  buffer := .ofSource { tokens := chain.tokens ++ [.fixed .semicolonToken 24, .endOfFile 25] }
  options := { maxNestingDepth := 3 }
  file := "chain.bal"

theorem chain_readsBack :
    reference (recursion 29) ReferencePhrase.chainScope {} =
      some (ReferencePhrase.chain.tree 0, { position := 24 }) :=
  reference_readsBack ReferencePhrase.chain (.fixed .semicolonToken 24)
    (by
      have hcall : ∀ p ∈ [(Token.fixed .commaToken 5, Token.place .identifier "b" 6)],
          p.1.kind = .commaToken ∧ p.2.IsAtom := by
        intro p hp
        rw [List.mem_singleton.mp hp]
        exact ⟨rfl, .inl rfl⟩
      exact ⟨⟨⟨⟨⟨⟨⟨rfl, rfl, .inl rfl, hcall, rfl⟩, ⟨.inr rfl, rfl⟩, nofun⟩, ⟨rfl, rfl⟩, nofun⟩,
        ⟨rfl, .inr rfl, rfl⟩, nofun⟩, rfl, nofun⟩, ⟨rfl, rfl, rfl, rfl⟩, nofun⟩,
        ⟨rfl, rfl, .inl rfl, rfl⟩, nofun⟩)
    (by simp only [ReferencePhrase.chain]; repeat constructor) (by decide) rfl (by decide)
    (by decide)

end BallerinaSyntax
