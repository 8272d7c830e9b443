import BallerinaSyntax.Proofs.Phrase.Straight

/-!
Names as they are written, with or without a package. A name is read back wherever it stands; one
without a package must not have a colon behind it.
-/

namespace BallerinaSyntax

open Grammar Parse

inductive NamePhrase where
  | simple (t : Token)
  | qualified (package colon name : Token)

namespace NamePhrase

def tokens : NamePhrase → List Token
  | .simple t => [t]
  | .qualified package colon name => [package, colon, name]

/-- All tokens are of the kinds that belong there, and the colon of a package touches both names. -/
def WellFormed : NamePhrase → Prop
  | .simple t => t.kind = .identifier
  | .qualified package colon name => package.qualifies colon name = true

/-- The name when its first token has this index. -/
def tree : NamePhrase → Nat → NameReference
  | .simple t, i => {
      info := .over .nameReference i [t]
      package := none
      name := t.named i }
  | .qualified package colon name, i => {
      info := .over .nameReference i [package, colon, name]
      package := some (package.named i)
      name := name.named (i + 2) }

theorem tokens_ne_nil (n : NamePhrase) : n.tokens ≠ [] := by
  cases n <;> exact List.cons_ne_nil _ _

/-- A name begins with an identifier. -/
theorem WellFormed.exists_first {n : NamePhrase} (h : n.WellFormed) :
    ∃ t ts, n.tokens = t :: ts ∧ t.kind = .identifier := by
  cases n with
  | simple t => exact ⟨t, [], rfl, h⟩
  | qualified package colon name =>
    have hq : package.qualifies colon name = true := h
    simp only [Token.qualifies, Bool.and_eq_true, beq_iff_eq] at hq
    exact ⟨package, [colon, name], rfl, hq.1.1.1.1⟩

end NamePhrase

variable {levels : Nat} {scope : Scope} {s : State} {t : Token}

theorem Scope.kindAt_zero (ht : scope.buffer.get s.position = t) : scope.kindAt s 0 = t.kind :=
  congrArg Token.kind ht

theorem straight_bumpName (ht : scope.buffer.get s.position = t) (hk : t.kind = .identifier) :
    Straight (recursion levels) scope s bumpName (t.named s.position)
      (s.position + 1) := by
  have hbump : Straight (recursion levels) scope s bump (t.leaf s.position) (s.position + 1) :=
    .bump ht (by rw [hk]; decide)
  have hl : ({ t.leaf s.position with kind := .identifier } : Leaf) = t.leaf s.position := by
    rw [← hk]
    rfl
  have hintern : Straight (recursion levels) scope s (intern t.text) t.text s.position := by
    change some ((recursion levels).symbol t.text, s) = _
    rw [recursion, symbol_recursionWith]
    rfl
  refine .look (looks_token 0) ?_
  rw [show scope.buffer.get (s.position + 0) = t from ht]
  refine .bind hintern (.bind hbump ?_)
  rw [hl]
  exact .pure _ rfl

theorem straight_identifier (ht : scope.buffer.get s.position = t) (hk : t.kind = .identifier) :
    Straight (recursion levels) scope s Parse.identifier (t.named s.position)
      (s.position + 1) := by
  have hat : (scope.kindAt s 0 == .identifier) = true := by
    rw [Scope.kindAt_zero ht, hk]
    rfl
  exact .look (looks_atKind _) (.ite_pos hat (straight_bumpName ht hk))

theorem straight_nameReference (ht : scope.buffer.Shows s.position [t]) (hk : t.kind = .identifier)
    (hq : scope.buffer.qualifiedAt s.position = false) :
    Straight (recursion levels) scope s nameReference
      { info := .over .nameReference s.position [t]
        package := none
        name := t.named s.position } (s.position + 1) := by
  have hg := Buffer.Shows.get ht.1
  have hkind : ¬(scope.kindAt s 0 != .identifier && Operator.isName
      scope.options.allowAnyIdentifierNames (scope.kindAt s 0) &&
        scope.kindAt s 1 == .openParenToken) = true := by
    rw [Scope.kindAt_zero hg, hk]
    simp
  refine .look looks_mark (.look (looks_kind 0) (.look (looks_isQualifiedName 0)
    (.look (looks_isName _) (.look (looks_isKind _ _) (.ite_neg (ne_true_of_eq_false hq)
      (.ite_neg hkind ?_))))))
  refine .bind (straight_identifier hg hk) (.give (.bind ?_ (.pure _ rfl)))
  exact .finish (s := s.goTo (s.position + 1)) _ ht (List.cons_ne_nil _ _) rfl

/-- A package, a colon and a name that touch are taken together. -/
theorem straight_qualifiedName {package colon name : Token}
    (hs : scope.buffer.Shows s.position [package, colon, name])
    (hq : package.qualifies colon name = true) :
    Straight (recursion levels) scope s nameReference
      ((NamePhrase.qualified package colon name).tree s.position) (s.position + 3) := by
  have hpackage := Buffer.Shows.get hs.1
  have hcolon := Buffer.Shows.get hs.2.1
  have hname := Buffer.Shows.get hs.2.2.1
  have hat : scope.buffer.qualifiedAt s.position = true := by
    unfold Buffer.qualifiedAt
    rw [hpackage, hcolon, hname]
    exact hq
  simp only [Token.qualifies, Bool.and_eq_true, beq_iff_eq] at hq
  obtain ⟨⟨⟨⟨hpk, hck⟩, hnk⟩, -⟩, -⟩ := hq
  have hread : Straight (recursion levels) scope s bumpName _ (s.position + 1) :=
    straight_bumpName hpackage hpk
  have hread' : Straight (recursion levels) scope (s.goTo (s.position + 1)) bump _ (s.position + 2) :=
    .bump hcolon (by rw [hck]; decide)
  have hread'' : Straight (recursion levels) scope (s.goTo (s.position + 2)) bumpName _ (s.position + 3) :=
    straight_bumpName hname hnk
  have hnode : Straight (recursion levels) scope (s.goTo (s.position + 3)) (finish s.mark .nameReference)
      (.over .nameReference s.position [package, colon, name]) (s.position + 3) :=
    .finish (s := s.goTo (s.position + 3)) _ hs (List.cons_ne_nil _ _) rfl
  exact .look looks_mark (.look (looks_kind 0) (.look (looks_isQualifiedName 0) (.ite_pos hat
    (.bind hread (.bind hread' (.bind hread'' (.give (.bind hnode (.pure _ rfl)))))))))

/-- A name is read back if no colon follows it. -/
theorem NamePhrase.WellFormed.straight {n : NamePhrase} (h : n.WellFormed)
    (hs : scope.buffer.Shows s.position n.tokens)
    (hc : (scope.buffer.get (s.position + n.tokens.length)).kind ≠ .colonToken) :
    Straight (recursion levels) scope s nameReference (n.tree s.position)
      (s.position + n.tokens.length) := by
  cases n with
  | simple t =>
    have hq : scope.buffer.qualifiedAt s.position = false := by
      have hk : ((scope.buffer.get (s.position + 1)).kind == .colonToken) = false :=
        beq_eq_false_iff_ne.mpr hc
      rw [Buffer.qualifiedAt, Token.qualifies, hk, Bool.and_false]
      rfl
    exact straight_nameReference hs h hq
  | qualified package colon name => exact straight_qualifiedName hs h

end BallerinaSyntax
