import BallerinaSyntax.Proofs.Phrase.Climb

/-!
Type names as they are written, of words, names, parentheses, constraints and suffixes. Wherever a
well-formed one stands, and what follows it is no part of it, it is read back. Suffixes are collected
by the climb itself and by the loops inside of it, which read dimensions and members of unions, so
what follows is not the same for all of them.
-/

namespace BallerinaSyntax

open Grammar Parse

/-- A dimension of an array, with or without a size. -/
structure DimensionPhrase where
  opening : Token
  size : Option Token
  closing : Token

mutual

inductive TypePhrase where
  | builtin (keyword : Token)
  | name (name : NamePhrase)
  /-- An empty pair of parentheses. -/
  | unit (opening closing : Token)
  | group (opening : Token) (inner : TypePhrase) (closing : Token)
  | tuple (opening : Token) (first : TypePhrase) (more : TypePhrases) (closing : Token)
  | constrained (keyword opening : Token) (constraint : TypePhrase) (closing : Token)
  | array (element : TypePhrase) (dimensions : List DimensionPhrase)
  | nullable (inner : TypePhrase) (question : Token)
  | union (first : TypePhrase) (more : TypePhrases)

/-- More types, each behind a separator. -/
inductive TypePhrases where
  | nil
  | cons (separator : Token) (head : TypePhrase) (tail : TypePhrases)

end

namespace DimensionPhrase

def tokens (d : DimensionPhrase) : List Token := d.opening :: (d.size.toList ++ [d.closing])

structure WellFormed (d : DimensionPhrase) : Prop where
  opening : d.opening.kind = .openBracketToken
  size : ∀ t ∈ d.size, t.kind.isIntegerLiteral = true
  closing : d.closing.kind = .closeBracketToken

def tree (d : DimensionPhrase) (i : Nat) : ArrayDimension where
  info := .over .arrayDimension i d.tokens
  size := d.size.map (·.leaf (i + 1))

/-- The dimensions of an array whose first bracket has this index. -/
def trees : List DimensionPhrase → Nat → List ArrayDimension
  | [], _ => []
  | d :: ds, i => d.tree i :: trees ds (i + d.tokens.length)

end DimensionPhrase

mutual

/-- The tokens of a type in order. -/
def TypePhrase.tokens : TypePhrase → List Token
  | .builtin keyword => [keyword]
  | .name n => n.tokens
  | .unit opening closing => [opening, closing]
  | .group opening inner closing => opening :: (inner.tokens ++ [closing])
  | .tuple opening first more closing => opening :: (first.tokens ++ (more.tokens ++ [closing]))
  | .constrained keyword opening constraint closing =>
    keyword :: opening :: (constraint.tokens ++ [closing])
  | .array element dimensions => element.tokens ++ dimensions.flatMap DimensionPhrase.tokens
  | .nullable inner question => inner.tokens ++ [question]
  | .union first more => first.tokens ++ more.tokens

def TypePhrases.tokens : TypePhrases → List Token
  | .nil => []
  | .cons separator head tail => separator :: (head.tokens ++ tail.tokens)

end

mutual

/-- How many types a type is made of. -/
def TypePhrase.size : TypePhrase → Nat
  | .builtin _ | .name _ | .unit .. => 1
  | .group _ inner _ => inner.size + 1
  | .tuple _ first more _ => first.size + more.size + 1
  | .constrained _ _ constraint _ => constraint.size + 1
  | .array element _ => element.size + 1
  | .nullable inner _ => inner.size + 1
  | .union first more => first.size + more.size + 1

def TypePhrases.size : TypePhrases → Nat
  | .nil => 0
  | .cons _ head tail => head.size + tail.size

end

namespace TypePhrase

def isUnion : TypePhrase → Bool
  | .union .. => true
  | _ => false

def isArray : TypePhrase → Bool
  | .array .. => true
  | _ => false

end TypePhrase

namespace TypePhrases

def isEmpty : TypePhrases → Bool
  | .nil => true
  | .cons .. => false

/-- No type among these is a union. -/
def Flat : TypePhrases → Prop
  | .nil => True
  | .cons _ head tail => head.isUnion = false ∧ tail.Flat

end TypePhrases

mutual

/-- All tokens are of the kinds that belong there. The element of an array is no union and no array,
what a question mark makes nullable is no union, and no member of a union is one. -/
def TypePhrase.WellFormed : TypePhrase → Prop
  | .builtin keyword => keyword.kind.isBuiltinType = true
  | .name n => n.WellFormed
  | .unit opening closing => opening.kind = .openParenToken ∧ closing.kind = .closeParenToken
  | .group opening inner closing =>
    opening.kind = .openParenToken ∧ inner.WellFormed ∧ closing.kind = .closeParenToken
  | .tuple opening first more closing =>
    opening.kind = .openParenToken ∧ first.WellFormed ∧ more.isEmpty = false ∧
      more.WellFormed .commaToken ∧ closing.kind = .closeParenToken
  | .constrained keyword opening constraint closing =>
    (keyword.kind.isConstrainableType = true ∧ keyword.kind ≠ .xmlKeyword) ∧
      opening.kind = .lessThanToken ∧ constraint.WellFormed ∧ closing.kind = .greaterThanToken
  | .array element dimensions =>
    (element.isUnion = false ∧ element.isArray = false) ∧ element.WellFormed ∧
      dimensions ≠ [] ∧ ∀ d ∈ dimensions, d.WellFormed
  | .nullable inner question =>
    inner.isUnion = false ∧ inner.WellFormed ∧ question.kind = .questionToken
  | .union first more =>
    first.isUnion = false ∧ first.WellFormed ∧ more.isEmpty = false ∧ more.Flat ∧
      more.WellFormed .barToken

/-- Types behind separators of one kind. -/
def TypePhrases.WellFormed (separators : Kind) : TypePhrases → Prop
  | .nil => True
  | .cons separator head tail =>
    separator.kind = separators ∧ head.WellFormed ∧ tail.WellFormed separators

end

mutual

/-- The type name when its first token has this index. -/
def TypePhrase.tree : TypePhrase → Nat → TypeName
  | .builtin keyword, i => .builtinType (.over .builtinTypeName i [keyword]) (keyword.leaf i)
  | .name n, i =>
    .userDefinedType { info := .over .userDefinedTypeName i n.tokens, name := n.tree i }
  | .unit opening closing, i => .nilType (.over .nilTypeName i [opening, closing])
  | .group opening inner closing, i =>
    .groupType (.over .groupTypeName i (opening :: (inner.tokens ++ [closing])))
      (inner.tree (i + 1))
  | .tuple opening first more closing, i =>
    .tupleType (.over .tupleTypeName i (opening :: (first.tokens ++ (more.tokens ++ [closing]))))
      (.ofList (first.tree (i + 1) :: more.trees (i + 1 + first.tokens.length)))
  | .constrained keyword opening constraint closing, i =>
    .constrainedType
      (.over .constrainedTypeName i (keyword :: opening :: (constraint.tokens ++ [closing])))
      (keyword.leaf i) (.typeConstraint (constraint.tree (i + 2)))
  | .array element dimensions, i =>
    .arrayType
      (.over .arrayTypeName i (element.tokens ++ dimensions.flatMap DimensionPhrase.tokens))
      (element.tree i) (DimensionPhrase.trees dimensions (i + element.tokens.length))
  | .nullable inner question, i =>
    .nullableType (.over .nullableTypeName i (inner.tokens ++ [question])) (inner.tree i)
  | .union first more, i =>
    .unionType (.over .unionTypeName i (first.tokens ++ more.tokens))
      (.ofList (first.tree i :: more.trees (i + first.tokens.length)))

/-- The types when the first separator has this index. -/
def TypePhrases.trees : TypePhrases → Nat → List TypeName
  | .nil, _ => []
  | .cons _ head tail, i => head.tree (i + 1) :: tail.trees (i + 1 + head.tokens.length)

end

/-! ## The tokens of a type -/

theorem isBuiltinType_of_isConstrainableType :
    ∀ k : Kind, k.isConstrainableType = true → k.isBuiltinType = true := by
  intro k h
  simp only [Kind.isConstrainableType, List.contains_iff_mem, List.mem_cons, List.not_mem_nil,
    or_false] at h
  rcases h with rfl | rfl | rfl | rfl | rfl | rfl <;> rfl

theorem isBuiltinType_ne {k : Kind} (h : k.isBuiltinType = true) :
    k ≠ .endOfFileToken ∧ k ≠ .closeParenToken := by
  constructor
  · rintro rfl
    cases h
  · rintro rfl
    cases h

theorem startsType_of_isBuiltinType {k : Kind} (h : k.isBuiltinType = true) :
    startsType k = true := by
  rw [startsType, h, Bool.true_or]

/-- A type begins with a token with which types begin, and none is a parenthesis that closes. -/
theorem TypePhrase.WellFormed.exists_first : ∀ {t : TypePhrase}, t.WellFormed →
    ∃ first rest, t.tokens = first :: rest ∧ startsType first.kind = true
  | .builtin keyword, h => ⟨keyword, [], rfl, startsType_of_isBuiltinType h⟩
  | .name n, h => by
    obtain ⟨first, rest, hts, hk⟩ := NamePhrase.WellFormed.exists_first (n := n) h
    exact ⟨first, rest, hts, by rw [hk]; rfl⟩
  | .unit opening closing, h => ⟨opening, [closing], rfl, by rw [h.1]; rfl⟩
  | .group opening inner closing, h => ⟨opening, _, rfl, by rw [h.1]; rfl⟩
  | .tuple opening first more closing, h => ⟨opening, _, rfl, by rw [h.1]; rfl⟩
  | .constrained keyword opening constraint closing, h =>
    ⟨keyword, _, rfl,
      startsType_of_isBuiltinType (isBuiltinType_of_isConstrainableType _ h.1.1)⟩
  | .array element dimensions, h => by
    obtain ⟨first, rest, hts, hk⟩ := exists_first (t := element) h.2.1
    exact ⟨first, rest ++ _, by rw [tokens, hts]; rfl, hk⟩
  | .nullable inner question, h => by
    obtain ⟨first, rest, hts, hk⟩ := exists_first (t := inner) h.2.1
    exact ⟨first, rest ++ _, by rw [tokens, hts]; rfl, hk⟩
  | .union head more, h => by
    obtain ⟨first, rest, hts, hk⟩ := exists_first (t := head) h.2.1
    exact ⟨first, rest ++ _, by rw [tokens, hts]; rfl, hk⟩

/-! ## What follows a type -/

/-- Tokens with which a suffix may begin. -/
def typeSuffixes : List Kind := [.openBracketToken, .questionToken, .barToken]

/-- Tokens that are read as a part of a type if they stand behind it. -/
def TypePhrase.continuations : TypePhrase → List Kind
  | .builtin _ => [.lessThanToken]
  | .name _ => [.colonToken]
  | .array .. => [.openBracketToken]
  | .union .. => [.colonToken, .lessThanToken, .openBracketToken, .questionToken, .barToken]
  | _ => []

/-- The greatest power with which a type is read to its end. -/
def TypePhrase.power (t : TypePhrase) : Nat :=
  if t.isUnion then TypePower.union.toNat else TypePower.nullable.toNat

/-- A token of this kind ends a type that is read with some power. -/
structure EndsType (power : Nat) (k : Kind) : Prop where
  plain : k ∉ [Kind.colonToken, .lessThanToken, .openBracketToken, .questionToken]
  bar : k = .barToken → TypePower.union.toNat < power

theorem EndsType.not_mem_continuations {power : Nat} {k : Kind} {t : TypePhrase}
    (h : EndsType power k) (hp : power ≤ t.power) : k ∉ t.continuations := by
  obtain ⟨hplain, hbar⟩ := h
  simp only [List.mem_cons, List.not_mem_nil, or_false, not_or] at hplain
  cases t with
  | union first more =>
    have hb : k ≠ .barToken := fun hk => Nat.not_lt.mpr hp (hbar hk)
    simp [TypePhrase.continuations, hplain, hb]
  | _ => simp [TypePhrase.continuations, hplain]

/-- Tokens that end a type wherever one may stand. -/
def typeEnds : List Kind := [
  .identifier, .semicolonToken, .equalsToken, .commaToken, .closeParenToken, .greaterThanToken,
  .endOfFileToken]

theorem EndsType.of_mem {power : Nat} {k : Kind} (h : k ∈ typeEnds) : EndsType power k := by
  have hends : ∀ k ∈ typeEnds, k ≠ .barToken ∧
      k ∉ [Kind.colonToken, .lessThanToken, .openBracketToken, .questionToken] := by decide
  obtain ⟨hbar, hplain⟩ := hends k h
  exact ⟨hplain, fun hk => absurd hk hbar⟩

section Operators

variable {scope : Scope} {s : State}

theorem Scope.typeOperator?_eq_none (h : scope.kindAt s 0 ∉ typeSuffixes) :
    scope.typeOperator? s = none := by
  simp only [typeSuffixes, List.mem_cons, List.not_mem_nil, or_false, not_or] at h
  unfold Scope.typeOperator?
  split
  · exact absurd ‹_› h.1
  · exact absurd ‹_› h.2.2
  · unfold Operator.typeName?
    split
    · exact absurd ‹_› h.1
    · exact absurd ‹_› h.2.1
    · exact absurd ‹_› h.2.2
    · rfl

theorem Scope.typeOperator?_bar (h : scope.kindAt s 0 = .barToken)
    (ht : startsType (scope.kindAt s 1) = true) :
    scope.typeOperator? s = Operator.typeName? .barToken := by
  unfold Scope.typeOperator?
  rw [h, if_pos ht]

theorem Scope.typeOperator?_question (h : scope.kindAt s 0 = .questionToken) :
    scope.typeOperator? s = Operator.typeName? .questionToken := by
  unfold Scope.typeOperator?
  rw [h]

/-- A climb stops at a token that ends types. -/
theorem EndsType.stops {power : Nat} (h : EndsType power (scope.kindAt s 0)) :
    Operator.Stops (scope.typeOperator? s) power := by
  intro op hop
  obtain ⟨hplain, hbar⟩ := h
  by_cases hk : scope.kindAt s 0 = .barToken
  · have hpower := hbar hk
    unfold Scope.typeOperator? at hop
    rw [hk] at hop
    dsimp only at hop
    split at hop
    · cases hop
      exact hpower
    · cases hop
  · have hnone : scope.typeOperator? s = none := by
      refine Scope.typeOperator?_eq_none ?_
      simp only [List.mem_cons, List.not_mem_nil, or_false, not_or] at hplain
      simp only [typeSuffixes, List.mem_cons, List.not_mem_nil, or_false, not_or]
      exact ⟨hplain.2.2.1, hplain.2.2.2, hk⟩
    rw [hnone] at hop
    cases hop

end Operators

/-! ## Reading types back -/

/-- A well-formed type stands at an index, and what follows it is not read as a part of it. -/
structure TypePhrase.Placed (b : Buffer) (i : Nat) (t : TypePhrase) : Prop where
  wellFormed : t.WellFormed
  shows : b.Shows i t.tokens
  ended : (b.get (i + t.tokens.length)).kind ∉ t.continuations

/-- There are levels enough for so many tokens that hold so many types. -/
structure TypePhrase.Room (levels : Nat) (scope : Scope) (length size : Nat) : Prop where
  levels : length + 2 ≤ levels
  depth : scope.depth + size ≤ scope.options.maxNestingDepth

theorem TypePhrase.Room.mono {levels length size l n : Nat} {scope : Scope}
    (h : Room levels scope length size) (hl : l ≤ length) (hn : n ≤ size) :
    Room levels scope l n := by
  obtain ⟨hlevels, hdepth⟩ := h
  exact ⟨by omega, by omega⟩

/-- Wherever the type is placed, a climb with at most its power reaches a round in which the type is
its left operand. -/
def TypePhrase.Climbs (t : TypePhrase) : Prop :=
  ∀ ⦃levels : Nat⦄ ⦃scope : Scope⦄ ⦃s : State⦄ ⦃power : Nat⦄, t.Placed scope.buffer s.position →
    Room levels scope t.tokens.length t.size → s.unwinding = false → power ≤ t.power →
    ∃ k < t.tokens.length, ClimbsTo typeRule power (recursion levels) scope s k
      (t.tree s.position) (s.position + t.tokens.length)

def TypePhrases.Climb : TypePhrases → Prop
  | .nil => True
  | .cons _ head tail => head.Climbs ∧ tail.Climb

section Reading

variable {levels : Nat} {scope : Scope} {s : State} {power : Nat}

namespace TypePhrase

theorem Climbs.of_primary {t : TypePhrase} (ht : t.tokens ≠ [])
    (h : ∀ ⦃levels : Nat⦄ ⦃scope : Scope⦄ ⦃s : State⦄, t.Placed scope.buffer s.position →
      Room levels scope t.tokens.length t.size → s.unwinding = false →
      Straight (recursion levels) scope s typePrimary (t.tree s.position)
        (s.position + t.tokens.length)) : t.Climbs := by
  intro levels scope s power hp hr hu _
  exact ⟨0, List.length_pos_iff.mpr ht, .primary (h hp hr hu)⟩

/-- A type is read back by a goal if what follows ends it. -/
theorem Climbs.call {t : TypePhrase} (h : t.Climbs) (hw : t.WellFormed)
    (hs : scope.buffer.Shows s.position t.tokens) (hp : power ≤ t.power)
    (he : EndsType power (scope.buffer.get (s.position + t.tokens.length)).kind)
    (hr : Room levels scope (t.tokens.length + 1) (t.size + 1)) (hu : s.unwinding = false) :
    Straight (recursion levels) scope s (Parse.call (.typeName power)) (t.tree s.position)
      (s.position + t.tokens.length) := by
  obtain ⟨hlevels, hdepth⟩ := hr
  obtain ⟨n, rfl⟩ := Nat.exists_eq_add_of_le' hlevels
  have hroom : Room (t.tokens.length + n + 2) { scope with depth := scope.depth + 1 }
      t.tokens.length t.size :=
    ⟨by omega, by change scope.depth + 1 + t.size ≤ scope.options.maxNestingDepth; omega⟩
  have hplaced : t.Placed ({ scope with depth := scope.depth + 1 } : Scope).buffer s.position :=
    ⟨hw, hs, he.not_mem_continuations hp⟩
  obtain ⟨k, hk, hclimb⟩ := h hplaced hroom hu hp
  have looks : Looks typeRule.operator? Scope.typeOperator? := looks_typeOperator?
  have hstop : EndsType power
      (({ scope with depth := scope.depth + 1 } : Scope).kindAt
        (s.goTo (s.position + t.tokens.length)) 0) := he
  have hsteps : k < (recursion (t.tokens.length + n + 2)).steps := by
    change k < t.tokens.length + n + 1
    omega
  have hread := hclimb.done hsteps looks hu hstop.stops
  rw [show n + (t.tokens.length + 1 + 2) = t.tokens.length + n + 2 + 1 by omega]
  exact .call (.nested (by omega) hread)

/-! ### Words and names -/

theorem climbs_builtin (keyword : Token) : (builtin keyword).Climbs := by
  refine Climbs.of_primary (List.cons_ne_nil _ _) fun levels scope s h _ _ => ?_
  have hk : keyword.kind.isBuiltinType = true := h.wellFormed
  have hget := Buffer.Shows.get h.shows.1
  have hkind := Scope.kindAt_zero hget
  have hnext : scope.kindAt s 1 ≠ .lessThanToken := fun he => h.ended (List.mem_singleton.mpr he)
  have hplain : ¬((scope.kindAt s 0).isConstrainableType &&
      scope.kindAt s 1 == .lessThanToken) = true := by
    rw [beq_eq_false_iff_ne.mpr hnext, Bool.and_false]
    exact Bool.false_ne_true
  have hbump : Straight (recursion levels) scope s bump _ (s.position + 1) :=
    .bump hget (isBuiltinType_ne hk).1
  have hnode : Straight (recursion levels) scope (s.goTo (s.position + 1))
      (finish s.mark .builtinTypeName) (.over .builtinTypeName s.position [keyword])
      (s.position + 1) :=
    .finish (s := s.goTo (s.position + 1)) _ h.shows (List.cons_ne_nil _ _) rfl
  refine .look looks_mark (.look (looks_kind 0) (.look (looks_isKind _ _) (.ite_neg hplain
    (.ite_pos ?_ (.bind hbump (.bind hnode (.pure _ rfl)))))))
  rw [hkind, hk]

theorem climbs_name (n : NamePhrase) : (name n).Climbs := by
  refine Climbs.of_primary n.tokens_ne_nil fun levels scope s h _ _ => ?_
  have hw : n.WellFormed := h.wellFormed
  obtain ⟨first, rest, hts, hfirst⟩ := hw.exists_first
  have hshows : scope.buffer.Shows s.position n.tokens := h.shows
  have hkind : scope.kindAt s 0 = .identifier := by
    rw [hts] at hshows
    rw [Scope.kindAt_zero (Buffer.Shows.get hshows.1), hfirst]
  have hcolon : (scope.buffer.get (s.position + n.tokens.length)).kind ≠ .colonToken :=
    fun he => h.ended (List.mem_singleton.mpr he)
  have hread : Straight (recursion levels) scope s nameReference _ _ := hw.straight hshows hcolon
  have hnode : Straight (recursion levels) scope (s.goTo (s.position + n.tokens.length))
      (finish s.mark .userDefinedTypeName) (.over .userDefinedTypeName s.position n.tokens)
      (s.position + n.tokens.length) :=
    .finish (s := s.goTo _) _ hshows n.tokens_ne_nil rfl
  refine .look looks_mark (.look (looks_kind 0) (.look (looks_isKind _ _) ?_))
  rw [hkind]
  exact .bind (.look looks_mark (.bind hread (.bind hnode (.pure _ rfl)))) (.pure _ rfl)

theorem climbs_unit (opening closing : Token) : (unit opening closing).Climbs := by
  refine Climbs.of_primary (List.cons_ne_nil _ _) fun levels scope s h _ _ => ?_
  obtain ⟨ho, hc⟩ := h.wellFormed
  have hopening := Buffer.Shows.get h.shows.1
  have hclosing := Buffer.Shows.get h.shows.2.1
  have hbump : Straight (recursion levels) scope s bump _ (s.position + 1) :=
    .bump hopening (by rw [ho]; decide)
  have haccept : Straight (recursion levels) scope (s.goTo (s.position + 1))
      (accept .closeParenToken) true (s.position + 2) := .accept_yes hclosing hc (by decide)
  have hnode : Straight (recursion levels) scope (s.goTo (s.position + 2))
      (finish s.mark .nilTypeName) (.over .nilTypeName s.position [opening, closing])
      (s.position + 2) :=
    .finish (s := s.goTo _) _ h.shows (List.cons_ne_nil _ _) rfl
  refine .look looks_mark (.look (looks_kind 0) (.look (looks_isKind _ _) ?_))
  rw [Scope.kindAt_zero hopening, ho]
  exact .bind hbump (.bind haccept (.ite_pos rfl (.bind hnode (.pure _ rfl))))

/-! ### Types inside -/

theorem climbs_group {opening closing : Token} {inner : TypePhrase} (ih : inner.Climbs) :
    (group opening inner closing).Climbs := by
  refine Climbs.of_primary (List.cons_ne_nil _ _) fun levels scope s h hr hu => ?_
  obtain ⟨ho, hw, hc⟩ := h.wellFormed
  obtain ⟨hopening, hbehind⟩ := h.shows
  obtain ⟨hinner, hclosing, -⟩ := Buffer.Shows.append.mp hbehind
  have hopen := Buffer.Shows.get hopening
  have hclose := Buffer.Shows.get hclosing
  have hl : (group opening inner closing).tokens.length = inner.tokens.length + 2 := by
    simp [tokens]
  have hend : EndsType TypePower.lowest.toNat
      (scope.buffer.get (s.position + 1 + inner.tokens.length)).kind := by
    rw [hclose, hc]
    exact .of_mem (by decide)
  have hbump : Straight (recursion levels) scope s bump _ (s.position + 1) :=
    .bump hopen (by rw [ho]; decide)
  have hread : Straight (recursion levels) scope (s.goTo (s.position + 1)) typeName _ _ :=
    ih.call (s := s.goTo (s.position + 1)) hw hinner (Nat.zero_le _) hend
      (hr.mono (by omega) (Nat.le_refl _)) hu
  obtain ⟨first, rest, hts, hfirst⟩ := hw.exists_first
  have hnext : scope.kindAt (s.goTo (s.position + 1)) 0 ≠ .closeParenToken := by
    rw [hts] at hinner
    rw [Scope.kindAt_zero (Buffer.Shows.get hinner.1)]
    intro hk
    rw [hk] at hfirst
    cases hfirst
  have hcomma : (!(scope.kindAt (s.goTo (s.position + 1 + inner.tokens.length)) 0 ==
      .commaToken)) = true := by
    rw [Scope.kindAt_zero hclose, hc]
    rfl
  have hexpect : Straight (recursion levels) scope
      (s.goTo (s.position + 1 + inner.tokens.length))
      (expectClosing (opening.leaf s.position) .closeParenToken "type") _
      (s.position + 1 + inner.tokens.length + 1) := .expectClosing hclose hc (by decide)
  have hnode : Straight (recursion levels) scope
      (s.goTo (s.position + 1 + inner.tokens.length + 1))
      (finishDelimited s.mark .groupTypeName
        (closing.leaf (s.position + 1 + inner.tokens.length)))
      (.over .groupTypeName s.position (group opening inner closing).tokens)
      (s.position + (group opening inner closing).tokens.length) := by
    have hj : s.position + 1 + inner.tokens.length + 1 =
      s.position + (group opening inner closing).tokens.length := by omega
    rw [hj]
    exact .finishDelimited (s := s.goTo _) _ h.shows (List.cons_ne_nil _ _) rfl rfl
  refine .look looks_mark (.look (looks_kind 0) (.look (looks_isKind _ _) ?_))
  rw [Scope.kindAt_zero hopen, ho]
  exact .bind hbump (.bind (.accept_no hnext) (.ite_neg nofun (.bind hread
    (.look (looks_atKind _) (.ite_pos hcomma (.bind hexpect (.bind hnode (.pure _ rfl))))))))

theorem climbs_constrained {keyword opening closing : Token} {constraint : TypePhrase}
    (ih : constraint.Climbs) : (constrained keyword opening constraint closing).Climbs := by
  refine Climbs.of_primary (List.cons_ne_nil _ _) fun levels scope s h hr hu => ?_
  obtain ⟨⟨hk, hxml⟩, ho, hw, hc⟩ := h.wellFormed
  obtain ⟨hkeyword, hopening, hbehind⟩ := h.shows
  obtain ⟨hinner, hclosing, -⟩ := Buffer.Shows.append.mp hbehind
  have hword := Buffer.Shows.get hkeyword
  have hopen := Buffer.Shows.get hopening
  have hclose := Buffer.Shows.get hclosing
  have hl : (constrained keyword opening constraint closing).tokens.length =
      constraint.tokens.length + 3 := by
    simp [tokens]
  have hend : EndsType TypePower.lowest.toNat
      (scope.buffer.get (s.position + 2 + constraint.tokens.length)).kind := by
    rw [hclose, hc]
    exact .of_mem (by decide)
  have hat : ((scope.kindAt s 0).isConstrainableType &&
      scope.kindAt s 1 == .lessThanToken) = true := by
    have hnext : scope.kindAt s 1 = opening.kind := congrArg Token.kind hopen
    rw [Scope.kindAt_zero hword, hk, hnext, ho]
    rfl
  have hbump : Straight (recursion levels) scope s bump (keyword.leaf s.position)
      (s.position + 1) :=
    .bump hword (isBuiltinType_ne (isBuiltinType_of_isConstrainableType _ hk)).1
  have hbump' : Straight (recursion levels) scope (s.goTo (s.position + 1)) bump _
      (s.position + 2) := .bump hopen (by rw [ho]; decide)
  have hread : Straight (recursion levels) scope (s.goTo (s.position + 2)) typeName _ _ :=
    ih.call (s := s.goTo (s.position + 2)) hw hinner (Nat.zero_le _) hend
      (hr.mono (by omega) (Nat.le_refl _)) hu
  have hplain : ¬((keyword.leaf s.position).kind == .xmlKeyword) = true := by
    rw [beq_iff_eq]
    exact hxml
  have hexpect : Straight (recursion levels) scope
      (s.goTo (s.position + 2 + constraint.tokens.length)) (expect .greaterThanToken) _
      (s.position + 2 + constraint.tokens.length + 1) := .expect hclose hc (by decide)
  have hnode : Straight (recursion levels) scope
      (s.goTo (s.position + 2 + constraint.tokens.length + 1))
      (finish s.mark .constrainedTypeName)
      (.over .constrainedTypeName s.position
        (constrained keyword opening constraint closing).tokens)
      (s.position + (constrained keyword opening constraint closing).tokens.length) := by
    have hj : s.position + 2 + constraint.tokens.length + 1 =
      s.position + (constrained keyword opening constraint closing).tokens.length := by omega
    rw [hj]
    exact .finish (s := s.goTo _) _ h.shows (List.cons_ne_nil _ _) rfl
  exact .look looks_mark (.look (looks_kind 0) (.look (looks_isKind _ _) (.ite_pos hat
    (.bind hbump (.bind hbump' (.ite_neg hplain (.bind hread (.give (.bind hexpect
      (.bind hnode (.pure _ rfl)))))))))))

/-! ### Suffixes -/

theorem not_mem_continuations_of_not_union {t : TypePhrase} {k : Kind} (h : t.isUnion = false)
    (hk : k ∉ [Kind.colonToken, .lessThanToken, .openBracketToken]) : k ∉ t.continuations := by
  simp only [List.mem_cons, List.not_mem_nil, or_false, not_or] at hk
  cases t with
  | union first more => cases h
  | _ => simp [continuations, hk]

theorem climbs_nullable {inner : TypePhrase} {question : Token} (ih : inner.Climbs) :
    (nullable inner question).Climbs := by
  intro levels scope s power h hr hu hp
  obtain ⟨hunion, hw, hq⟩ := h.wellFormed
  obtain ⟨hinner, hquestion, -⟩ := Buffer.Shows.append.mp h.shows
  have hget := Buffer.Shows.get hquestion
  have hl : (nullable inner question).tokens.length = inner.tokens.length + 1 := by
    simp [tokens]
  have hplaced : inner.Placed scope.buffer s.position := by
    refine ⟨hw, hinner, not_mem_continuations_of_not_union hunion ?_⟩
    rw [hget, hq]
    decide
  have hpower : power ≤ TypePower.nullable.toNat := hp
  have hinnerPower : power ≤ inner.power := by
    rw [TypePhrase.power, hunion]
    exact hpower
  obtain ⟨k, hk, hclimb⟩ := ih hplaced (hr.mono (by omega) (Nat.le_succ _)) hu hinnerPower
  have looks : Looks typeRule.operator? Scope.typeOperator? := looks_typeOperator?
  have hkind : scope.kindAt (s.goTo (s.position + inner.tokens.length)) 0 = .questionToken :=
    (congrArg Token.kind hget).trans hq
  have hbump : Straight (recursion levels) scope (s.goTo (s.position + inner.tokens.length)) bump _
      (s.position + inner.tokens.length + 1) :=
    .bump (s := s.goTo _) hget (by rw [hq]; decide)
  have hnode : Straight (recursion levels) scope
      (s.goTo (s.position + inner.tokens.length + 1)) (finish s.mark .nullableTypeName)
      (.over .nullableTypeName s.position (nullable inner question).tokens)
      (s.position + (nullable inner question).tokens.length) := by
    rw [Nat.add_assoc, ← hl]
    exact .finish (s := s.goTo _) _ h.shows (by simp [tokens]) rfl
  exact ⟨k + 1, by omega, hclimb.again looks hu (Scope.typeOperator?_question hkind) hpower
    (.bind hbump (.bind hnode (.pure _ rfl)))⟩

/-- The operator of arrays. -/
def dimensionOperator : Operator := ⟨TypePower.array.toNat, .left, .postfixOp, .arrayTypeName⟩

/-- A dimension is an operator, and it is read back. -/
theorem straight_dimension {r : Recursion} {d : DimensionPhrase} {i : Nat} (hw : d.WellFormed)
    (hs : scope.buffer.Shows i d.tokens) :
    scope.typeOperator? (s.goTo i) = some dimensionOperator ∧
      Straight r scope (s.goTo i) arrayDimension (d.tree i) (i + d.tokens.length) := by
  obtain ⟨opening, size, closing⟩ := d
  obtain ⟨ho, hsize, hc⟩ := hw
  obtain ⟨hopening, hbehind⟩ := hs
  have hopen := Buffer.Shows.get hopening
  have hkind : scope.kindAt (s.goTo i) 0 = .openBracketToken :=
    (congrArg Token.kind hopen).trans ho
  have hbump : Straight r scope (s.goTo i) bump _ (i + 1) := .bump hopen (by rw [ho]; decide)
  have hnode : ∀ j, j = i + (DimensionPhrase.mk opening size closing).tokens.length →
      Straight r scope (s.goTo j) (finish (s.goTo i).mark .arrayDimension)
        (.over .arrayDimension i (DimensionPhrase.mk opening size closing).tokens) j := by
    rintro j rfl
    exact .finish (s := s.goTo _) _ ⟨hopening, hbehind⟩ (List.cons_ne_nil _ _) rfl
  cases size with
  | none =>
    have hclose := Buffer.Shows.get hbehind.1
    have hnext : scope.kindAt (s.goTo i) 1 = .closeBracketToken :=
      (congrArg Token.kind hclose).trans hc
    have hopen' : ¬(scope.kindAt (s.goTo (i + 1)) 0).isIntegerLiteral = true := by
      rw [show scope.kindAt (s.goTo (i + 1)) 0 = .closeBracketToken from hnext]
      decide
    have hexpect : Straight r scope (s.goTo (i + 1)) (expect .closeBracketToken) _ (i + 2) :=
      .expect hclose hc (by decide)
    refine ⟨?_, .look looks_mark (.bind hbump (.look (looks_kind 0) (.ite_neg hopen'
      (.give (.bind hexpect (.bind (hnode (i + 2) rfl) (.pure _ rfl)))))))⟩
    unfold Scope.typeOperator?
    rw [hkind, hnext]
    rfl
  | some t =>
    have hsize := hsize t rfl
    have hget := Buffer.Shows.get hbehind.1
    have hclose := Buffer.Shows.get hbehind.2.1
    have hnext : scope.kindAt (s.goTo i) 1 = t.kind := congrArg Token.kind hget
    have hlast : scope.kindAt (s.goTo i) 2 = .closeBracketToken :=
      (congrArg Token.kind hclose).trans hc
    have hinteger : (scope.kindAt (s.goTo (i + 1)) 0).isIntegerLiteral = true := by
      rw [show scope.kindAt (s.goTo (i + 1)) 0 = t.kind from hnext, hsize]
    have hbump' : Straight r scope (s.goTo (i + 1)) bump _ (i + 2) :=
      .bump hget (Phrase.isIntegerLiteral_ne hsize).1
    have hexpect : Straight r scope (s.goTo (i + 2)) (expect .closeBracketToken) _ (i + 3) :=
      .expect hclose hc (by decide)
    refine ⟨?_, .look looks_mark (.bind hbump (.look (looks_kind 0) (.ite_pos hinteger
      (.bind hbump' (.give (.bind hexpect (.bind (hnode (i + 3) rfl) (.pure _ rfl))))))))⟩
    unfold Scope.typeOperator?
    rw [hkind, hnext, hlast, hsize]
    simp only [beq_self_eq_true, Bool.and_self, Bool.or_true]
    rfl

/-- Dimensions one after another. -/
theorem row_dimensions {r : Recursion} {ds : List DimensionPhrase} {i : Nat}
    (hw : ∀ d ∈ ds, d.WellFormed)
    (hs : scope.buffer.Shows i (ds.flatMap DimensionPhrase.tokens)) :
    Row (fun i d j => scope.typeOperator? (s.goTo i) = some dimensionOperator ∧
        Straight r scope (s.goTo i) arrayDimension d j) i (DimensionPhrase.trees ds i)
      (i + (ds.flatMap DimensionPhrase.tokens).length) := by
  induction ds generalizing i with
  | nil => exact .nil i
  | cons d ds ih =>
    rw [List.flatMap_cons, Buffer.Shows.append] at hs
    have htail := ih (fun d hd => hw d (List.mem_cons_of_mem _ hd)) hs.2
    rw [List.flatMap_cons, List.length_append, ← Nat.add_assoc]
    exact .cons (straight_dimension (hw d List.mem_cons_self) hs.1) htail

theorem length_trees (ds : List DimensionPhrase) (i : Nat) :
    (DimensionPhrase.trees ds i).length ≤ (ds.flatMap DimensionPhrase.tokens).length := by
  induction ds generalizing i with
  | nil => exact Nat.le_refl _
  | cons d ds ih =>
    have htail := ih (i + d.tokens.length)
    have hd : 0 < d.tokens.length := Nat.succ_pos _
    rw [DimensionPhrase.trees, List.length_cons, List.flatMap_cons, List.length_append]
    omega

/-- Where no bracket opens there is no dimension. -/
theorem not_dimension (h : scope.kindAt s 0 ≠ .openBracketToken) :
    ¬((scope.typeOperator? s).map Operator.node == some .arrayTypeName) = true := by
  rw [beq_iff_eq]
  intro hd
  obtain ⟨op, hop, hnode⟩ := Option.map_eq_some_iff.mp hd
  unfold Scope.typeOperator? at hop
  split at hop
  · exact h ‹_›
  · split at hop <;> cases hop
    cases hnode
  · unfold Operator.typeName? at hop
    split at hop <;> cases hop
    · exact h ‹_›
    · cases hnode
    · cases hnode

theorem straight_dimensions {r : Recursion} {ds : List DimensionPhrase} {i : Nat}
    (hw : ∀ d ∈ ds, d.WellFormed) (hs : scope.buffer.Shows i (ds.flatMap DimensionPhrase.tokens))
    (hend : scope.kindAt (s.goTo (i + (ds.flatMap DimensionPhrase.tokens).length)) 0 ≠
      .openBracketToken)
    (hr : (ds.flatMap DimensionPhrase.tokens).length < r.steps) :
    Straight r scope (s.goTo i) (Parse.many do
      if (← typeOperator?).map Operator.node == some .arrayTypeName then
        return some (← arrayDimension)
      else return none) (DimensionPhrase.trees ds i)
      (i + (ds.flatMap DimensionPhrase.tokens).length) := by
  refine (row_dimensions (s := s) (r := r) hw hs).many (fun i d j hstep => ?_) ?_ ?_
  · obtain ⟨hop, hstraight⟩ := hstep
    refine .look looks_typeOperator? (.ite_pos ?_ (.bind hstraight (.pure _ rfl)))
    rw [hop]
    rfl
  · exact .look looks_typeOperator? (.ite_neg (not_dimension hend) (.pure _ rfl))
  · exact Nat.lt_of_le_of_lt (length_trees ds i) hr

theorem climbs_array {element : TypePhrase} {dimensions : List DimensionPhrase}
    (ih : element.Climbs) : (array element dimensions).Climbs := by
  intro levels scope s power h hr hu hp
  obtain ⟨⟨hunion, harray⟩, hw, hne, hdimensions⟩ := h.wellFormed
  obtain ⟨helement, hbehind⟩ := Buffer.Shows.append.mp h.shows
  obtain ⟨d, ds, rfl⟩ := List.exists_cons_of_ne_nil hne
  have hd := hdimensions d List.mem_cons_self
  have hfirst := hbehind
  rw [List.flatMap_cons, Buffer.Shows.append] at hfirst
  have hl : (array element (d :: ds)).tokens.length =
      element.tokens.length + ((d :: ds).flatMap DimensionPhrase.tokens).length := by
    simp [tokens]
  have hpositive : 0 < ((d :: ds).flatMap DimensionPhrase.tokens).length := by
    simp [DimensionPhrase.tokens]
  have hplaced : element.Placed scope.buffer s.position := by
    refine ⟨hw, helement, ?_⟩
    rw [Buffer.Shows.get hfirst.1.1, hd.opening]
    cases element with
    | array e ds => cases harray
    | union first more => cases hunion
    | _ => simp [continuations]
  have hpower : power ≤ TypePower.nullable.toNat := hp
  have helementPower : power ≤ element.power := by
    rw [TypePhrase.power, hunion]
    exact hpower
  have hlevels := hr.levels
  obtain ⟨n, rfl⟩ := Nat.exists_eq_add_of_le' hlevels
  obtain ⟨k, hk, hclimb⟩ := ih hplaced (hr.mono (by omega) (Nat.le_succ _)) hu helementPower
  have looks : Looks typeRule.operator? Scope.typeOperator? := looks_typeOperator?
  have hoperator := (straight_dimension (r := recursion 0) (s := s) hd hfirst.1).1
  have hj : s.position + element.tokens.length +
      ((d :: ds).flatMap DimensionPhrase.tokens).length =
        s.position + (array element (d :: ds)).tokens.length := by omega
  have hread : Straight (recursion (n + ((array element (d :: ds)).tokens.length + 2))) scope
      (s.goTo (s.position + element.tokens.length)) _ _ _ :=
    straight_dimensions hdimensions hbehind
      (by rw [hj]; exact fun he => h.ended (List.mem_singleton.mpr he))
      (by change _ < n + (array element (d :: ds)).tokens.length + 1; omega)
  rw [hj] at hread
  have hnode : Straight (recursion (n + ((array element (d :: ds)).tokens.length + 2))) scope
      (s.goTo (s.position + (array element (d :: ds)).tokens.length))
      (finish s.mark .arrayTypeName)
      (.over .arrayTypeName s.position (array element (d :: ds)).tokens)
      (s.position + (array element (d :: ds)).tokens.length) :=
    .finish (s := s.goTo _) _ h.shows (by simp [tokens, DimensionPhrase.tokens]) rfl
  exact ⟨k + 1, by omega, hclimb.again looks hu hoperator (Nat.le_succ_of_le hpower)
    (.bind hread (.bind hnode (.pure _ rfl)))⟩

end TypePhrase

/-! ### Types behind separators -/

namespace TypePhrases

open TypePhrase

/-- The types are read with this power to their ends. -/
def AtLeast (power : Nat) : TypePhrases → Prop
  | .nil => True
  | .cons _ head tail => power ≤ head.power ∧ tail.AtLeast power

theorem atLeast_lowest : ∀ ts : TypePhrases, ts.AtLeast TypePower.lowest.toNat
  | .nil => trivial
  | .cons _ _ tail => ⟨Nat.zero_le _, atLeast_lowest tail⟩

theorem Flat.atLeast : ∀ {ts : TypePhrases}, ts.Flat → ts.AtLeast TypePower.nullable.toNat
  | .nil, _ => trivial
  | .cons _ head _, h => by
    obtain ⟨hhead, htail⟩ := h
    refine ⟨?_, Flat.atLeast htail⟩
    rw [TypePhrase.power, hhead]
    exact Nat.le_refl _

theorem length_trees : ∀ (ts : TypePhrases) (i : Nat), (ts.trees i).length ≤ ts.tokens.length
  | .nil, _ => Nat.le_refl _
  | .cons _ head tail, i => by
    have htail := length_trees tail (i + 1 + head.tokens.length)
    rw [trees, tokens, List.length_cons, List.length_cons, List.length_append]
    omega

/-- What begins here is a separator, or there is no type. -/
theorem WellFormed.kind_first {b : Buffer} {i : Nat} {separators : Kind} {ts : TypePhrases}
    (h : ts.WellFormed separators) (hs : b.Shows i ts.tokens) :
    (b.get i).kind = separators ∨ ts.tokens = [] := by
  cases ts with
  | nil => exact .inr rfl
  | cons separator head tail =>
    rw [Buffer.Shows.get hs.1]
    exact .inl h.1

/-- A separator, a type, and so on, up to a token that ends the last type. -/
theorem row {separators : Kind} (hsep : EndsType power separators) (hu : s.unwinding = false) :
    ∀ {ts : TypePhrases} {i : Nat}, ts.Climb → ts.WellFormed separators → ts.AtLeast power →
      scope.buffer.Shows i ts.tokens →
      EndsType power (scope.buffer.get (i + ts.tokens.length)).kind →
      Room levels scope ts.tokens.length (ts.size + 1) →
      Row (fun i t j => scope.kindAt (s.goTo i) 0 = separators ∧
          startsType (scope.kindAt (s.goTo i) 1) = true ∧
          Straight (recursion levels) scope (s.goTo (i + 1)) (Parse.call (.typeName power)) t j)
        i (ts.trees i) (i + ts.tokens.length)
  | .nil, i, _, _, _, _, _, _ => .nil i
  | .cons separator head tail, i, hc, hw, hp, hs, he, hr => by
    obtain ⟨hhead, htail⟩ := hc
    obtain ⟨hk, hwh, hwt⟩ := hw
    obtain ⟨hph, hpt⟩ := hp
    obtain ⟨hseparator, hbehind⟩ := hs
    obtain ⟨hshead, hstail⟩ := Buffer.Shows.append.mp hbehind
    have hl : (cons separator head tail).tokens.length =
        head.tokens.length + tail.tokens.length + 1 := by simp [tokens]
    have hn : (cons separator head tail).size = head.size + tail.size := rfl
    have hj : i + 1 + head.tokens.length + tail.tokens.length =
        i + (cons separator head tail).tokens.length := by omega
    rw [← hj] at he ⊢
    have hend : EndsType power (scope.buffer.get (i + 1 + head.tokens.length)).kind := by
      rcases hwt.kind_first hstail with hkind | hempty
      · rw [hkind]
        exact hsep
      · rwa [hempty] at he
    have hread := hhead.call (s := s.goTo (i + 1)) hwh hshead hph hend
      (hr.mono (by omega) (by omega)) hu
    obtain ⟨first, rest, hts, hfirst⟩ := hwh.exists_first
    have hstarts : startsType (scope.kindAt (s.goTo i) 1) = true := by
      rw [hts] at hshead
      rw [show scope.kindAt (s.goTo i) 1 = first.kind from
        congrArg Token.kind (Buffer.Shows.get hshead.1)]
      exact hfirst
    exact .cons ⟨(congrArg Token.kind (Buffer.Shows.get hseparator)).trans hk, hstarts, hread⟩
      (row hsep hu htail hwt hpt hstail he (hr.mono (by omega) (by omega)))

end TypePhrases

namespace TypePhrase

theorem climbs_tuple {opening closing : Token} {first : TypePhrase} {more : TypePhrases}
    (ih : first.Climbs) (ihm : more.Climb) : (tuple opening first more closing).Climbs := by
  refine Climbs.of_primary (List.cons_ne_nil _ _) fun levels scope s h hr hu => ?_
  obtain ⟨ho, hw, hne, hwm, hc⟩ := h.wellFormed
  obtain ⟨hopening, hbehind⟩ := h.shows
  obtain ⟨hfirst, hbehind⟩ := Buffer.Shows.append.mp hbehind
  obtain ⟨hmore, hclosing, -⟩ := Buffer.Shows.append.mp hbehind
  have hopen := Buffer.Shows.get hopening
  have hclose := Buffer.Shows.get hclosing
  have hl : (tuple opening first more closing).tokens.length =
      first.tokens.length + more.tokens.length + 2 := by
    simp [tokens]
    omega
  have hn : (tuple opening first more closing).size = first.size + more.size + 1 := rfl
  have hcomma : (scope.buffer.get (s.position + 1 + first.tokens.length)).kind =
      .commaToken := by
    rcases hwm.kind_first hmore with hkind | hempty
    · exact hkind
    · cases more with
      | nil => cases hne
      | cons => cases hempty
  have hends : ∀ k, k = .commaToken ∨ k = .closeParenToken →
      EndsType TypePower.lowest.toNat k := by
    rintro k (rfl | rfl)
    · exact .of_mem (by decide)
    · exact .of_mem (by decide)
  have hbump : Straight (recursion levels) scope s bump _ (s.position + 1) :=
    .bump hopen (by rw [ho]; decide)
  obtain ⟨t, ts, hts, ht⟩ := hw.exists_first
  have hnext : scope.kindAt (s.goTo (s.position + 1)) 0 ≠ .closeParenToken := by
    rw [hts] at hfirst
    rw [Scope.kindAt_zero (Buffer.Shows.get hfirst.1)]
    intro hk
    rw [hk] at ht
    cases ht
  have hread : Straight (recursion levels) scope (s.goTo (s.position + 1)) typeName _ _ :=
    ih.call (s := s.goTo (s.position + 1)) hw hfirst (Nat.zero_le _) (hends _ (.inl hcomma))
      (hr.mono (by omega) (by omega)) hu
  have hrow := TypePhrases.row (hends _ (.inl rfl)) hu ihm hwm more.atLeast_lowest hmore
    (hends _ (.inr (by rw [hclose, hc]))) (hr.mono (by omega) (by omega))
  have hlevels := hr.levels
  obtain ⟨n, rfl⟩ := Nat.exists_eq_add_of_le' hlevels
  have hrest : Straight (recursion (n + ((tuple opening first more closing).tokens.length + 2)))
      scope (s.goTo (s.position + 1 + first.tokens.length)) (moreBehind .commaToken typeName)
      (more.trees (s.position + 1 + first.tokens.length))
      (s.position + 1 + first.tokens.length + more.tokens.length) := by
    refine hrow.moreBehind (fun i a j hstep => ⟨hstep.1, hstep.2.2⟩) hu (by decide) ?_ ?_
    · rw [Scope.kindAt_zero hclose, hc]
      decide
    · have hlength := more.length_trees (s.position + 1 + first.tokens.length)
      change _ < n + (tuple opening first more closing).tokens.length + 1
      omega
  have hexpect : Straight (recursion (n + ((tuple opening first more closing).tokens.length + 2)))
      scope (s.goTo (s.position + 1 + first.tokens.length + more.tokens.length))
      (expectClosing (opening.leaf s.position) .closeParenToken "tuple type") _
      (s.position + 1 + first.tokens.length + more.tokens.length + 1) :=
    .expectClosing hclose hc (by decide)
  have hnode : Straight (recursion (n + ((tuple opening first more closing).tokens.length + 2)))
      scope (s.goTo (s.position + 1 + first.tokens.length + more.tokens.length + 1))
      (finishDelimited s.mark .tupleTypeName
        (closing.leaf (s.position + 1 + first.tokens.length + more.tokens.length)))
      (.over .tupleTypeName s.position (tuple opening first more closing).tokens)
      (s.position + (tuple opening first more closing).tokens.length) := by
    have hj : s.position + 1 + first.tokens.length + more.tokens.length + 1 =
      s.position + (tuple opening first more closing).tokens.length := by omega
    rw [hj]
    exact .finishDelimited (s := s.goTo _) _ h.shows (List.cons_ne_nil _ _) rfl rfl
  have hat : ¬(!(scope.kindAt (s.goTo (s.position + 1 + first.tokens.length)) 0 ==
      .commaToken)) = true := by
    rw [show scope.kindAt (s.goTo (s.position + 1 + first.tokens.length)) 0 = .commaToken from
      hcomma]
    decide
  refine .look looks_mark (.look (looks_kind 0) (.look (looks_isKind _ _) ?_))
  rw [Scope.kindAt_zero hopen, ho]
  exact .bind hbump (.bind (.accept_no hnext) (.ite_neg nofun (.bind hread
    (.look (looks_atKind _) (.ite_neg hat (.bind hrest (.bind hexpect
      (.bind hnode (.pure _ rfl)))))))))

/-- The operator of unions. -/
def memberOperator : Operator := ⟨TypePower.union.toNat, .left, .postfixOp, .unionTypeName⟩

theorem climbs_union {first : TypePhrase} {more : TypePhrases} (ih : first.Climbs)
    (ihm : more.Climb) : (union first more).Climbs := by
  intro levels scope s power h hr hu hp
  obtain ⟨hunion, hw, hne, hflat, hwm⟩ := h.wellFormed
  obtain ⟨hfirst, hmore⟩ := Buffer.Shows.append.mp h.shows
  have hl : (union first more).tokens.length = first.tokens.length + more.tokens.length := by
    simp [tokens]
  have hn : (union first more).size = first.size + more.size + 1 := rfl
  have hlevels := hr.levels
  obtain ⟨n, rfl⟩ := Nat.exists_eq_add_of_le' hlevels
  have hj : s.position + first.tokens.length + more.tokens.length =
      s.position + (union first more).tokens.length := by omega
  have hbar : EndsType TypePower.nullable.toNat .barToken := ⟨by decide, fun _ => by decide⟩
  have hend : (scope.buffer.get (s.position + (union first more).tokens.length)).kind ∉
      (union first more).continuations := h.ended
  simp only [continuations, List.mem_cons, List.not_mem_nil, or_false, not_or] at hend
  have hstop : EndsType TypePower.nullable.toNat
      (scope.buffer.get (s.position + first.tokens.length + more.tokens.length)).kind := by
    rw [hj]
    exact ⟨by simp [hend], fun hk => absurd hk hend.2.2.2.2⟩
  have hrow := TypePhrases.row (s := s) hbar hu ihm hwm hflat.atLeast hmore hstop
    (hr.mono (by omega) (by omega))
  rw [hj] at hrow
  -- The first member ends before the first bar, behind which a type begins.
  obtain ⟨separator, head, tail, rfl⟩ : ∃ separator head tail, more = .cons separator head tail := by
    cases more with
    | nil => cases hne
    | cons separator head tail => exact ⟨separator, head, tail, rfl⟩
  have hpositive : 0 < (TypePhrases.cons separator head tail).tokens.length := Nat.succ_pos _
  obtain ⟨hkind, hstarts⟩ : scope.kindAt (s.goTo (s.position + first.tokens.length)) 0 =
      .barToken ∧ startsType (scope.kindAt (s.goTo (s.position + first.tokens.length)) 1) =
        true := by
    cases hrow with
    | cons hhead htail => exact ⟨hhead.1, hhead.2.1⟩
  have hplaced : first.Placed scope.buffer s.position := by
    refine ⟨hw, hfirst, not_mem_continuations_of_not_union hunion ?_⟩
    rw [show (scope.buffer.get (s.position + first.tokens.length)).kind = .barToken from hkind]
    decide
  have hpower : power ≤ TypePower.union.toNat := hp
  have hfirstPower : power ≤ first.power := by
    rw [TypePhrase.power, hunion]
    exact Nat.le_succ_of_le hpower
  obtain ⟨k, hk, hclimb⟩ := ih hplaced (hr.mono (by omega) (by omega)) hu hfirstPower
  have looks : Looks typeRule.operator? Scope.typeOperator? := looks_typeOperator?
  have hoperator : scope.typeOperator? (s.goTo (s.position + first.tokens.length)) =
      some memberOperator := Scope.typeOperator?_bar hkind hstarts
  have hmany : Straight
      (recursion (n + ((union first (.cons separator head tail)).tokens.length + 2))) scope
      (s.goTo (s.position + first.tokens.length)) (Parse.many do
        if !(← isUnwinding) && (← atKind .barToken) && startsType (← kind 1) then
          let _ ← bump
          return some (← typeNameAt .nullable)
        else return none)
      ((TypePhrases.cons separator head tail).trees (s.position + first.tokens.length))
      (s.position + (union first (.cons separator head tail)).tokens.length) := by
    refine hrow.many (fun i a j hstep => ?_) ?_ ?_
    · obtain ⟨hbarAt, htype, hread⟩ := hstep
      have hbump : Straight
          (recursion (n + ((union first (.cons separator head tail)).tokens.length + 2))) scope
          (s.goTo i) bump _ (i + 1) :=
        .bump rfl (by change scope.kindAt (s.goTo i) 0 ≠ _; rw [hbarAt]; decide)
      refine .look looks_isUnwinding (.look (looks_atKind _) (.look (looks_kind 1) (.ite_pos ?_
        (.bind hbump (.bind hread (.pure _ rfl))))))
      rw [hbarAt, htype, State.goTo_unwinding, hu]
      rfl
    · refine .look looks_isUnwinding (.look (looks_atKind _) (.look (looks_kind 1)
        (.ite_neg ?_ (.pure _ rfl))))
      rw [Bool.and_eq_true, Bool.and_eq_true, beq_iff_eq]
      exact fun hat => hend.2.2.2.2 hat.1.2
    · have hlength := (TypePhrases.cons separator head tail).length_trees
        (s.position + first.tokens.length)
      change _ < n + (union first (.cons separator head tail)).tokens.length + 1
      omega
  have hnode : Straight
      (recursion (n + ((union first (.cons separator head tail)).tokens.length + 2))) scope
      (s.goTo (s.position + (union first (.cons separator head tail)).tokens.length))
      (finish s.mark .unionTypeName)
      (.over .unionTypeName s.position (union first (.cons separator head tail)).tokens)
      (s.position + (union first (.cons separator head tail)).tokens.length) :=
    .finish (s := s.goTo _) _ h.shows (by simp [tokens, TypePhrases.tokens]) rfl
  exact ⟨k + 1, by omega, hclimb.again looks hu hoperator hpower
    (.bind hmany (.bind hnode (.pure _ rfl)))⟩

end TypePhrase

mutual

/-- By induction on the type, in which every case climbs to the root of what it is made of. -/
theorem TypePhrase.climbs : ∀ t : TypePhrase, t.Climbs
  | .builtin keyword => TypePhrase.climbs_builtin keyword
  | .name n => TypePhrase.climbs_name n
  | .unit opening closing => TypePhrase.climbs_unit opening closing
  | .group _ inner _ => TypePhrase.climbs_group inner.climbs
  | .tuple _ first more _ => TypePhrase.climbs_tuple first.climbs more.climb
  | .constrained _ _ constraint _ => TypePhrase.climbs_constrained constraint.climbs
  | .array element _ => TypePhrase.climbs_array element.climbs
  | .nullable inner _ => TypePhrase.climbs_nullable inner.climbs
  | .union first more => TypePhrase.climbs_union first.climbs more.climb

theorem TypePhrases.climb : ∀ ts : TypePhrases, ts.Climb
  | .nil => trivial
  | .cons _ head tail => ⟨head.climbs, tail.climb⟩

end

end Reading

/-- A well-formed type in front of a token that ends types is read back: the type name that it is at
this place, all of its tokens taken, and nothing else changed, so that no error is counted or
recorded. It takes as many levels of nesting as the type is made of types, and one more. A type that
is no union is read back also where no unions are read. -/
theorem typeName_readsBack (t : TypePhrase) (stop : Token) {levels : Nat} {scope : Scope}
    {s : State} (hw : t.WellFormed) (hs : scope.buffer.Shows s.position (t.tokens ++ [stop]))
    (hstop : stop.kind ∈ typeEnds) (hu : s.unwinding = false)
    (hd : scope.depth + t.size < scope.options.maxNestingDepth)
    (hl : t.tokens.length + 3 ≤ levels) :
    typeName (recursion levels) scope s =
        some (t.tree s.position, { s with position := s.position + t.tokens.length }) ∧
      (t.isUnion = false → typeNameAt .nullable (recursion levels) scope s =
        some (t.tree s.position, { s with position := s.position + t.tokens.length })) := by
  obtain ⟨hshows, hend, -⟩ := Buffer.Shows.append.mp hs
  have hget := Buffer.Shows.get hend
  have hread : ∀ power, power ≤ t.power →
      Straight (recursion levels) scope s (Parse.call (.typeName power)) (t.tree s.position)
        (s.position + t.tokens.length) := by
    intro power hpower
    refine t.climbs.call hw hshows hpower ?_ ⟨hl, hd⟩ hu
    rw [hget]
    exact .of_mem hstop
  constructor
  · exact hread _ (Nat.zero_le _)
  · intro hunion
    refine hread _ ?_
    rw [TypePhrase.power, hunion]
    exact Nat.le_refl _

/-- `map<p:a?>[3][]|(int,())` -/
def TypePhrase.mixture : TypePhrase :=
  .union
    (.array
      (.constrained (.fixed .mapKeyword 0) (.fixed .lessThanToken 3)
        (.nullable
          (.name (.qualified (.place .identifier "p" 4) (.fixed .colonToken 5)
            (.place .identifier "a" 6)))
          (.fixed .questionToken 7))
        (.fixed .greaterThanToken 8))
      [⟨.fixed .openBracketToken 9, some (.place .decimalIntegerLiteral "3" 10),
          .fixed .closeBracketToken 11⟩,
        ⟨.fixed .openBracketToken 12, none, .fixed .closeBracketToken 13⟩])
    (.cons (.fixed .barToken 14)
      (.tuple (.fixed .openParenToken 15) (.builtin (.fixed .intKeyword 16))
        (.cons (.fixed .commaToken 19)
          (.unit (.fixed .openParenToken 20) (.fixed .closeParenToken 21)) .nil)
        (.fixed .closeParenToken 22))
      .nil)

def TypePhrase.mixtureScope : Scope where
  buffer := .ofSource { tokens := mixture.tokens ++ [.fixed .semicolonToken 23, .endOfFile 24] }
  options := {}
  file := "mixture.bal"

theorem mixture_readsBack :
    typeName (recursion 24) TypePhrase.mixtureScope {} =
      some (TypePhrase.mixture.tree 0, { position := 19 }) :=
  (typeName_readsBack TypePhrase.mixture (.fixed .semicolonToken 23)
    (by
      refine ⟨rfl, ⟨⟨rfl, rfl⟩, ⟨⟨rfl, by decide⟩, rfl, ⟨rfl, rfl, rfl⟩, rfl⟩, nofun, ?_⟩,
        rfl, ⟨rfl, trivial⟩, rfl, ⟨rfl, rfl, rfl, ⟨rfl, ⟨rfl, rfl⟩, trivial⟩, rfl⟩, trivial⟩
      intro d hd
      simp only [List.mem_cons, List.not_mem_nil, or_false] at hd
      obtain rfl | rfl := hd
      · refine ⟨rfl, ?_, rfl⟩
        rintro _ ⟨⟩
        rfl
      · exact ⟨rfl, (fun _ h => nomatch h), rfl⟩)
    (by simp only [TypePhrase.mixture]; repeat constructor) (by decide) rfl (by decide)
    (by decide)).1

end BallerinaSyntax
