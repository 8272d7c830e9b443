import BallerinaSyntax.Proofs.Phrase.Name

/-!
Climbing reads phrases back. Wherever a well-formed phrase stands, and what follows it neither goes
on with a name nor binds more tightly than its last operand allows, a climb with at most the power of
its root comes to a round in which the phrase is its left operand. A climb that has to stop there
gives the phrase.
-/

namespace BallerinaSyntax

open Grammar Parse

/-- Tokens that make more of a name before them than a variable. -/
def nameSuffixes : List Kind := [
  .openParenToken, .openBracketToken, .dotToken, .exclamationToken, .atToken, .rightArrowToken]

namespace Phrase

/-- A well-formed phrase stands at an index, and what follows it is not read as a part of it. -/
structure Placed (b : Buffer) (i : Nat) (e : Phrase) : Prop where
  wellFormed : e.WellFormed
  shows : b.Shows i e.tokens
  unqualified : ∀ j, i ≤ j → j < i + e.tokens.length → b.qualifiedAt j = false
  ended : (b.get (i + e.tokens.length)).kind ∉ nameSuffixes
  closed : ∀ op, e.operator? = some op →
    Operator.Stops (Operator.expression? (b.get (i + e.tokens.length)).kind) op.rightPower

/-- There are levels enough to read a phrase of some size, both of the recursion and of nesting. -/
structure Room (levels : Nat) (scope : Scope) (size : Nat) : Prop where
  levels : size + 2 ≤ levels
  depth : scope.depth + size ≤ scope.options.maxNestingDepth

theorem Room.mono {levels m n : Nat} {scope : Scope} (h : Room levels scope n) (hm : m ≤ n) :
    Room levels scope m :=
  ⟨Nat.le_trans (Nat.add_le_add_right hm 2) h.levels,
    Nat.le_trans (Nat.add_le_add_left hm _) h.depth⟩

end Phrase

/-! ## Names -/

section Names

variable {levels : Nat} {scope : Scope} {s : State} {t : Token}

theorem Operator.reference?_eq_none {k next afterNext : Kind} {anyNames : Bool}
    (h : k ∉ nameSuffixes) : Operator.reference? k next afterNext anyNames = none := by
  unfold Operator.reference?
  split
  case h_5 => rfl
  all_goals exact absurd (by decide) h

theorem straight_referencePrimary (ht : scope.buffer.Shows s.position [t])
    (hk : t.kind = .identifier) (hq : scope.buffer.qualifiedAt s.position = false)
    (he : (scope.buffer.get (s.position + 1)).kind ∉ nameSuffixes) :
    Straight (recursion levels) scope s referencePrimary
      (.simpleReference (.over .simpleVariableReference s.position [t])
        { info := .over .nameReference s.position [t]
          package := none
          name := t.named s.position }) (s.position + 1) := by
  have hat : (scope.kindAt s 0 == .identifier) = true := by
    rw [Scope.kindAt_zero (Buffer.Shows.get ht.1), hk]
    rfl
  have hp : ¬(scope.kindAt (s.goTo (s.position + 1)) 0 == .openParenToken) = true := by
    intro hp
    rw [beq_iff_eq] at hp
    exact he (by rw [show (scope.buffer.get (s.position + 1)).kind = _ from hp]; decide)
  refine .look looks_mark (.look (looks_atKind _) (.look looks_isCall (.ite_neg ?_ ?_)))
  · rw [hat]
    simp
  refine .bind (straight_nameReference ht hk hq) (.look (looks_atKind _) (.ite_neg hp ?_))
  refine .bind ?_ (.pure _ rfl)
  exact .finish (s := s.goTo (s.position + 1)) _ ht (List.cons_ne_nil _ _) rfl

theorem straight_reference (ht : scope.buffer.Shows s.position [t])
    (hk : t.kind = .identifier) (hq : scope.buffer.qualifiedAt s.position = false)
    (he : (scope.buffer.get (s.position + 1)).kind ∉ nameSuffixes) (hu : s.unwinding = false)
    (hl : 3 ≤ levels) (hd : scope.depth < scope.options.maxNestingDepth) :
    Straight (recursion levels) scope s reference
      (.simpleReference (.over .simpleVariableReference s.position [t])
        { info := .over .nameReference s.position [t]
          package := none
          name := t.named s.position }) (s.position + 1) := by
  obtain ⟨n, rfl⟩ := Nat.exists_eq_add_of_le' hl
  have looks : Looks referenceRule.operator? _ := looks_referenceOperator?
  refine .call (.nested hd ((ClimbsTo.primary ?_).done (Nat.succ_pos n) looks hu fun op hop => ?_))
  · exact straight_referencePrimary ht hk hq he
  · cases (Operator.reference?_eq_none he).symm.trans hop

end Names

/-! ## Operands -/

theorem startsLiteral_eq_false {k next : Kind} (hk : startsSimpleLiteral k = false)
    (hm : k = .minusToken → isNumber next = false)
    (hp : k = .openParenToken → next ≠ .closeParenToken) :
    ¬(startsSimpleLiteral k || (k == .minusToken && isNumber next) ||
      (k == .openParenToken && next == .closeParenToken)) = true := by
  simp only [Bool.or_eq_true, Bool.and_eq_true, beq_iff_eq]
  rintro ((h | ⟨h, hn⟩) | ⟨h, hn⟩)
  · exact Bool.false_ne_true (hk.symm.trans h)
  · exact Bool.false_ne_true ((hm h).symm.trans hn)
  · exact hp h hn

theorem Scope.isActionInvocation_eq_false {scope : Scope} {s : State}
    (hq : scope.buffer.qualifiedAt s.position = false)
    (he : (scope.buffer.get (s.position + 1)).kind ∉ nameSuffixes) :
    ¬scope.isActionInvocation s 0 = true := by
  change ¬(scope.kindAt s 0 == .identifier &&
    (scope.kindAt s (0 + if scope.buffer.qualifiedAt s.position = true then 3 else 1) ==
      .rightArrowToken && _ && _)) = true
  rw [hq, if_neg Bool.false_ne_true]
  simp only [Bool.and_eq_true, beq_iff_eq]
  rintro ⟨-, ⟨ha, -⟩, -⟩
  exact he (by rw [show (scope.buffer.get (s.position + 1)).kind = _ from ha]; decide)

section Operands

variable {levels : Nat} {scope : Scope} {s : State}

namespace Phrase

/-- A phrase without an operator at its root is one primary. -/
def IsPrimary (levels : Nat) (scope : Scope) (s : State) (e : Phrase) : Prop :=
  Straight (recursion levels) scope s primaryExpression (e.tree s.position)
    (s.position + e.tokens.length)

theorem isPrimary_name {t : Token} (h : Placed scope.buffer s.position (.name t))
    (hr : Room levels scope 1) (hu : s.unwinding = false) :
    IsPrimary levels scope s (.name t) := by
  have hk : t.kind = .identifier := h.wellFormed
  have hkind : scope.kindAt s 0 = .identifier := by
    rw [Scope.kindAt_zero (Buffer.Shows.get h.shows.1), hk]
  have hq : scope.buffer.qualifiedAt s.position = false :=
    h.unqualified _ (Nat.le_refl _) (Nat.lt_succ_self _)
  refine .look looks_mark (.look looks_startsLiteral (.ite_neg ?_ (.look (looks_kind 0) ?_)))
  · rw [hkind]
    exact startsLiteral_eq_false (by decide) nofun nofun
  rw [hkind]
  refine .look (looks_isActionInvocation 0)
    (.ite_neg (Scope.isActionInvocation_eq_false hq h.ended) ?_)
  refine .bind (straight_reference h.shows hk hq h.ended hu hr.levels hr.depth)
    (.bind ?_ (.pure _ rfl))
  exact .finish (s := s.goTo (s.position + 1)) _ h.shows (List.cons_ne_nil _ _) rfl

/-! ### Numbers -/

theorem literalKind?_of_isIntegerLiteral {k : Kind} (h : k.isIntegerLiteral = true) :
    literalKind? k = some .integer := if_pos h

theorem isIntegerLiteral_ne {k : Kind} (h : k.isIntegerLiteral = true) :
    k ≠ .endOfFileToken ∧ k ≠ .openParenToken ∧ k ≠ .minusToken ∧ startsSimpleLiteral k = true := by
  revert h
  cases k <;> decide

/-- A number behind its sign, if it has one. -/
theorem straight_integer {r : Recursion} {sign : Option Token} {t : Token}
    (hs : scope.buffer.Shows s.position (sign.toList ++ [t]))
    (hk : t.kind.isIntegerLiteral = true) (hm : ∀ minus ∈ sign, minus.kind = .minusToken) :
    Straight r scope s simpleLiteral
      { info := .over .simpleLiteral s.position (sign.toList ++ [t])
        kind := .integer
        sign := sign.map (·.leaf s.position)
        value := t.leaf (s.position + sign.toList.length) }
      (s.position + (sign.toList ++ [t]).length) := by
  obtain ⟨hend, hopen, hminus, -⟩ := isIntegerLiteral_ne hk
  cases sign with
  | none =>
    have ht := Buffer.Shows.get hs.1
    have hkind := Scope.kindAt_zero ht
    refine .look looks_mark (.look (looks_atKind _) (.look (looks_isKind _ _) (.ite_neg ?_
      (.look (looks_atKind _) (.look (looks_kind 1) (.ite_neg ?_ (.give
        (.look (looks_kind 0) ?_))))))))
    · simp [hkind, hopen]
    · simp [hkind, hminus]
    rw [hkind, literalKind?_of_isIntegerLiteral hk]
    refine .bind (.bump ht hend) (.bind ?_ (.pure _ rfl))
    exact .finish (s := s.goTo (s.position + 1)) _ hs (List.cons_ne_nil _ _) rfl
  | some minus =>
    have hm := hm minus rfl
    have hg := Buffer.Shows.get hs.1
    have ht := Buffer.Shows.get hs.2.1
    have hkind := Scope.kindAt_zero hg
    have hnext : scope.kindAt s 1 = t.kind := congrArg Token.kind ht
    refine .look looks_mark (.look (looks_atKind _) (.look (looks_isKind _ _) (.ite_neg ?_
      (.look (looks_atKind _) (.look (looks_kind 1) (.ite_pos ?_ (.bind
        (.bump hg (by rw [hm]; decide)) (.give (.look (looks_kind 0) ?_)))))))))
    · simp [hkind, hm]
    · simp [hkind, hm, hnext, isNumber, hk]
    rw [show scope.kindAt (s.goTo (s.position + 1)) 0 = t.kind from hnext,
      literalKind?_of_isIntegerLiteral hk]
    refine .bind (.bump (s := s.goTo (s.position + 1)) ht hend) (.bind ?_ (.pure _ rfl))
    exact .finish (s := s.goTo (s.position + 2)) _ hs (List.cons_ne_nil _ _) rfl

theorem isPrimary_integer {sign : Option Token} {t : Token}
    (hs : scope.buffer.Shows s.position (sign.toList ++ [t])) (hk : t.kind.isIntegerLiteral = true)
    (hm : ∀ minus ∈ sign, minus.kind = .minusToken) :
    IsPrimary levels scope s (.integer sign t) := by
  refine .look looks_mark (.look looks_startsLiteral (.ite_pos ?_
    (.bind (straight_integer hs hk hm) (.pure _ rfl))))
  cases sign with
  | none =>
    rw [Scope.kindAt_zero (Buffer.Shows.get hs.1), (isIntegerLiteral_ne hk).2.2.2]
    rfl
  | some minus =>
    have hnext : scope.kindAt s 1 = t.kind := congrArg Token.kind (Buffer.Shows.get hs.2.1)
    rw [Scope.kindAt_zero (Buffer.Shows.get hs.1), hm minus rfl, hnext, isNumber, hk]
    rfl

/-! ### Phrases inside -/

/-- Wherever the phrase is placed, a climb with at most the power of its root reaches a round in
which the phrase is its left operand. -/
def Climbs (e : Phrase) : Prop :=
  ∀ ⦃levels : Nat⦄ ⦃scope : Scope⦄ ⦃s : State⦄ ⦃power : Nat⦄, Placed scope.buffer s.position e →
    Room levels scope e.size → s.unwinding = false → e.AtLeast power →
    ∃ k < e.size, ClimbsTo expressionRule power (recursion levels) scope s k (e.tree s.position)
      (s.position + e.tokens.length)

theorem climbs_of_isPrimary {e : Phrase}
    (h : ∀ ⦃levels : Nat⦄ ⦃scope : Scope⦄ ⦃s : State⦄, Placed scope.buffer s.position e →
      Room levels scope e.size → s.unwinding = false → IsPrimary levels scope s e) : e.Climbs :=
  fun _ _ _ _ hp hr hu _ => ⟨0, e.size_pos, .primary (h hp hr hu)⟩

/-- A phrase is read as an operand that ends where the phrase does. -/
theorem Climbs.call {e : Phrase} (h : e.Climbs) (power : Nat)
    (hp : Placed scope.buffer s.position e) (hr : Room levels scope (e.size + 1))
    (hu : s.unwinding = false) (ha : e.AtLeast power)
    (hs : Operator.Stops
      (Operator.expression? (scope.buffer.get (s.position + e.tokens.length)).kind) power) :
    Straight (recursion levels) scope s (Parse.call (.expression power)) (e.tree s.position)
      (s.position + e.tokens.length) := by
  obtain ⟨n, rfl⟩ := Nat.exists_eq_add_of_le' hr.levels
  have hd := hr.depth
  have hroom : Room (e.size + n + 2) { scope with depth := scope.depth + 1 } e.size :=
    ⟨by omega, by change scope.depth + 1 + e.size ≤ scope.options.maxNestingDepth; omega⟩
  obtain ⟨k, hk, hc⟩ := @h _ { scope with depth := scope.depth + 1 } s power hp hroom hu ha
  have looks : Looks expressionRule.operator? Scope.expressionOperator? := looks_expressionOperator?
  rw [show n + (e.size + 1 + 2) = e.size + n + 2 + 1 by omega]
  refine .call (.nested (by omega) (hc.done ?_ looks hu fun op hop => ?_))
  · change k < e.size + n + 1
    omega
  · exact hs op (Scope.expression_of_expressionOperator hop)

/-- A part of a phrase is placed, too, if the token behind it ends it. -/
theorem Placed.part {b : Buffer} {i n : Nat} {outer : Phrase} (h : Placed b i outer)
    (before : List Token) (e : Phrase) (t : Token) (after : List Token)
    (hts : outer.tokens = before ++ (e.tokens ++ t :: after))
    (hn : before.length = n) (hw : e.WellFormed) (ht : t.kind ∉ nameSuffixes)
    (hc : ∀ op, e.operator? = some op →
      Operator.Stops (Operator.expression? t.kind) op.rightPower) :
    Placed b (i + n) e ∧ b.get (i + n + e.tokens.length) = t := by
  subst hn
  have hs := h.shows
  rw [hts, Buffer.Shows.append, Buffer.Shows.append] at hs
  have hg := Buffer.Shows.get hs.2.2.1
  refine ⟨⟨hw, hs.2.1, fun j hi hj => h.unqualified j (by omega) ?_, by rwa [hg], by rwa [hg]⟩, hg⟩
  rw [hts]
  simp only [List.length_append, List.length_cons]
  omega

/-- The last part of a phrase is placed, too. -/
theorem Placed.lastPart {b : Buffer} {i n : Nat} {outer : Phrase} (h : Placed b i outer)
    (before : List Token) (e : Phrase) (hts : outer.tokens = before ++ e.tokens) (hn : before.length = n)
    (hw : e.WellFormed)
    (hc : ∀ op, e.operator? = some op → Operator.Stops
      (Operator.expression? (b.get (i + outer.tokens.length)).kind) op.rightPower) :
    Placed b (i + n) e ∧ i + n + e.tokens.length = i + outer.tokens.length := by
  subst hn
  have hl : i + before.length + e.tokens.length = i + outer.tokens.length := by
    rw [hts, List.length_append, Nat.add_assoc]
  have hs := h.shows
  rw [hts, Buffer.Shows.append] at hs
  refine ⟨⟨hw, hs.2, fun j hi hj => h.unqualified j (by omega) (by omega), ?_, ?_⟩, hl⟩
  · rw [hl]
    exact h.ended
  · rw [hl]
    exact hc

theorem stops_none {power : Nat} {k : Kind} (h : Operator.expression? k = none) :
    Operator.Stops (Operator.expression? k) power := by
  rw [h]
  exact fun _ ho => by cases ho

theorem climbs_braced {opening closing : Token} {inner : Phrase} (ih : inner.Climbs) :
    (braced opening inner closing).Climbs := by
  refine climbs_of_isPrimary fun levels scope s h hr hu => ?_
  obtain ⟨ho, hw, hc⟩ := h.wellFormed
  have hopen := Buffer.Shows.get h.shows.1
  have hstop : ∀ power, Operator.Stops (Operator.expression? closing.kind) power :=
    fun _ => stops_none (by rw [hc]; rfl)
  obtain ⟨hin, hclose⟩ := h.part (n := 1) [opening] inner closing [] rfl rfl hw
    (by rw [hc]; decide) fun _ _ => hstop _
  -- The token behind the parenthesis does not close it, so this is no empty tuple.
  obtain ⟨t, ts, hts, hne⟩ := hw.exists_first
  have hnext : scope.kindAt s 1 = t.kind := by
    have hs := hin.shows
    rw [hts] at hs
    exact congrArg Token.kind (Buffer.Shows.get hs.1)
  have hread := ih.call (s := s.goTo (s.position + 1)) ExpressionPower.lowest.toNat hin hr hu
    (fun _ _ => Nat.zero_le _) (by rw [State.goTo_position, hclose]; exact hstop _)
  have hl : s.position + (braced opening inner closing).tokens.length =
      s.position + 1 + inner.tokens.length + 1 := by
    simp only [tokens, List.length_cons, List.length_append, List.length_nil]
    omega
  unfold IsPrimary
  rw [hl]
  refine .look looks_mark (.look looks_startsLiteral (.ite_neg ?_ (.look (looks_kind 0) ?_)))
  · rw [Scope.kindAt_zero hopen, ho, hnext]
    exact startsLiteral_eq_false (by decide) (fun h => absurd h (by decide)) fun _ => hne
  rw [Scope.kindAt_zero hopen, ho]
  refine .bind (.bump hopen (by rw [ho]; decide)) (.bind hread (.look (looks_atKind _)
    (.ite_pos ?_ (.bind (.expectClosing hclose hc (by decide)) (.bind ?_ (.pure _ rfl))))))
  · rw [Scope.kindAt_zero hclose, hc]
    rfl
  · exact .finishDelimited (s := s.goTo _) _ h.shows (List.cons_ne_nil _ _) hl.symm rfl

theorem climbs_prefixed {operator : Token} {operand : Phrase} (ih : operand.Climbs) :
    (prefixed operator operand).Climbs := by
  refine climbs_of_isPrimary fun levels scope s h hr hu => ?_
  obtain ⟨hp, hminus, hop, hw⟩ := h.wellFormed
  have hfirst := Buffer.Shows.get h.shows.1
  have hnone : ∀ op, operand.operator? ≠ some op := fun op ho => by cases hop.symm.trans ho
  obtain ⟨hin, hl⟩ := h.lastPart (n := 1) [operator] operand rfl rfl hw
    fun op ho => absurd ho (hnone op)
  have hread := ih.call (s := s.goTo (s.position + 1)) ExpressionPower.unary.toNat hin hr hu
    (fun op ho => absurd ho (hnone op)) fun op ho => Operator.power_lt_unary ho
  -- A number behind a minus would have made it a literal.
  have hnumber : operator.kind = .minusToken → isNumber (scope.kindAt s 1) = false := by
    intro hk
    obtain ⟨t, ts, hts, -⟩ := hw.exists_first
    have hs := hin.shows
    rw [hts] at hs
    rw [show scope.kindAt s 1 = t.kind from congrArg Token.kind (Buffer.Shows.get hs.1)]
    refine Bool.eq_false_iff.mpr fun ht => ?_
    cases (hminus hk).symm.trans (hw.isNumeral_of_isNumber hop hts ht)
  have hunary : Straight (recursion levels) scope s (unaryExpression s.mark)
      ((prefixed operator operand).tree s.position)
      (s.position + (prefixed operator operand).tokens.length) := by
    rw [← hl]
    refine .bind (.bump hfirst ?_) (.bind hread (.bind ?_ (.pure _ rfl)))
    · intro hk
      rw [hk] at hp
      exact absurd hp (by decide)
    · exact .finish (s := s.goTo _) _ h.shows (List.cons_ne_nil _ _) hl
  refine .look looks_mark (.look looks_startsLiteral (.ite_neg ?_ (.look (looks_kind 0) ?_)))
  · have hk : ∀ k ∈ Operator.prefixes, startsSimpleLiteral k = false ∧ k ≠ .openParenToken := by
      decide
    rw [Scope.kindAt_zero hfirst]
    exact startsLiteral_eq_false (hk _ hp).1 hnumber fun h => absurd h (hk _ hp).2
  rw [Scope.kindAt_zero hfirst]
  simp only [Operator.prefixes, List.mem_cons, List.not_mem_nil, or_false] at hp
  rcases hp with hk | hk | hk | hk | hk
  all_goals
    rw [hk]
    exact hunary

/-! ### Operators -/

theorem exists_kind {e : Phrase} {op : Operator} (h : e.operator? = some op) :
    ∃ k, Operator.expression? k = some op := by
  cases e with
  | infixed left operator right => exact ⟨operator.kind, h⟩
  | ternary condition question yes colon no => exact ⟨question.kind, h⟩
  | _ => cases h

theorem not_mem_nameSuffixes {k : Kind} {op : Operator} (h : Operator.expression? k = some op) :
    k ∉ nameSuffixes := by
  have all : ∀ k ∈ Operator.kinds, k ∉ nameSuffixes := by decide
  exact all k (Operator.mem_kinds h)

/-- A left operand that an operator admits ends before that operator. -/
theorem Admits.closed {e : Phrase} {op : Operator} {k : Kind} (h : e.Admits op)
    (hk : Operator.expression? k = some op) {o : Operator} (ho : e.operator? = some o) :
    Operator.Stops (Operator.expression? k) o.rightPower := by
  intro op' hop'
  cases hk.symm.trans hop'
  obtain ⟨k', hk'⟩ := exists_kind ho
  obtain ⟨hle, hlt⟩ := h o ho
  unfold Operator.rightPower
  cases ha : o.associativity with
  | left => exact Nat.lt_succ_of_le hle
  | right =>
    -- Operators of one power associate to one side, so here it would be the right one.
    by_contra hn
    have he : op.power = o.power := by
      change ¬op.power < o.power at hn
      omega
    have hr := (Operator.right_iff hk').mp ha
    rw [← he, ← Operator.right_iff hk] at hr
    exact hn (hlt hr)

/-- A right operand ends where the whole operation does. -/
theorem AtLeast.closed {e : Phrase} {power : Nat} {found : Option Operator} (h : e.AtLeast power)
    (hs : Operator.Stops found power) {o : Operator} (ho : e.operator? = some o) :
    Operator.Stops found o.rightPower := by
  intro op hop
  have hr : o.power ≤ o.rightPower := by
    unfold Operator.rightPower
    cases o.associativity with
    | left => exact Nat.le_succ _
    | right => exact Nat.le_refl _
  exact Nat.lt_of_lt_of_le (hs op hop) (Nat.le_trans (h o ho) hr)

theorem node_of_joins {k : Kind} {op : Operator} (h : Operator.expression? k = some op)
    (hj : op.Joins) : op.node ∈ [Kind.binaryExpression, .integerRangeExpression, .elvisExpression] := by
  have all : ∀ k ∈ Operator.kinds, ∀ op ∈ Operator.expression? k,
      op.fixity = .infixOp → op.node ≠ .ternaryExpression →
        op.node ∈ [Kind.binaryExpression, .integerRangeExpression, .elvisExpression] := by
    decide
  exact all k (Operator.mem_kinds h) op h hj.1 hj.2

/-- An operator other than `but` is found wherever it stands. -/
theorem found_of_get {t : Token} {op : Operator} (ht : scope.buffer.get s.position = t)
    (hop : Operator.expression? t.kind = some op) (hn : op.node ≠ .matchExpression) :
    scope.expressionOperator? s = some op := by
  have hb : ¬(scope.kindAt s 0 == .butKeyword && !(scope.kindAt s 1 == .openBraceToken)) = true := by
    rw [Scope.kindAt_zero ht, Bool.and_eq_true, beq_iff_eq]
    rintro ⟨hk, -⟩
    rw [hk] at hop
    cases hop
    exact hn rfl
  rw [Scope.expressionOperator?, if_neg hb, Scope.kindAt_zero ht, hop]

/-- Taking an operator and its right operand behind a phrase. -/
theorem straight_infix {left right : Phrase} {operator : Token} {op : Operator}
    (h : Placed scope.buffer s.position (infixed left operator right))
    (hop : Operator.expression? operator.kind = some op) (hjoins : op.Joins)
    (hoperator : scope.buffer.get (s.position + left.tokens.length) = operator)
    (hread : Straight (recursion levels) scope (s.goTo (s.position + left.tokens.length + 1))
      (rightOperand op) (right.tree (s.position + left.tokens.length + 1))
      (s.position + (infixed left operator right).tokens.length)) :
    Straight (recursion levels) scope (s.goTo (s.position + left.tokens.length))
      (applyExpression s.mark (left.tree s.position) op)
      ((infixed left operator right).tree s.position)
      (s.position + (infixed left operator right).tokens.length) := by
  have hne : operator.kind ≠ .endOfFileToken := by
    intro hk
    rw [hk] at hop
    cases hop
  have hnode : ((Operator.expression? operator.kind).map Operator.node).getD .binaryExpression =
      op.node := by
    rw [hop]
    rfl
  rw [applyExpression_eq _ _ (node_of_joins hop hjoins), tree, hnode]
  refine .bind (.bump (s := s.goTo _) hoperator hne) (.bind hread (.bind ?_ (.pure _ rfl)))
  refine .finish (s := s.goTo _) _ h.shows ?_ rfl
  simp

theorem climbs_infixed {left right : Phrase} {operator : Token} (hl : left.Climbs)
    (hr : right.Climbs) : (infixed left operator right).Climbs := by
  intro levels scope s power h hroom hu ha
  obtain ⟨⟨op, hop, hjoins, hadm, hleast⟩, hwl, hwr⟩ := h.wellFormed
  have hpower : power ≤ op.power := ha op hop
  have hstop := h.closed op hop
  obtain ⟨hleft, hoperator⟩ := h.part (n := 0) [] left operator right.tokens rfl rfl hwl
    (not_mem_nameSuffixes hop) fun _ ho => hadm.closed hop ho
  obtain ⟨hright, hend⟩ := h.lastPart (n := left.tokens.length + 1) (left.tokens ++ [operator]) right
    (by simp [tokens]) (by simp) hwr fun _ ho => hleast.closed hstop ho
  have hnode : op.node ≠ .matchExpression := by
    intro hm
    have hmem := node_of_joins hop hjoins
    rw [hm] at hmem
    exact absurd hmem (by decide)
  obtain ⟨k, hk, hclimb⟩ := hl hleft (hroom.mono (by simp only [size]; omega)) hu
    fun o ho => Nat.le_trans hpower (hadm o ho).1
  have hread := hr.call (s := s.goTo (s.position + (left.tokens.length + 1))) op.rightPower hright
    (hroom.mono (by simp only [size]; omega)) hu hleast
    (by rw [State.goTo_position, hend]; exact hstop)
  rw [State.goTo_position, hend] at hread
  have looks : Looks expressionRule.operator? Scope.expressionOperator? := looks_expressionOperator?
  refine ⟨k + 1, by simp only [size]; omega, hclimb.again looks hu ?_ hpower ?_⟩
  · exact found_of_get hoperator hop hnode
  · exact straight_infix h hop hjoins hoperator hread

/-- Taking a question mark and the two branches behind a phrase. -/
theorem straight_ternary {condition yes no : Phrase} {question colon : Token} {op : Operator}
    (h : Placed scope.buffer s.position (ternary condition question yes colon no))
    (hop : Operator.expression? question.kind = some op) (hnode : op.node = .ternaryExpression)
    (hcolon : colon.kind = .colonToken) {i j : Nat}
    (hi : i = s.position + condition.tokens.length) (hj : j = i + 1 + yes.tokens.length)
    (hq : scope.buffer.get i = question) (hc : scope.buffer.get j = colon)
    (hyes : Straight (recursion levels) scope (s.goTo (i + 1)) expression (yes.tree (i + 1)) j)
    (hno : Straight (recursion levels) scope (s.goTo (j + 1)) (rightOperand op)
      (no.tree (j + 1)) (s.position + (ternary condition question yes colon no).tokens.length)) :
    Straight (recursion levels) scope (s.goTo i)
      (applyExpression s.mark (condition.tree s.position) op)
      ((ternary condition question yes colon no).tree s.position)
      (s.position + (ternary condition question yes colon no).tokens.length) := by
  have hne : question.kind ≠ .endOfFileToken := by
    intro hk
    rw [hk] at hop
    cases hop
  subst hi hj
  rw [applyExpression, hnode]
  refine .bind (.bump (s := s.goTo _) hq hne) (.bind hyes (.bind
    (.expect (s := s.goTo _) hc hcolon (by decide)) (.bind hno (.bind ?_ (.pure _ rfl)))))
  refine .finish (s := s.goTo _) _ h.shows ?_ rfl
  simp

theorem climbs_ternary {condition yes no : Phrase} {question colon : Token} (hc : condition.Climbs)
    (hy : yes.Climbs) (hn : no.Climbs) : (ternary condition question yes colon no).Climbs := by
  intro levels scope s power h hroom hu ha
  obtain ⟨⟨op, hop, hnode, hadm, hleast⟩, hcolon, hwc, hwy, hwn⟩ := h.wellFormed
  have hpower : power ≤ op.power := ha op hop
  have hstop := h.closed op hop
  have hcolonStop : ∀ power, Operator.Stops (Operator.expression? colon.kind) power :=
    fun _ => stops_none (by rw [hcolon]; rfl)
  obtain ⟨hcondition, hquestion⟩ := h.part (n := 0) [] condition question
    (yes.tokens ++ colon :: no.tokens) rfl rfl hwc (not_mem_nameSuffixes hop)
    fun _ ho => hadm.closed hop ho
  obtain ⟨hyes, hcolonAt⟩ := h.part (n := condition.tokens.length + 1)
    (condition.tokens ++ [question]) yes colon no.tokens (by simp [tokens]) (by simp) hwy
    (by rw [hcolon]; decide) fun _ _ => hcolonStop _
  obtain ⟨hno, hend⟩ := h.lastPart (n := condition.tokens.length + 1 + yes.tokens.length + 1)
    (condition.tokens ++ question :: (yes.tokens ++ [colon])) no (by simp [tokens])
    (by simp; omega) hwn fun _ ho => hleast.closed hstop ho
  obtain ⟨k, hk, hclimb⟩ := hc hcondition (hroom.mono (by simp only [size]; omega)) hu
    fun o ho => Nat.le_trans hpower (hadm o ho).1
  have hreadYes := hy.call (s := s.goTo (s.position + (condition.tokens.length + 1)))
    ExpressionPower.lowest.toNat hyes (hroom.mono (by simp only [size]; omega)) hu
    (fun _ _ => Nat.zero_le _) (by rw [State.goTo_position, hcolonAt]; exact hcolonStop _)
  have hreadNo := hn.call
    (s := s.goTo (s.position + (condition.tokens.length + 1 + yes.tokens.length + 1))) op.rightPower
    hno (hroom.mono (by simp only [size]; omega)) hu hleast
    (by rw [State.goTo_position, hend]; exact hstop)
  have hassoc : s.position + (condition.tokens.length + 1 + yes.tokens.length + 1) =
      s.position + condition.tokens.length + 1 + yes.tokens.length + 1 := by omega
  rw [State.goTo_position, hend, hassoc] at hreadNo
  have looks : Looks expressionRule.operator? Scope.expressionOperator? := looks_expressionOperator?
  refine ⟨k + 1, by simp only [size]; omega, hclimb.again looks hu ?_ hpower ?_⟩
  · exact found_of_get hquestion hop (by rw [hnode]; decide)
  · exact straight_ternary h hop hnode hcolon rfl rfl hquestion hcolonAt hreadYes hreadNo

/-- By induction on the phrase, in which every case climbs to the root of its operands. -/
theorem climbs (e : Phrase) : e.Climbs := by
  induction e with
  | name t => exact climbs_of_isPrimary fun _ _ _ => isPrimary_name
  | integer sign t =>
    exact climbs_of_isPrimary fun _ _ _ h _ _ =>
      isPrimary_integer h.shows h.wellFormed.1 h.wellFormed.2
  | braced opening inner closing ih => exact climbs_braced ih
  | prefixed operator operand ih => exact climbs_prefixed ih
  | infixed left operator right hl hr => exact climbs_infixed hl hr
  | ternary condition question yes colon no hc hy hn => exact climbs_ternary hc hy hn

end Phrase

end Operands

/-! ## Reading phrases back -/

/-- Tokens that end an expression wherever one may stand. -/
def phraseEnds : List Kind := [
  .semicolonToken, .closeParenToken, .closeBracketToken, .closeBraceToken, .commaToken,
  .endOfFileToken]

theorem phraseEnds_end {k : Kind} (h : k ∈ phraseEnds) :
    k ∉ nameSuffixes ∧ Operator.expression? k = none ∧ k ≠ .colonToken ∧ k ≠ .identifier := by
  revert k
  decide

/-- A well-formed phrase that stands in front of a token that ends expressions, with no colon in it
that touches names on both sides, is read back: the expression that it is at this place, all of its
tokens taken, and nothing else changed, so that no error is counted or recorded. It takes as many
levels of nesting as the phrase has constructors, and one more. -/
theorem expression_readsBack (e : Phrase) (stop : Token) {levels : Nat} {scope : Scope} {s : State}
    (hw : e.WellFormed) (hq : Token.unqualified e.tokens = true)
    (hs : scope.buffer.Shows s.position (e.tokens ++ [stop])) (hstop : stop.kind ∈ phraseEnds)
    (hu : s.unwinding = false) (hd : scope.depth + e.size < scope.options.maxNestingDepth)
    (hl : e.size + 3 ≤ levels) :
    expressionAt .lowest (recursion levels) scope s =
      some (e.tree s.position, { s with position := s.position + e.tokens.length }) := by
  obtain ⟨hsuffix, hoperator, hcolon, hname⟩ := phraseEnds_end hstop
  obtain ⟨hshows, hend, -⟩ := Buffer.Shows.append.mp hs
  have hget := Buffer.Shows.get hend
  have hp : Phrase.Placed scope.buffer s.position e :=
    { wellFormed := hw
      shows := hshows
      unqualified := hs.unqualified hq hcolon hname
      ended := by rwa [hget]
      closed := fun op _ => by rw [hget]; exact Phrase.stops_none hoperator }
  exact e.climbs.call _ hp ⟨hl, hd⟩ hu (fun _ _ => Nat.zero_le _)
    (by rw [hget]; exact Phrase.stops_none hoperator)

/-- `a ? -1 : !b ^ c` -/
def Phrase.choice : Phrase :=
  .ternary (.name (.place .identifier "a" 0)) (.fixed .questionToken 2)
    (.integer (some (.fixed .minusToken 4)) (.place .decimalIntegerLiteral "1" 5))
    (.fixed .colonToken 7)
    (.infixed (.prefixed (.fixed .exclamationToken 9) (.name (.place .identifier "b" 10)))
      (.fixed .caretToken 12) (.name (.place .identifier "c" 14)))

def Phrase.choiceScope : Scope where
  buffer := .ofSource { tokens := choice.tokens ++ [.fixed .semicolonToken 15, .endOfFile 16] }
  options := {}
  file := "choice.bal"

theorem choice_readsBack :
    expressionAt .lowest (recursion 10) Phrase.choiceScope {} =
      some (Phrase.choice.tree 0, { position := 9 }) :=
  expression_readsBack Phrase.choice (.fixed .semicolonToken 15)
    (by
      refine ⟨⟨_, rfl, rfl, (fun _ h => nomatch h), fun o ho => ?_⟩, rfl, rfl, ⟨rfl, ?_⟩,
        ⟨_, rfl, ⟨rfl, by decide⟩, (fun _ h => nomatch h), (fun _ h => nomatch h)⟩,
        ⟨by decide, nofun, rfl, rfl⟩, rfl⟩
      · cases ho
        decide
      · rintro _ ⟨⟩
        rfl)
    (by decide) ⟨rfl, rfl, rfl, rfl, rfl, rfl, rfl, rfl, rfl, rfl, trivial⟩ (by decide) rfl
    (by decide) (by decide)

end BallerinaSyntax
