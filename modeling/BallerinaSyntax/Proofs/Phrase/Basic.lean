import BallerinaSyntax.Proofs.Grouping.Basic
import BallerinaSyntax.Token.Buffer

/-!
Phrases: expressions as they are written, of names, whole numbers, parentheses and operators, with
their tokens but without a place. A phrase is well formed if its operands bind as tightly as its
operators ask. Placed at a token index, it is an expression.
-/

namespace BallerinaSyntax

inductive Phrase where
  | name (t : Token)
  | integer (sign : Option Token) (t : Token)
  | braced (opening : Token) (inner : Phrase) (closing : Token)
  | prefixed (operator : Token) (operand : Phrase)
  | infixed (left : Phrase) (operator : Token) (right : Phrase)
  | ternary (condition : Phrase) (question : Token) (yes : Phrase) (colon : Token) (no : Phrase)

/-! ## Tokens in a row -/

/-- The bytes from the first token to the last. -/
def Token.cover : List Token → ByteRange
  | [] => .empty 0
  | t :: ts => ⟨t.range.start, (ts.getLastD t).range.stop⟩

/-- A token at an index. -/
def Token.leaf (t : Token) (index : Nat) : Leaf where
  kind := t.kind
  index := index
  range := t.range

/-- A token at an index as a name. -/
def Token.named (t : Token) (index : Nat) : Identifier where
  token := t.leaf index
  symbol := t.text

/-- The node over tokens that begin at an index, without an error in it. -/
def NodeInfo.over (k : Kind) (index : Nat) (ts : List Token) : NodeInfo where
  kind := k
  range := Token.cover ts
  tokens := ⟨index, index + ts.length⟩

/-- The tokens of a buffer from an index on begin with these. -/
def Buffer.Shows (b : Buffer) : Nat → List Token → Prop
  | _, [] => True
  | i, t :: ts => b.tokens[i]? = some t ∧ b.Shows (i + 1) ts

/-- A package, a colon and a name touch. -/
def Token.qualifies (package colon name : Token) : Bool :=
  package.kind == .identifier && colon.kind == .colonToken && name.kind == .identifier &&
    package.range.stop == colon.range.start && colon.range.stop == name.range.start

/-- Whether a package, a colon and a name that touch stand at an index. -/
def Buffer.qualifiedAt (b : Buffer) (i : Nat) : Bool :=
  (b.get i).qualifies (b.get (i + 1)) (b.get (i + 2))

/-- No colon touches identifiers on both sides. -/
def Token.unqualified : List Token → Bool
  | package :: colon :: name :: rest =>
    !package.qualifies colon name && unqualified (colon :: name :: rest)
  | _ => true

/-! ## Operators between operands -/

/-- The operator stands between its only two operands. -/
def Operator.Joins (op : Operator) : Prop :=
  op.fixity = .infixOp ∧ op.node ≠ .ternaryExpression

/-- The tokens that may stand in front of an operand. -/
def Operator.prefixes : List Kind :=
  [.plusToken, .minusToken, .exclamationToken, .lengthofKeyword, .untaintKeyword]

/-- The expression of an operator that builds nodes of kind `node` between two operands. -/
def Tree.joined (node : Kind) (info : NodeInfo) (left : Expression) (operator : Leaf)
    (right : Expression) : Expression :=
  match node with
  | .integerRangeExpression => .range info left operator right
  | .elvisExpression => .elvis info left operator right
  | _ => .binary info left operator right

namespace Phrase

/-- The tokens of a phrase in order. -/
def tokens : Phrase → List Token
  | .name t => [t]
  | .integer sign t => sign.toList ++ [t]
  | .braced opening inner closing => opening :: (inner.tokens ++ [closing])
  | .prefixed operator operand => operator :: operand.tokens
  | .infixed left operator right => left.tokens ++ operator :: right.tokens
  | .ternary condition question yes colon no =>
    condition.tokens ++ question :: (yes.tokens ++ colon :: no.tokens)

/-- How many constructors a phrase is made of. -/
def size : Phrase → Nat
  | .name _ | .integer .. => 1
  | .braced _ inner _ => inner.size + 1
  | .prefixed _ operand => operand.size + 1
  | .infixed left _ right => left.size + right.size + 1
  | .ternary condition _ yes _ no => condition.size + yes.size + no.size + 1

/-- The operator at the root of a phrase, if it stands behind an operand. -/
def operator? : Phrase → Option Operator
  | .infixed _ operator _ => Operator.expression? operator.kind
  | .ternary _ question .. => Operator.expression? question.kind
  | _ => none

/-- Whether a phrase is a number without a sign. -/
def isNumeral : Phrase → Bool
  | .integer none _ => true
  | _ => false

/-- An operator at the root binds as tightly as `op` asks of its left operand. -/
def Admits (e : Phrase) (op : Operator) : Prop :=
  ∀ o, e.operator? = some o → op.power ≤ o.power ∧ (op.associativity = .right → op.power < o.power)

/-- An operator at the root binds at least this tightly. -/
def AtLeast (e : Phrase) (power : Nat) : Prop := ∀ o, e.operator? = some o → power ≤ o.power

/-- All tokens are of the kinds that belong there, and operands bind as tightly as operators ask. A
minus in front of a number without a sign would be its sign. -/
def WellFormed : Phrase → Prop
  | .name t => t.kind = .identifier
  | .integer sign t => t.kind.isIntegerLiteral = true ∧ ∀ minus ∈ sign, minus.kind = .minusToken
  | .braced opening inner closing =>
    opening.kind = .openParenToken ∧ inner.WellFormed ∧ closing.kind = .closeParenToken
  | .prefixed operator operand =>
    operator.kind ∈ Operator.prefixes ∧
      (operator.kind = .minusToken → operand.isNumeral = false) ∧
      operand.operator? = none ∧ operand.WellFormed
  | .infixed left operator right =>
    (∃ op, Operator.expression? operator.kind = some op ∧ op.Joins ∧
      left.Admits op ∧ right.AtLeast op.rightPower) ∧ left.WellFormed ∧ right.WellFormed
  | .ternary condition question yes colon no =>
    (∃ op, Operator.expression? question.kind = some op ∧ op.node = .ternaryExpression ∧
      condition.Admits op ∧ no.AtLeast op.rightPower) ∧ colon.kind = .colonToken ∧
      condition.WellFormed ∧ yes.WellFormed ∧ no.WellFormed

/-- The expression that a phrase is when its first token has this index. -/
def tree : Phrase → Nat → Expression
  | .name t, i =>
    let name : NameReference := {
      info := .over .nameReference i [t]
      package := none
      name := t.named i }
    .variable (.over .variableReferenceExpression i [t]) none
      (.simpleReference (.over .simpleVariableReference i [t]) name)
  | .integer sign t, i =>
    .literal {
      info := .over .simpleLiteral i (sign.toList ++ [t])
      kind := .integer
      sign := sign.map (·.leaf i)
      value := t.leaf (i + sign.toList.length) }
  | .braced opening inner closing, i =>
    .braced (.over .bracedExpression i (opening :: (inner.tokens ++ [closing])))
      (inner.tree (i + 1))
  | .prefixed operator operand, i =>
    .unary (.over .unaryExpression i (operator :: operand.tokens)) (operator.leaf i)
      (operand.tree (i + 1))
  | .infixed left operator right, i =>
    let node := ((Operator.expression? operator.kind).map Operator.node).getD .binaryExpression
    Tree.joined node (.over node i (left.tokens ++ operator :: right.tokens)) (left.tree i)
      (operator.leaf (i + left.tokens.length)) (right.tree (i + left.tokens.length + 1))
  | .ternary condition question yes colon no, i =>
    let behind := i + condition.tokens.length + 1
    .ternary
      (.over .ternaryExpression i
        (condition.tokens ++ question :: (yes.tokens ++ colon :: no.tokens)))
      (condition.tree i) (yes.tree behind) (no.tree (behind + yes.tokens.length + 1))

/-! ## The tokens of a phrase -/

theorem size_pos (e : Phrase) : 0 < e.size := by
  cases e <;> simp [size]

/-- No phrase begins with a parenthesis that closes. -/
theorem WellFormed.exists_first {e : Phrase} (h : e.WellFormed) :
    ∃ t ts, e.tokens = t :: ts ∧ t.kind ≠ .closeParenToken := by
  induction e with
  | name t => exact ⟨t, [], rfl, by rw [show t.kind = _ from h]; decide⟩
  | integer sign t =>
    cases sign with
    | none =>
      refine ⟨t, [], rfl, fun hk => ?_⟩
      have hi := h.1
      rw [hk] at hi
      exact absurd hi (by decide)
    | some minus => exact ⟨minus, [t], rfl, by rw [h.2 minus rfl]; decide⟩
  | braced opening inner closing => exact ⟨opening, _, rfl, by rw [h.1]; decide⟩
  | prefixed operator operand =>
    refine ⟨operator, _, rfl, fun hk => ?_⟩
    have hp := h.1
    rw [hk] at hp
    exact absurd hp (by decide)
  | infixed left operator right hl hr =>
    obtain ⟨t, ts, hts, hk⟩ := hl h.2.1
    exact ⟨t, ts ++ operator :: right.tokens, by rw [tokens, hts]; rfl, hk⟩
  | ternary condition question yes colon no hc hy hn =>
    obtain ⟨t, ts, hts, hk⟩ := hc h.2.2.1
    exact ⟨t, ts ++ question :: (yes.tokens ++ colon :: no.tokens), by rw [tokens, hts]; rfl, hk⟩

/-- An operand that begins with a number is one without a sign. -/
theorem WellFormed.isNumeral_of_isNumber {e : Phrase} (h : e.WellFormed) (ho : e.operator? = none)
    {t : Token} {ts : List Token} (hts : e.tokens = t :: ts)
    (hk : Grammar.isNumber t.kind = true) : e.isNumeral = true := by
  cases e with
  | name t' =>
    cases hts
    rw [show t.kind = _ from h] at hk
    exact absurd hk (by decide)
  | integer sign t' =>
    cases sign with
    | none => rfl
    | some minus =>
      cases hts
      rw [h.2 t rfl] at hk
      exact absurd hk (by decide)
  | braced opening inner closing =>
    cases hts
    rw [h.1] at hk
    exact absurd hk (by decide)
  | prefixed operator operand =>
    cases hts
    have prefixes : ∀ k ∈ Operator.prefixes, Grammar.isNumber k = false := by decide
    rw [prefixes _ h.1] at hk
    cases hk
  | infixed left operator right =>
    obtain ⟨⟨op, hop, -⟩, -⟩ := h
    cases hop.symm.trans ho
  | ternary condition question yes colon no =>
    obtain ⟨⟨op, hop, -⟩, -⟩ := h
    cases hop.symm.trans ho

end Phrase

/-! ## Tokens of a buffer in a row -/

namespace Buffer.Shows

variable {b : Buffer} {i : Nat} {t : Token} {ts us : List Token}

theorem append : b.Shows i (ts ++ us) ↔ b.Shows i ts ∧ b.Shows (i + ts.length) us := by
  induction ts generalizing i with
  | nil => simp [Shows]
  | cons t ts ih =>
    simp only [List.cons_append, Shows, List.length_cons, ih, and_assoc]
    rw [show i + (ts.length + 1) = i + 1 + ts.length by omega]

theorem get (h : b.tokens[i]? = some t) : b.get i = t := by
  obtain ⟨hi, ht⟩ := Array.getElem?_eq_some_iff.mp h
  have hm : min i (b.tokens.size - 1) = i := by omega
  rw [← ht]
  simp only [Buffer.get, hm]

theorem last (h : b.Shows i (t :: ts)) : b.tokens[i + ts.length]? = some (ts.getLastD t) := by
  induction ts generalizing i t with
  | nil => exact h.1
  | cons u us ih =>
    have hu := ih h.2
    rw [show i + 1 + us.length = i + (us.length + 1) by omega] at hu
    rw [List.length_cons, hu, List.getLastD_cons]

theorem rangeOf? (h : b.Shows i (t :: ts)) :
    b.rangeOf? i (i + (t :: ts).length) = some (Token.cover (t :: ts)) := by
  unfold Buffer.rangeOf?
  have hl : i + (t :: ts).length - 1 = i + ts.length := by rw [List.length_cons]; omega
  rw [if_pos (by rw [List.length_cons]; omega), hl, h.1, h.last]
  rfl

/-- Names are not qualified in tokens in which no colon joins them and behind which none stands. -/
theorem unqualified {stop : Token} (h : b.Shows i (ts ++ [stop]))
    (hq : Token.unqualified ts = true) (hcolon : stop.kind ≠ .colonToken)
    (hname : stop.kind ≠ .identifier) (j : Nat) (hi : i ≤ j) (hj : j < i + ts.length) :
    b.qualifiedAt j = false := by
  induction ts generalizing i with
  | nil => exact absurd hj (Nat.not_lt.mpr hi)
  | cons t ts ih =>
    rcases Nat.eq_or_lt_of_le hi with rfl | hi
    · unfold Buffer.qualifiedAt Token.qualifies
      match ts, h with
      | [], h =>
        rw [Shows.get h.2.1, beq_false_of_ne hcolon]
        simp
      | [u], h =>
        rw [Shows.get h.2.2.1, beq_false_of_ne hname]
        simp
      | u :: v :: us, h =>
        rw [Shows.get h.1, Shows.get h.2.1, Shows.get h.2.2.1]
        exact Bool.not_eq_true' _ |>.mp (Bool.and_eq_true_iff.mp hq).1
    · refine ih h.2 ?_ hi (by rw [List.length_cons] at hj; omega)
      match ts, hq with
      | [], _ => rfl
      | [_], _ => rfl
      | u :: v :: us, hq => exact (Bool.and_eq_true_iff.mp hq).2

end Buffer.Shows

/-- The tokens of a buffer from the first on. -/
theorem Buffer.shows_tokens {b : Buffer} {before ts : List Token}
    (h : b.tokens.toList = before ++ ts) : b.Shows before.length ts := by
  induction ts generalizing before with
  | nil => trivial
  | cons t ts ih =>
    refine ⟨?_, ?_⟩
    · rw [← Array.getElem?_toList, h, List.getElem?_append_right (Nat.le_refl _), Nat.sub_self]
      rfl
    · have hassoc : b.tokens.toList = (before ++ [t]) ++ ts := by
        rw [h, List.append_assoc]
        rfl
      have hnext := ih hassoc
      rwa [List.length_append] at hnext

end BallerinaSyntax
