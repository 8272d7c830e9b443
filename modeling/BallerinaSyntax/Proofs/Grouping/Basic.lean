import BallerinaSyntax.Proofs.Everywhere

/-!
Well-grouped trees. The operands of an operator bind as tightly as it asks, and the suffixes of a
type name stack in one way only.
-/

namespace BallerinaSyntax

namespace Tree

/-! ## Operations -/

def isElvis : Expression → Bool
  | .elvis .. => true
  | _ => false

def isTernary : Expression → Bool
  | .ternary .. => true
  | _ => false

def isMatching : Expression → Bool
  | .matching .. => true
  | _ => false

/-- Whether the root of an expression is an operator behind its first operand. -/
def isOperation : Expression → Bool
  | .binary .. | .range .. | .elvis .. | .ternary .. | .matching .. => true
  | _ => false

/-- The power of an operator at the root of an expression that has an operand on its right. -/
def infixPower? : Expression → Option Nat
  | .binary _ _ operator _ | .range _ _ operator _ | .elvis _ _ operator _ =>
    (Operator.expression? operator.kind).map Operator.power
  | .ternary .. => some ExpressionPower.ternary.toNat
  | _ => none

/-- The power of an operator at the root of an expression. -/
def rootPower? : Expression → Option Nat
  | .matching .. => some ExpressionPower.matchSuffix.toNat
  | e => infixPower? e

/-- An operator at the root binds at least this tightly. -/
def AtLeast (e : Expression) (power : Nat) : Prop := ∀ p, e.rootPower? = some p → power ≤ p

/-- An operator at the root binds as tightly as `op` asks of its left operand. -/
def Admits (e : Expression) (op : Operator) : Prop :=
  ∀ p, e.infixPower? = some p → op.power ≤ p ∧ (op.associativity = .right → op.power < p)

/-- The operator is one that builds nodes of kind `node`, and both operands bind as tightly as it
asks. -/
def Combines (node : Kind) (left : Expression) (operator : Leaf) (right : Expression) : Prop :=
  ∃ op, Operator.expression? operator.kind = some op ∧ op.node = node ∧ left.Admits op ∧
    right.AtLeast op.rightPower

/-! ## Suffixes of type names -/

def isUnion : TypeName → Bool
  | .unionType .. => true
  | _ => false

def isArray : TypeName → Bool
  | .arrayType .. => true
  | _ => false

/-! ## Trees -/

/-- What is directly below the root of a tree binds as tightly as the root asks. -/
def Grouped : TreeProperty := fun _ t =>
  match t with
  | .binary _ left operator right => Combines .binaryExpression left operator right
  | .range _ left operator right => Combines .integerRangeExpression left operator right
  | .elvis _ left operator right => Combines .elvisExpression left operator right
  | .ternary _ condition _ no =>
    (condition.isTernary = false ∧ condition.isElvis = false) ∧
      no.isElvis = false ∧ no.isMatching = false
  | .matching _ subject _ => subject.isElvis = false
  | .check _ operand => operand.isElvis = false
  | .unary _ _ operand | .await _ operand | .typeConversion _ _ _ operand =>
    operand.isOperation = false
  | .unionType _ members =>
    2 ≤ members.toList.length ∧ ∀ member ∈ members.toList, member.isUnion = false
  | .arrayType _ element _ => element.isUnion = false ∧ element.isArray = false
  | .nullableType _ inner => inner.isUnion = false
  | _ => True

end Tree

/-! ## Results of reading -/

/-- Results of reading, in which all trees may be well grouped. -/
class HasGrouping (α : Type) where
  wellGrouped : α → Prop

export HasGrouping (wellGrouped)

section Results

variable {α β : Type} {c : Category}

instance : HasGrouping (Tree c) := ⟨Tree.Everywhere Tree.Grouped⟩

instance [HasGrouping α] : HasGrouping (List α) := ⟨fun as => ∀ a ∈ as, wellGrouped a⟩

instance [HasGrouping α] : HasGrouping (Array α) := ⟨fun as => wellGrouped as.toList⟩

instance [HasGrouping α] : HasGrouping (Option α) where
  wellGrouped
    | none => True
    | some a => wellGrouped a

instance [HasGrouping α] [HasGrouping β] : HasGrouping (α × β) :=
  ⟨fun x => wellGrouped x.1 ∧ wellGrouped x.2⟩

instance : HasGrouping NodeInfo := ⟨fun _ => True⟩

@[simp] theorem wellGrouped_nil [HasGrouping α] : wellGrouped ([] : List α) :=
  List.forall_mem_nil _

@[simp] theorem wellGrouped_cons [HasGrouping α] (a : α) (as : List α) :
    wellGrouped (a :: as) ↔ wellGrouped a ∧ wellGrouped as :=
  List.forall_mem_cons

@[simp] theorem wellGrouped_empty [HasGrouping α] : wellGrouped (#[] : Array α) := wellGrouped_nil

@[simp] theorem wellGrouped_push [HasGrouping α] (as : Array α) (a : α) :
    wellGrouped (as.push a) ↔ wellGrouped as ∧ wellGrouped a := by
  change wellGrouped (as.push a).toList ↔ wellGrouped as.toList ∧ _
  simp [HasGrouping.wellGrouped, or_imp, forall_and]

theorem wellGrouped_ofList {ts : List (Tree c)} (h : wellGrouped ts) :
    wellGrouped (Tree.ofList ts) := by
  induction ts with
  | nil => exact ⟨trivial, trivial⟩
  | cons t ts ih =>
    obtain ⟨ht, hts⟩ := (wellGrouped_cons t ts).mp h
    exact ⟨trivial, ht, ih hts⟩

theorem wellGrouped_ofOption {t : Option (Tree c)} (h : wellGrouped t) :
    wellGrouped (Tree.ofOption t) := by
  cases t with
  | none => exact ⟨trivial, trivial⟩
  | some t => exact ⟨trivial, h⟩

theorem wellGrouped_toOption {t : Tree (.option c)} (h : wellGrouped t) : wellGrouped t.toOption := by
  cases t with
  | absent => trivial
  | present t => exact h.2

theorem wellGrouped_absent : wellGrouped (.absent : Tree (.option c)) := ⟨trivial, trivial⟩

end Results

/-! ## Powers -/

namespace Operator

variable {k : Kind} {op : Operator}

/-- The tokens that are operators of expressions. -/
def kinds : List Kind := [
  .questionColonToken, .butKeyword, .questionToken, .dotDotToken, .dotDotLessThanToken, .barBarToken,
  .ampersandAmpersandToken, .equalsEqualsToken, .exclamationEqualsToken, .lessThanToken,
  .greaterThanToken, .lessThanEqualsToken, .greaterThanEqualsToken, .plusToken, .minusToken,
  .asteriskToken, .slashToken, .percentToken, .caretToken]

theorem mem_kinds (h : expression? k = some op) : k ∈ kinds := by
  unfold expression? at h
  split at h <;> first | decide | cases h

/-- Every operator of expressions binds less tightly than a unary one. -/
theorem power_lt_unary (h : expression? k = some op) : op.power < ExpressionPower.unary.toNat := by
  have all : ∀ k ∈ kinds, ∀ op ∈ expression? k, op.power < ExpressionPower.unary.toNat := by decide
  exact all k (mem_kinds h) op h

/-- Operators of one power associate to one side. -/
theorem right_iff (h : expression? k = some op) :
    op.associativity = .right ↔
      op.power = ExpressionPower.ternary.toNat ∨ op.power = ExpressionPower.exponent.toNat := by
  have all : ∀ k ∈ kinds, ∀ op ∈ expression? k, op.associativity = .right ↔
      op.power = ExpressionPower.ternary.toNat ∨ op.power = ExpressionPower.exponent.toNat := by
    decide
  exact all k (mem_kinds h) op h

theorem node_cases (h : expression? k = some op) :
    op.node ∈ [Kind.binaryExpression, .integerRangeExpression, .elvisExpression] ∨
      op.node = .matchExpression ∨ op.node = .ternaryExpression := by
  have all : ∀ k ∈ kinds, ∀ op ∈ expression? k,
      op.node ∈ [Kind.binaryExpression, .integerRangeExpression, .elvisExpression] ∨
        op.node = .matchExpression ∨ op.node = .ternaryExpression := by
    decide
  exact all k (mem_kinds h) op h

/-- The operators that build nodes of their own have powers of their own. -/
theorem power_of_node (h : expression? k = some op) :
    (op.node = .elvisExpression → op.power = ExpressionPower.elvis.toNat) ∧
      (op.node = .matchExpression → op.power = ExpressionPower.matchSuffix.toNat) ∧
        (op.node = .ternaryExpression → op.power = ExpressionPower.ternary.toNat) := by
  have all : ∀ k ∈ kinds, ∀ op ∈ expression? k,
      (op.node = .elvisExpression → op.power = ExpressionPower.elvis.toNat) ∧
        (op.node = .matchExpression → op.power = ExpressionPower.matchSuffix.toNat) ∧
          (op.node = .ternaryExpression → op.power = ExpressionPower.ternary.toNat) := by
    decide
  exact all k (mem_kinds h) op h

theorem power_of_elvis (h : expression? k = some op) (hn : op.node = .elvisExpression) :
    op.power = ExpressionPower.elvis.toNat :=
  (power_of_node h).1 hn

theorem power_of_matching (h : expression? k = some op) (hn : op.node = .matchExpression) :
    op.power = ExpressionPower.matchSuffix.toNat :=
  (power_of_node h).2.1 hn

theorem power_of_ternary (h : expression? k = some op) (hn : op.node = .ternaryExpression) :
    op.power = ExpressionPower.ternary.toNat :=
  (power_of_node h).2.2 hn

/-- An operator that the right operand of `op` leaves may have that operation on its left. -/
theorem power_le_of_left {k' : Kind} {next : Operator} (h : expression? k = some op)
    (h' : expression? k' = some next) (hlt : next.power < op.rightPower) :
    next.power ≤ op.power ∧ (next.associativity = .right → next.power < op.power) := by
  cases ha : op.associativity with
  | left =>
    have hle : next.power < op.power + 1 := by simpa [rightPower, ha] using hlt
    have hne : op.power ≠ ExpressionPower.ternary.toNat ∧ op.power ≠ ExpressionPower.exponent.toNat := by
      rw [← not_or, ← right_iff h, ha]
      rintro ⟨⟩
    refine ⟨by omega, fun hr => ?_⟩
    rcases (right_iff h').mp hr with hp | hp <;> omega
  | right =>
    have hlt : next.power < op.power := by simpa [rightPower, ha] using hlt
    exact ⟨by omega, fun _ => hlt⟩

end Operator

namespace Tree

variable {e : Expression} {op : Operator} {power : Nat}

/-- An operation is well grouped only with an operator that there is. -/
theorem rootPower?_eq_some (hg : wellGrouped e) (h : e.isOperation = true) :
    ∃ k op, Operator.expression? k = some op ∧ e.rootPower? = some op.power := by
  have combined : ∀ {node left operator right}, Combines node left operator right →
      ∃ k op, Operator.expression? k = some op ∧
        (Operator.expression? operator.kind).map Operator.power = some op.power := by
    rintro _ _ operator _ ⟨op, ho, -⟩
    exact ⟨_, op, ho, by rw [ho]; rfl⟩
  cases e with
  | binary => exact combined hg.1
  | range => exact combined hg.1
  | elvis => exact combined hg.1
  | ternary => exact ⟨.questionToken, _, rfl, rfl⟩
  | matching => exact ⟨.butKeyword, _, rfl, rfl⟩
  | _ => cases h

theorem isOperation_eq_false (hg : wellGrouped e) (h : e.AtLeast ExpressionPower.unary.toNat) :
    e.isOperation = false := by
  refine Bool.eq_false_iff.mpr fun he => ?_
  obtain ⟨k, op, ho, hp⟩ := rootPower?_eq_some hg he
  exact Nat.not_lt.mpr (h _ hp) (Operator.power_lt_unary ho)

theorem infixPower?_of_elvis (hg : wellGrouped e) (h : e.isElvis = true) :
    e.infixPower? = some ExpressionPower.elvis.toNat := by
  cases e with
  | elvis =>
    obtain ⟨op, ho, hn, -⟩ := hg.1
    change (Operator.expression? _).map Operator.power = _
    rw [ho, ← Operator.power_of_elvis ho hn]
    rfl
  | _ => cases h

theorem rootPower?_of_infixPower? {p : Nat} (h : e.infixPower? = some p) : e.rootPower? = some p := by
  cases e with
  | matching => cases h
  | _ => exact h

theorem isElvis_of_atLeast (hg : wellGrouped e) (h : e.AtLeast power)
    (hp : ExpressionPower.elvis.toNat < power) : e.isElvis = false := by
  refine Bool.eq_false_iff.mpr fun he => ?_
  exact Nat.not_lt.mpr (h _ (rootPower?_of_infixPower? (infixPower?_of_elvis hg he))) hp

theorem isMatching_of_atLeast (h : e.AtLeast power) (hp : ExpressionPower.matchSuffix.toNat < power) :
    e.isMatching = false := by
  cases e with
  | matching => exact absurd (h _ rfl) (Nat.not_le.mpr hp)
  | _ => rfl

theorem isElvis_of_admits (hg : wellGrouped e) (h : e.Admits op)
    (hp : ExpressionPower.elvis.toNat < op.power) : e.isElvis = false := by
  refine Bool.eq_false_iff.mpr fun he => ?_
  exact Nat.not_lt.mpr (h _ (infixPower?_of_elvis hg he)).1 hp

theorem isTernary_of_admits (h : e.Admits op) (hp : op.power = ExpressionPower.ternary.toNat)
    (ha : op.associativity = .right) : e.isTernary = false := by
  cases e with
  | ternary => exact absurd ((h _ rfl).2 ha) (Nat.not_lt.mpr (Nat.le_of_eq hp.symm))
  | _ => rfl

/-- What is not an operation has no power that matters. -/
theorem rootPower?_eq_none (h : e.isOperation = false) : e.rootPower? = none := by
  cases e with
  | binary => cases h
  | range => cases h
  | elvis => cases h
  | ternary => cases h
  | matching => cases h
  | _ => rfl

end Tree

end BallerinaSyntax
