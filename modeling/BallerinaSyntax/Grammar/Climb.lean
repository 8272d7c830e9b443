import BallerinaSyntax.Operator
import BallerinaSyntax.Parse.Recovery

/-!
Precedence climbing: a primary, then every operator that binds at least as tightly as asked. The
operators of a rule decide what they take; a right operand is read with the power that the
operator leaves to it.
-/

namespace BallerinaSyntax.Grammar

open Parse

/-- A rule that consists of primaries and operators. -/
structure OperatorRule (c : Category) where
  primary : Parse (Tree c)
  /-- The operator at the current token, which it does not take. -/
  operator? : Parse (Option Operator)
  /-- Takes an operator and what belongs to it, with what was read since the mark as its left
  operand. -/
  apply : Mark → Tree c → Operator → Parse (Tree c)

def climb {c : Category} (rule : OperatorRule c) (power : Nat) : Parse (Tree c) := do
  let m ← mark
  let first ← rule.primary
  loop (fun left => do
    if ← isUnwinding then return .stop left
    match ← rule.operator? with
    | none => return .stop left
    | some op =>
      if op.power < power then return .stop left
      return .again (← rule.apply m left op)) first

end BallerinaSyntax.Grammar
