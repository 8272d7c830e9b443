import BallerinaSyntax.Proofs.Following.Definition
import BallerinaSyntax.Grammar.Rule

/-! The rules that goals name, and whole units, in two units that look alike. -/

namespace BallerinaSyntax

open Grammar Parse

variable {L : Likeness}

/-! ## What stands for a construct that nests too deep -/

theorem follows_missingReference : Follows L missingReference missingReference :=
  .placeholder fun info => congr(Tree.missingReference $(info.alike))

theorem follows_missingPattern : Follows L missingPattern missingPattern :=
  .bind (follows_placeholder _) fun info => .bind follows_missingReference fun target =>
    .done congr(Tree.edgePattern (.patternEdge $(info.alike) $(target.alike) .absent .absent none))

/-! ## The recursion -/

theorem follows_rule {c : Category} (goal : Goal c) : Follows L (rule goal) (rule goal) := by
  cases goal with
  | expression power =>
    exact follows_nested (follows_climb following_expressionRule power) <| .placeholder fun info =>
      congr(Tree.missingExpression $(info.alike))
  | typeName power =>
    exact follows_nested (follows_climb following_typeRule power) <| .placeholder fun info =>
      congr(Tree.missingType $(info.alike))
  | reference =>
    exact follows_nested (follows_climb following_referenceRule _) follows_missingReference
  | statement => exact follows_statementBody
  | block =>
    exact follows_nested follows_blockBody <| .placeholder fun info =>
      congr(Tree.block $(info.alike) .nil)
  | callableBody =>
    exact follows_nested follows_callableBodyInner <| .placeholder fun info =>
      congr(Tree.callableBody $(info.alike) .nil .nil .nil)
  | xmlElement => exact follows_xmlElementBody
  | pattern => exact follows_nested follows_patternBody follows_missingPattern

/-- More levels change nothing that is read with fewer, whatever the names become. -/
theorem Likeness.recursionsWith (L : Likeness) {symbol symbol' : String → Symbol}
    (hs : L.Names symbol symbol') :
    ∀ {n m}, n ≤ m → L.Recursions (recursionWith symbol n) (recursionWith symbol' m)
  | 0, m, _ =>
    ⟨Nat.zero_le _, fun _ _ _ _ _ _ _ _ he => (nomatch he), by
      simpa only [symbol_recursionWith] using hs⟩
  | n + 1, 0, h => absurd h (Nat.not_succ_le_zero n)
  | n + 1, m + 1, h =>
    have lower := L.recursionsWith hs (Nat.le_of_succ_le_succ h)
    ⟨Nat.le_of_succ_le_succ h, fun goal => follows_rule goal lower, hs⟩

/-- More levels change nothing that is read with fewer. -/
theorem Likeness.recursions (L : Likeness) (hs : L.Names .text .text) {n m : Nat} (h : n ≤ m) :
    L.Recursions (recursion n) (recursion m) :=
  L.recursionsWith hs h

end BallerinaSyntax
