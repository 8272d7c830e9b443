import BallerinaSyntax.Grammar.Definition
import BallerinaSyntax.Grammar.Statement
import BallerinaSyntax.Grammar.TypeName

/-!
The rules that goals name, and the recursion they run in. All but two are nested constructs: they
count toward the nesting limit, and beyond it a placeholder stands for them. Statements are
nested through their blocks, and XML elements where one is in the content of another.
-/

namespace BallerinaSyntax.Grammar

open Parse

def missingExpression : Parse Expression :=
  return .missingExpression (← placeholder .missingExpression)

def missingType : Parse TypeName := return .missingType (← placeholder .missingTypeName)

def missingReference : Parse Reference :=
  return .missingReference (← placeholder .missingReference)

def missingBlock : Parse Block := return .block (← placeholder .block) .nil

def missingBody : Parse (Tree .callableBody) :=
  return .callableBody (← placeholder .callableUnitBody) .nil .nil .nil

def missingPattern : Parse (Tree .pattern) := do
  let info ← placeholder .patternEdgeInput
  return .edgePattern (.patternEdge info (← missingReference) .absent .absent none)

def rule {c : Category} : Goal c → Parse (Tree c)
  | .expression power => nested (climb expressionRule power) missingExpression
  | .typeName power => nested (climb typeRule power) missingType
  | .reference => nested (climb referenceRule ReferencePower.lowest.toNat) missingReference
  | .statement => statementBody
  | .block => nested blockBody missingBlock
  | .callableBody => nested callableBodyInner missingBody
  | .xmlElement => xmlElementBody
  | .pattern => nested patternBody missingPattern

/-- A recursion in which at most `levels` goals are open at a time, and texts become these names. -/
def recursionWith (symbol : String → Symbol) : Nat → Recursion
  | 0 => ⟨0, fun _ _ _ => none, symbol⟩
  | levels + 1 => ⟨levels, fun goal scope s => rule goal (recursionWith symbol levels) scope s, symbol⟩

/-- A recursion in which every name is its text. -/
def recursion (levels : Nat) : Recursion := recursionWith .text levels

theorem symbol_recursionWith (symbol : String → Symbol) (levels : Nat) :
    (recursionWith symbol levels).symbol = symbol := by
  cases levels <;> rfl

end BallerinaSyntax.Grammar
