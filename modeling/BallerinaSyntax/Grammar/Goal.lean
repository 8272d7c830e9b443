import BallerinaSyntax.Operator
import BallerinaSyntax.Parse.Recovery

/-! The rules that other rules reach through the recursion. -/

namespace BallerinaSyntax.Grammar

open Parse

def expressionAt (power : ExpressionPower) : Parse Expression := call (.expression power.toNat)

def expression : Parse Expression := expressionAt .lowest

def typeNameAt (power : TypePower) : Parse TypeName := call (.typeName power.toNat)

def typeName : Parse TypeName := typeNameAt .lowest

def reference : Parse Reference := call .reference

def statement : Parse Statement := call .statement

def block : Parse Block := call .block

def callableBody : Parse (Tree .callableBody) := call .callableBody

def xmlElement : Parse (Tree .xmlElement) := call .xmlElement

def pattern : Parse (Tree .pattern) := call .pattern

/-- What `p` reads, if a token of kind `k` is next; that token is taken before. -/
def behind {c : Category} (k : Kind) (p : Parse (Tree c)) : Parse (Tree (.option c)) := do
  if ← accept k then return .present (← p) else return .absent

/-- What `p` reads, if `condition` holds. -/
def whenever {c : Category} (condition : Parse Bool) (p : Parse (Tree c)) :
    Parse (Tree (.option c)) := do
  if ← condition then return .present (← p) else return .absent

end BallerinaSyntax.Grammar
