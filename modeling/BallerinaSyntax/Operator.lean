import BallerinaSyntax.Kind.Class

/-!
Operator tables. Expressions, type names and variable references are each a primary followed by
operators; the power of an operator says how tightly it binds, and every table has its own scale
of powers.
-/

namespace BallerinaSyntax

inductive Associativity where
  | left | right
deriving DecidableEq, Repr, Inhabited

inductive Fixity where
  | infixOp | postfixOp
deriving DecidableEq, Repr, Inhabited

structure Operator where
  power : Nat
  associativity : Associativity
  fixity : Fixity
  /-- The kind of the node that the operator builds. -/
  node : Kind
deriving DecidableEq, Repr, Inhabited

/-- Powers of expression operators, from the loosest. -/
inductive ExpressionPower where
  | lowest | elvis | matchSuffix | ternary | range | logicalOr | logicalAnd | equality | relational
  | additive | multiplicative | exponent | unary
deriving DecidableEq, Repr

/-- Powers of type name suffixes, from the loosest. -/
inductive TypePower where
  | lowest | union | nullable | array
deriving DecidableEq, Repr

/-- Powers of reference suffixes, from the loosest. -/
inductive ReferencePower where
  | lowest | invocation | xmlAttribute | field | index
deriving DecidableEq, Repr

def ExpressionPower.toNat (p : ExpressionPower) : Nat := p.ctorIdx

def TypePower.toNat (p : TypePower) : Nat := p.ctorIdx

def ReferencePower.toNat (p : ReferencePower) : Nat := p.ctorIdx

namespace Operator

/-- The least power that an operator in the right operand may have. -/
def rightPower (op : Operator) : Nat :=
  match op.associativity with
  | .left => op.power + 1
  | .right => op.power

private def between (p : ExpressionPower) (a : Associativity) (node : Kind) : Operator :=
  ⟨p.toNat, a, .infixOp, node⟩

private def after (power : Nat) (node : Kind) : Operator := ⟨power, .left, .postfixOp, node⟩

def expression? : Kind → Option Operator
  | .questionColonToken => some (between .elvis .left .elvisExpression)
  | .butKeyword => some (after ExpressionPower.matchSuffix.toNat .matchExpression)
  | .questionToken => some (between .ternary .right .ternaryExpression)
  | .dotDotToken | .dotDotLessThanToken => some (between .range .left .integerRangeExpression)
  | .barBarToken => some (between .logicalOr .left .binaryExpression)
  | .ampersandAmpersandToken => some (between .logicalAnd .left .binaryExpression)
  | .equalsEqualsToken | .exclamationEqualsToken => some (between .equality .left .binaryExpression)
  | .lessThanToken | .greaterThanToken | .lessThanEqualsToken | .greaterThanEqualsToken =>
    some (between .relational .left .binaryExpression)
  | .plusToken | .minusToken => some (between .additive .left .binaryExpression)
  | .asteriskToken | .slashToken | .percentToken =>
    some (between .multiplicative .left .binaryExpression)
  | .caretToken => some (between .exponent .right .binaryExpression)
  | _ => none

def typeName? : Kind → Option Operator
  | .openBracketToken => some (after TypePower.array.toNat .arrayTypeName)
  | .questionToken => some (after TypePower.nullable.toNat .nullableTypeName)
  | .barToken => some (after TypePower.union.toNat .unionTypeName)
  | _ => none

/-- Whether a kind may name a function or a method. -/
def isName (anyIdentifierNames : Bool) (k : Kind) : Bool :=
  k == .identifier || (anyIdentifierNames && k.isNameKeyword)

/-- The suffix of a reference that starts with `k` and goes on with `next` and `afterNext`. A dot
starts a method call when a name and `(` follow, else a field; `[` with a whole number and `..`
is an event count, not an index. -/
def reference? (k next afterNext : Kind) (anyIdentifierNames : Bool) : Option Operator :=
  match k with
  | .openBracketToken =>
    if next.isIntegerLiteral && afterNext == .dotDotToken then none
    else some (after ReferencePower.index.toNat .indexReference)
  | .dotToken =>
    if isName anyIdentifierNames next && afterNext == .openParenToken then
      some (after ReferencePower.invocation.toNat .methodInvocation)
    else if next == .identifier || next == .asteriskToken then
      some (after ReferencePower.field.toNat .fieldReference)
    else none
  | .exclamationToken =>
    if next == .identifier then some (after ReferencePower.field.toNat .fieldReference) else none
  | .atToken => some (after ReferencePower.xmlAttribute.toNat .xmlAttributeReference)
  | _ => none

end Operator

end BallerinaSyntax
