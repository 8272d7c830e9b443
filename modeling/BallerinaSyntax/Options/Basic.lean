/-! What a caller may set for a parse. -/

namespace BallerinaSyntax

structure Options where
  /-- How deep expressions, type names, blocks and XML elements may nest. -/
  maxNestingDepth : Nat := 200
  /-- How many diagnostics of one unit are recorded; one more tells that others were dropped. -/
  maxDiagnostics : Nat := 100
  /-- Whether `start`, `foreach`, `continue` and `map` may name functions and methods. -/
  allowAnyIdentifierNames : Bool := true
deriving DecidableEq, Repr, Inhabited

end BallerinaSyntax
