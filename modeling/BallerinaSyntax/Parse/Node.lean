import BallerinaSyntax.Parse.Consume

/-!
Nodes. A mark is set where a node begins, and the node covers all tokens taken since. It has an
error if one was counted meanwhile.
-/

namespace BallerinaSyntax

/-- Where a node begins, and the errors before it. -/
structure Mark where
  index : Nat
  errors : Nat
deriving DecidableEq, Repr, Inhabited

namespace Parse

def mark : Parse Mark := look fun s => ⟨s.position, s.errorCount⟩

/-- The node that began at `m` and ends here. -/
def finish (m : Mark) (k : Kind) : Parse NodeInfo := do
  let scope ← scope
  let s ← state
  let range := (scope.buffer.rangeOf? m.index s.position).getD
    (.empty (scope.buffer.get s.position).range.start)
  return {
    kind := k
    range := range
    tokens := ⟨m.index, s.position⟩
    flags := { hasError := m.errors < s.errorCount } }

/-- The node of a construct in brackets. -/
def finishDelimited (m : Mark) (k : Kind) (close : Leaf) : Parse NodeInfo := do
  let info ← finish m k
  return if close.missing then { info with flags := { info.flags with unterminated := true } }
    else info

def finishModified (m : Mark) (k : Kind) (modifiers : Modifiers) : Parse NodeInfo :=
  return { ← finish m k with modifiers := modifiers }

/-- A placeholder at the current token. -/
def placeholder (k : Kind) : Parse NodeInfo := do
  let t ← token 0
  return .placeholder k (← position) t.range.start

end Parse

end BallerinaSyntax
