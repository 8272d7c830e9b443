import BallerinaSyntax.Token.Source

/-!
The tokens of one unit. A buffer is never empty and ends with an end-of-file token; if the source
gave none, one is put in so that the unit can be read, and the failure is kept.
-/

namespace BallerinaSyntax

structure Buffer where
  tokens : Array Token
  nonempty : 0 < tokens.size
  fatal : Option ParseError := none

namespace Buffer

/-- The tokens before the first end-of-file token, and that one. -/
def splitEnd : List Token → List Token × Option Token
  | [] => ([], none)
  | t :: rest =>
    if t.isEndOfFile then ([], some t)
    else
      let (before, last) := splitEnd rest
      (t :: before, last)

/-- Reads a source up to its first end-of-file token. -/
def ofSource (s : TokenSource) : Buffer :=
  let (before, last) := splitEnd s.tokens
  match last with
  | some t => ⟨(before ++ [t]).toArray, by simp, none⟩
  | none =>
    let after := lastStop before
    ⟨(before ++ [s.ending.endOfFile after]).toArray, by simp, some (s.ending.error after)⟩

def size (b : Buffer) : Nat := b.tokens.size

/-- The token at an index; behind the end, the last one. -/
def get (b : Buffer) (index : Nat) : Token :=
  have : min index (b.tokens.size - 1) < b.tokens.size := by have := b.nonempty; omega
  b.tokens[min index (b.tokens.size - 1)]

/-- The bytes of the tokens from `start` up to `stop`; an empty range has none. -/
def rangeOf? (b : Buffer) (start stop : Nat) : Option ByteRange :=
  if start < stop then
    match b.tokens[start]?, b.tokens[stop - 1]? with
    | some first, some last => some ⟨first.range.start, last.range.stop⟩
    | _, _ => none
  else none

end Buffer

end BallerinaSyntax
