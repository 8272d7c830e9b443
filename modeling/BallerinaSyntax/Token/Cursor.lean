import BallerinaSyntax.Token.Source

/-!
A reader that takes tokens from a source only when somebody looks at them, keeps those it has
taken, and can go back. It looks and moves like a reader over the whole buffer.
-/

namespace BallerinaSyntax

structure Cursor where
  /-- What the source has not been asked for. -/
  source : TokenSource
  taken : List Token := []
  position : Nat := 0
  /-- The source will not be asked again. -/
  finished : Bool := false
  fatal : Option ParseError := none
deriving Repr, Inhabited

namespace Cursor

def start (source : TokenSource) : Cursor := { source := source }

/-- Asks the source for one more token. -/
def pull (c : Cursor) : Cursor :=
  match c.source.tokens with
  | t :: rest =>
    { c with
      source := { c.source with tokens := rest }
      taken := c.taken ++ [t]
      finished := t.isEndOfFile }
  | [] =>
    let after := lastStop c.taken
    { c with
      taken := c.taken ++ [c.source.ending.endOfFile after]
      finished := true
      fatal := some (c.source.ending.error after) }

def pullTimes : Nat → Cursor → Cursor
  | 0, c => c
  | n + 1, c => if c.finished then c else pullTimes n c.pull

/-- Takes tokens until the one at `index` is there or the source has ended. -/
def fill (c : Cursor) (index : Nat) : Cursor := pullTimes (index + 1 - c.taken.length) c

/-- The token `ahead` of the current one; behind the end, the last one. -/
def peek (c : Cursor) (ahead : Nat) : Token × Cursor :=
  let c := c.fill (c.position + ahead)
  (c.taken.getD (min (c.position + ahead) (c.taken.length - 1)) default, c)

/-- Moves past the current token unless it is the end of the file. -/
def bump (c : Cursor) : Cursor :=
  let c := c.fill c.position
  match c.taken[c.position]? with
  | some t => if t.isEndOfFile then c else { c with position := c.position + 1 }
  | none => c

/-- Moves past the end of the file. -/
def bumpEndOfFile (c : Cursor) : Cursor :=
  let c := c.fill c.position
  match c.taken[c.position]? with
  | some t => if t.isEndOfFile then { c with position := c.position + 1 } else c
  | none => c

def rewind (c : Cursor) (position : Nat) : Cursor := { c with position := position }

/-- The bytes of the tokens from `start` up to `stop`, as far as they were taken. -/
def rangeOf? (c : Cursor) (start stop : Nat) : Option ByteRange :=
  if start < stop then
    match c.taken[start]?, c.taken[stop - 1]? with
    | some first, some last => some ⟨first.range.start, last.range.stop⟩
    | _, _ => none
  else none

/-- Hands over the tokens that were taken, or the failure that cut the source short. -/
def handOver (c : Cursor) : Except ParseError (List Token) :=
  match c.fatal with
  | some e => .error e
  | none => .ok c.taken

end Cursor

end BallerinaSyntax
