import BallerinaSyntax.Token.Basic

/-!
Where tokens come from: a finite sequence, after which the source runs dry or fails. A source
that can be read has an end-of-file token in its sequence, and nothing behind that is ever read.
-/

namespace BallerinaSyntax

/-- Why a source could not give the next token. -/
structure SourceFailure where
  message : String
  pos : Nat
deriving DecidableEq, Repr, Inhabited

inductive SourceEnding where
  | dry
  | failed (failure : SourceFailure)
deriving DecidableEq, Repr, Inhabited

structure TokenSource where
  tokens : List Token
  ending : SourceEnding := .dry
deriving Repr, Inhabited

/-- Why there is no tree. Malformed input is never a reason. -/
inductive ParseError where
  | source (failure : SourceFailure)
  /-- The source ran dry at `after` without an end-of-file token. -/
  | missingEndOfInput (after : Nat)
deriving DecidableEq, Repr, Inhabited

namespace ParseError

def message : ParseError → String
  | .source f => s!"token source failed at offset {f.pos}: {f.message}"
  | .missingEndOfInput after =>
    s!"token stream ended after offset {after} without an end-of-input token"

def pos : ParseError → Nat
  | .source f => f.pos
  | .missingEndOfInput after => after

end ParseError

/-- Where the last of some tokens ends; zero without any. -/
def lastStop (tokens : List Token) : Nat := (tokens.getLast?.map (·.range.stop)).getD 0

namespace SourceEnding

/-- The error of a source that ends like this after tokens that end at `after`. -/
def error (after : Nat) : SourceEnding → ParseError
  | .dry => .missingEndOfInput after
  | .failed f => .source f

/-- The end-of-file token that stands in for the missing one, never before the last token. -/
def endOfFile (after : Nat) : SourceEnding → Token
  | .dry => .endOfFile after
  | .failed f => .endOfFile (max f.pos after)

end SourceEnding

end BallerinaSyntax
