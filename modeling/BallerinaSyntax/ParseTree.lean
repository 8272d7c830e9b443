import BallerinaSyntax.Coverage
import BallerinaSyntax.Grammar.Rule

/-!
Reading a unit. Whatever its tokens are, the result is a tree that covers all of them, with
diagnostics for what is wrong; only a source that does not reach the end of the file gives an
error instead.
-/

namespace BallerinaSyntax

/-- The tokens of one file. -/
structure SourceUnit where
  file : String
  source : TokenSource
deriving Repr, Inhabited

/-- What was read from a unit. -/
structure ParseTree where
  file : String
  root : CompilationUnit
  /-- The tokens up to the end of the file, and that one. -/
  tokens : Array Token
  diagnostics : List Diagnostic

namespace ParseTree

def hasErrors (t : ParseTree) : Bool := t.root.info.hasError

/-- The token that a leaf stands for, unless recovery made it up. -/
def token? (t : ParseTree) (leaf : Leaf) : Option Token :=
  if leaf.missing then none else t.tokens[leaf.index]?

/-- The text of a leaf; empty if recovery made it up. -/
def tokenText (t : ParseTree) (leaf : Leaf) : String := ((t.token? leaf).map Token.text).getD ""

def coverage (t : ParseTree) : Except CoverageError (List Nat) := t.root.coverage

def roundTrips (t : ParseTree) : Bool := t.root.roundTrips t.tokens.size

end ParseTree

namespace Buffer

/-- How many goals may be open at a time, and how many rounds a loop may take. Between two tokens
only a few goals open, so this is more than any unit needs whose reading ends at all. -/
def steps (b : Buffer) : Nat := 64 * (b.size + 2)

/-- Reads the unit in a buffer. -/
def parse? (b : Buffer) (file : String) (options : Options) :
    Option (CompilationUnit × State) :=
  Grammar.compilationUnit (Grammar.recursion b.steps)
    { buffer := b, options := options, file := file } {}

end Buffer

namespace SourceUnit

/-- What a unit gives, once it has been read: a tree, unless its source did not come to the end of
the file. -/
def outcome (u : SourceUnit) : CompilationUnit × State → Except ParseError ParseTree
  | (root, s) =>
    let buffer := Buffer.ofSource u.source
    match buffer.fatal with
    | some e => .error e
    | none => .ok ⟨u.file, root, buffer.tokens, s.diagnostics.toList⟩

/-- Reads a unit. There is no result if reading never ends, as before a worker in a list of
statements. -/
def parse? (u : SourceUnit) (options : Options) : Option (Except ParseError ParseTree) :=
  ((Buffer.ofSource u.source).parse? u.file options).map u.outcome

end SourceUnit

end BallerinaSyntax
