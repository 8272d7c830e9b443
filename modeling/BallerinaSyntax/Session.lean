import BallerinaSyntax.Dialogue
import BallerinaSyntax.Relabel

/-!
Sessions. Units that are read one after another share one table of names: their trees hold handles
of the table, so names can be compared across units without looking at their texts.
-/

namespace BallerinaSyntax

/-- A tree with other symbols for its names. -/
def ParseTree.renamed (t : ParseTree) (rename : Symbol → Symbol) : ParseTree :=
  { t with root := relabel { rename := rename } t.root }

/-- What was read, with other symbols for the names. -/
def renameResult (rename : Symbol → Symbol) :
    Option (Except ParseError ParseTree) → Option (Except ParseError ParseTree) :=
  Option.map (Except.map (·.renamed rename))

/-- The name that a table has for a symbol: the text behind a handle. -/
def Interner.naming (t : Interner) : Symbol → Symbol
  | .handle k => ((t.resolve? k).map Symbol.text).getD (.handle k)
  | .text s => .text s

/-- What was read with a table, with the texts of its names. -/
def Interner.resolved (t : Interner) :
    Option (Except ParseError ParseTree) → Option (Except ParseError ParseTree) :=
  renameResult t.naming

/-- What reading a unit by itself gives, with a table that is empty at first. -/
def SourceUnit.alone (u : SourceUnit) (options : Options) : Option (Except ParseError ParseTree) :=
  ((u.dialogue options).run .empty).2.resolved ((u.dialogue options).run .empty).1

structure Session where
  options : Options := {}
  names : Interner := .empty
deriving Inhabited

namespace Session

/-- Reads a unit, and enters its names into the table on the way. -/
def parse? (s : Session) (u : SourceUnit) : Option (Except ParseError ParseTree) × Session :=
  let (result, names) := (u.dialogue s.options).run s.names
  (result, { s with names := names })

/-- Reads units in their order; the names in the trees are handles. -/
def readAll (s : Session) : List SourceUnit → List (Option (Except ParseError ParseTree)) × Session
  | [] => ([], s)
  | u :: rest =>
    let (result, s) := s.parse? u
    let (results, s) := s.readAll rest
    (result :: results, s)

/-- Reads units in their order; the names in the trees are texts. -/
def parseAll (s : Session) (units : List SourceUnit) :
    List (Option (Except ParseError ParseTree)) × Session :=
  let (results, s) := s.readAll units
  (results.map s.names.resolved, s)

end Session

/-- Reads units with a new table; each result comes with the name of its file. -/
def SourceUnit.parseAll (units : List SourceUnit) (options : Options) :
    List (String × Option (Except ParseError ParseTree)) :=
  (units.map SourceUnit.file).zip (Session.parseAll { options := options } units).1

end BallerinaSyntax
