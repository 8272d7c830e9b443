import BallerinaSyntax.Diagnostic.Message
import BallerinaSyntax.Range

/-!
Diagnostics: a message with its arguments filled in, where it applies, and other places that
explain it.
-/

namespace BallerinaSyntax

structure Diagnostic where
  file : Option String
  span : Option Span
  text : String
  code : Nat
  severity : Severity
  /-- Other places that the message refers to. -/
  related : List Diagnostic
deriving Repr, Inhabited

namespace Diagnostic

/-- A diagnostic without a place. -/
def ofMessage (message : Message) (args : List String) : Diagnostic where
  file := none
  span := none
  text := Template.fill message.template args
  code := message.code
  severity := message.severity
  related := []

def located (file : String) (span : Span) (message : Message) (args : List String) : Diagnostic :=
  { ofMessage message args with file := some file, span := some span }

def withRelated (d other : Diagnostic) : Diagnostic := { d with related := d.related ++ [other] }

def isError (d : Diagnostic) : Bool := d.severity == .error

/-- Where a diagnostic applies, as its text opens: the offset is shown only beside a file. -/
def place (d : Diagnostic) : String :=
  match d.file, d.span with
  | none, _ => ""
  | some file, none => s!"{file}: "
  | some file, some span => s!"{file}({span.start}): "

def render (d : Diagnostic) : String :=
  s!"{d.place}{d.severity.name} BAL{d.code}: {d.text}"

/-- Where the span starts; zero without one. -/
def offset (d : Diagnostic) : Nat := (d.span.map Span.start).getD 0

/-- Order by file, those without one first, then by offset, where none counts as zero. -/
def precedes (a b : Diagnostic) : Bool :=
  match compare a.file b.file with
  | .lt => true
  | .gt => false
  | .eq => a.offset ≤ b.offset

end Diagnostic

/-- The diagnostics of a unit, in the order in which they were recorded. -/
structure Diagnostics where
  toList : List Diagnostic
deriving Repr, Inhabited

namespace Diagnostics

def empty : Diagnostics := ⟨[]⟩

def size (ds : Diagnostics) : Nat := ds.toList.length

def isEmpty (ds : Diagnostics) : Bool := ds.toList.isEmpty

def add (ds : Diagnostics) (d : Diagnostic) : Diagnostics := ⟨ds.toList ++ [d]⟩

/-- Keeps the first `n` entries. -/
def truncate (ds : Diagnostics) (n : Nat) : Diagnostics := ⟨ds.toList.take n⟩

def extend (ds more : Diagnostics) : Diagnostics := ⟨ds.toList ++ more.toList⟩

def errorCount (ds : Diagnostics) : Nat := ds.toList.countP Diagnostic.isError

def hasErrors (ds : Diagnostics) : Bool := ds.toList.any Diagnostic.isError

/-- Sorts by file and offset; entries of one place keep their order. -/
def sort (ds : Diagnostics) : Diagnostics := ⟨ds.toList.mergeSort Diagnostic.precedes⟩

end Diagnostics

end BallerinaSyntax
