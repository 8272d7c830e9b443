import BallerinaSyntax.Parse.Basic

/-!
Looking at tokens, and recording errors. Every error counts toward the flags of the nodes around
it. It is recorded only if nothing is being unwound, if the last error was at another token, and
if there is room: the first one beyond the limit is replaced by a notice, the others are dropped.
-/

namespace BallerinaSyntax

/-- Records a diagnostic of the unit `file` under a limit. -/
def Diagnostics.record (ds : Diagnostics) (file : String) (limit : Nat) (d : Diagnostic) :
    Diagnostics :=
  if ds.size < limit then ds.add d
  else if ds.size = limit then
    ds.add (.located file (d.span.getD (.empty 0)) .tooManyDiagnostics [toString limit])
  else ds

namespace Parse

/-! ## Looking -/

/-- The token `ahead` of the current one; behind the end, the end of the file. -/
def token (ahead : Nat) : Parse Token := fun _ scope s =>
  some (scope.buffer.get (s.position + ahead), s)

def kind (ahead : Nat) : Parse Kind := fun _ scope s =>
  some ((scope.buffer.get (s.position + ahead)).kind, s)

def isKind (ahead : Nat) (k : Kind) : Parse Bool := return (← kind ahead) == k

/-- Whether the current token is of this kind. -/
def atKind (k : Kind) : Parse Bool := isKind 0 k

def atAny (ks : List Kind) : Parse Bool := return ks.contains (← kind 0)

def atEnd : Parse Bool := atKind .endOfFileToken

def position : Parse Nat := look State.position

def isUnwinding : Parse Bool := look State.unwinding

/-- Whether the current token is of this kind and nothing is being unwound. -/
def goesOn (k : Kind) : Parse Bool := return (← atKind k) && !(← isUnwinding)

/-- Whether a list in brackets stops here. -/
def atListEnd (close : Kind) : Parse Bool :=
  return (← isUnwinding) || (← atKind close) || (← atEnd)

/-! ## Errors -/

def located (range : ByteRange) (message : Message) (args : List String) : Parse Diagnostic :=
  return .located (← scope).file range.toSpan message args

/-- Counts an error without recording one. -/
def countError : Parse Unit := modify fun s => { s with errorCount := s.errorCount + 1 }

/-- Counts an error at a token, and records it if it is not a consequence of the last one. -/
def report (index : Nat) (d : Diagnostic) : Parse Unit := do
  let scope ← scope
  modify fun s =>
    let s := { s with errorCount := s.errorCount + 1 }
    if s.unwinding || s.lastErrorAt == some index then s
    else
      { s with
        lastErrorAt := some index
        diagnostics := s.diagnostics.record scope.file scope.options.maxDiagnostics d }

/-- How messages name the current token. -/
def describeCurrent : Parse String := do
  let t ← token 0
  return if t.kind == .identifier then "identifier '" ++ t.text ++ "'" else t.kind.describe

def errorHere (message : Message) (args : List String) : Parse Unit := do
  let t ← token 0
  report (← position) (← located t.range message args)

def errorExpected (expected : String) : Parse Unit := do
  errorHere .expectedFound [expected, ← describeCurrent]

def errorNoViableAlternative (construct : String) : Parse Unit := do
  errorHere .noViableAlternative [construct, ← describeCurrent]

end Parse

end BallerinaSyntax
