import BallerinaSyntax.Options.Basic
import BallerinaSyntax.Options.JsonText

/-!
Options as JSON: an object in which every field may be left out and others are ignored, or an
array of the three values in order. No field may be given twice.
-/

namespace BallerinaSyntax.Options

open JsonText (ReadError Result skipBlanks readWhole readBool readString skipColon skipValue)

def depthField : String := "maxNestingDepth"

def diagnosticsField : String := "maxDiagnostics"

def namesField : String := "allowAnyIdentifierNames"

def depthLimit : Nat := Nat.pow 2 32

def diagnosticsLimit : Nat := Nat.pow 2 64

def toJson (o : Options) : String :=
  "\x7b\"" ++ depthField ++ "\":" ++ toString o.maxNestingDepth ++ ",\"" ++ diagnosticsField ++
    "\":" ++ toString o.maxDiagnostics ++ ",\"" ++ namesField ++ "\":" ++
    (if o.allowAnyIdentifierNames then "true" else "false") ++ "\x7d"

/-- The fields given so far. -/
structure Given where
  depth : Option Nat := none
  diagnostics : Option Nat := none
  names : Option Bool := none
deriving DecidableEq, Repr

def Given.toOptions (g : Given) : Options :=
  let defaults : Options := {}
  { maxNestingDepth := g.depth.getD defaults.maxNestingDepth
    maxDiagnostics := g.diagnostics.getD defaults.maxDiagnostics
    allowAnyIdentifierNames := g.names.getD defaults.allowAnyIdentifierNames }

/-- Reads the value of a field, from its colon on. -/
def readField (g : Given) (key : String) (text : List Char) : Result (Given × List Char) := do
  if key = depthField then
    if g.depth.isSome then throw .mismatch
    let (n, rest) ← readWhole depthLimit (← skipColon text)
    return ({ g with depth := some n }, rest)
  else if key = diagnosticsField then
    if g.diagnostics.isSome then throw .mismatch
    let (n, rest) ← readWhole diagnosticsLimit (← skipColon text)
    return ({ g with diagnostics := some n }, rest)
  else if key = namesField then
    if g.names.isSome then throw .mismatch
    let (b, rest) ← readBool (← skipColon text)
    return ({ g with names := some b }, rest)
  else
    return (g, ← skipValue (← skipColon text))

/-- Reads the members of an object, the first of which must be there, and its end. -/
def readMembers : Nat → Given → List Char → Result (Given × List Char)
  | 0, _, _ => .error .truncated
  | steps + 1, g, text => do
    match skipBlanks text with
    | [] => throw .truncated
    | '"' :: rest =>
      let (key, rest) ← readString rest
      let (g, rest) ← readField g key rest
      match skipBlanks rest with
      | [] => throw .truncated
      | '\x7d' :: rest => return (g, rest)
      | ',' :: rest => readMembers steps g rest
      | _ => throw .malformed
    | _ => throw .malformed

/-- Reads the next element of an array with `read`, or nothing at its end. -/
def readElement {α : Type} (first : Bool) (read : List Char → Result (α × List Char))
    (text : List Char) : Result (Option α × List Char) := do
  let element (text : List Char) : Result (Option α × List Char) := do
    let (a, rest) ← read text
    return (some a, rest)
  match skipBlanks text with
  | [] => throw .truncated
  | ']' :: rest => return (none, ']' :: rest)
  | c :: rest =>
    if first then element (c :: rest)
    else if c = ',' then
      match skipBlanks rest with
      | [] => throw .truncated
      | ']' :: _ => throw .malformed
      | rest => element rest
    else throw .malformed

/-- Reads the elements of an array and its end. -/
def readElements (text : List Char) : Result (Given × List Char) := do
  let (depth, rest) ← readElement true (readWhole depthLimit) text
  let (diagnostics, rest) ← readElement false (readWhole diagnosticsLimit) rest
  let (names, rest) ← readElement false readBool rest
  match skipBlanks rest with
  | [] => throw .truncated
  | ']' :: rest => return (⟨depth, diagnostics, names⟩, rest)
  | _ => throw .malformed

def ofJson (json : String) : Except ReadError Options := do
  let text := skipBlanks json.toList
  let (g, rest) ←
    match text with
    | [] => throw .truncated
    | '[' :: rest => readElements rest
    | '\x7b' :: rest =>
      match skipBlanks rest with
      | '\x7d' :: rest => pure ({}, rest)
      | rest => readMembers (rest.length + 1) {} rest
    | _ => throw (JsonText.rejectValue text)
  if (skipBlanks rest).isEmpty then return g.toOptions else throw .malformed

end BallerinaSyntax.Options
