import BallerinaSyntax.Operator
import BallerinaSyntax.Parse.Report

/-!
Taking tokens. The end of the file is never passed except by the unit itself. A token that is
expected but not there is reported and made up, with no width, at the current token.
-/

namespace BallerinaSyntax.Parse

variable {α : Type}

def advance : Parse Unit := fun _ scope s =>
  some ((), if (scope.buffer.get s.position).isEndOfFile then s
    else { s with position := s.position + 1 })

def bump : Parse Leaf := do
  let t ← token 0
  let index ← position
  advance
  return { kind := t.kind, index := index, range := t.range }

/-- Takes the end of the file. -/
def bumpEndOfFile : Parse Leaf := do
  let t ← token 0
  let index ← position
  if t.isEndOfFile then modify fun s => { s with position := s.position + 1 }
  return { kind := .endOfFileToken, index := index, range := t.range }

def optional (k : Kind) : Parse (Option Leaf) := do
  if ← atKind k then return some (← bump) else return none

/-- Takes a token of this kind if it is next, and tells whether it was. -/
def accept (k : Kind) : Parse Bool := return (← optional k).isSome

def missingToken (k : Kind) : Parse Leaf := do
  let t ← token 0
  return { kind := k, index := ← position, range := .empty t.range.start, missing := true }

def expect (k : Kind) : Parse Leaf := do
  if ← atKind k then bump
  else
    errorExpected k.describe
    missingToken k

/-- Takes a token whose kind `wanted` holds of. -/
def expectAny (wanted : Kind → Bool) (expected : String) : Parse Leaf := do
  if wanted (← kind 0) then bump
  else
    errorExpected expected
    missingToken .unknown

/-! ## Names -/

/-- Whether a kind may name a function or a method. -/
def isName (k : Kind) : Parse Bool :=
  return Operator.isName (← scope).options.allowAnyIdentifierNames k

/-- Takes the current token as a name, whatever its kind. -/
def bumpName : Parse Identifier := do
  let t ← token 0
  let symbol ← intern t.text
  let leaf ← bump
  return { token := { leaf with kind := .identifier }, symbol := symbol }

def missingName : Parse Identifier := do
  errorExpected "identifier"
  let token ← missingToken .identifier
  return { token := token, symbol := ← intern "" }

def identifier : Parse Identifier := do
  if ← atKind .identifier then bumpName else missingName

def optionalIdentifier : Parse (Option Identifier) := do
  if ← atKind .identifier then return some (← bumpName) else return none

/-- An identifier, or a reserved word that may name a function. -/
def callableName : Parse Identifier := do
  if ← isName (← kind 0) then bumpName else missingName

/-- Whether a name with a package stands here: two identifiers and a colon that touch. -/
def isQualifiedName (ahead : Nat) : Parse Bool := do
  let package ← token ahead
  let colon ← token (ahead + 1)
  let name ← token (ahead + 2)
  return package.kind == .identifier && colon.kind == .colonToken && name.kind == .identifier &&
    package.range.stop == colon.range.start && colon.range.stop == name.range.start

/-! ## Lists -/

/-- The items that `separator` goes before, as long as it follows. -/
def moreBehind (separator : Kind) (item : Parse α) : Parse (List α) :=
  many do
    if ← isUnwinding then return none
    else if ← accept separator then return some (← item)
    else return none

/-- One item, and more of them behind `separator`. -/
def separatedBy (separator : Kind) (item : Parse α) : Parse (List α) := do
  let first ← item
  return first :: (← moreBehind separator item)

def commaList (item : Parse α) : Parse (List α) := separatedBy .commaToken item

/-- Items with commas between them, or none if `close` is next. The list ends at the first item
without a comma behind it; what stands before `close` then is left to `expectClosing`. -/
def listUntil (close : Kind) (item : Parse α) : Parse (List α) := do
  if ← atListEnd close then return [] else commaList item

/-- The items of a list that `opening` began, none if that is missing. -/
def listAfter (opening : Leaf) (close : Kind) (item : Parse α) : Parse (List α) := do
  if opening.missing then return [] else listUntil close item

end BallerinaSyntax.Parse
