import BallerinaSyntax.Parse.Recovery

/-! References to names, with or without a package. -/

namespace BallerinaSyntax.Grammar

open Parse

/-- A name, or a package and a name. A reserved word is a name if `(` follows. -/
def nameReference : Parse NameReference := do
  let m ← mark
  let k ← kind 0
  let (package, name) ←
    if ← isQualifiedName 0 then
      let package ← bumpName
      let _ ← bump
      pure (some package, ← bumpName)
    else if k != .identifier && (← isName k) && (← isKind 1 .openParenToken) then
      pure (none, ← bumpName)
    else pure (none, ← identifier)
  return { info := ← finish m .nameReference, package := package, name := name }

def userDefinedType : Parse UserDefinedType := do
  let m ← mark
  let name ← nameReference
  return { info := ← finish m .userDefinedTypeName, name := name }

/-- A name behind `as`, if there is one. -/
def optionalAlias : Parse (Option Identifier) := do
  if ← accept .asKeyword then return some (← identifier) else return none

end BallerinaSyntax.Grammar
