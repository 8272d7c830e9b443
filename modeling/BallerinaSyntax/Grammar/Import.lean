import BallerinaSyntax.Grammar.Name

/-! Imports of packages, and declarations of XML namespaces. -/

namespace BallerinaSyntax.Grammar

open Parse

/-- Takes the identifier that stands before a token of kind `k`, and that token. -/
def identifierBefore (k : Kind) : Parse (Option Identifier) := do
  if (← atKind .identifier) && (← isKind 1 k) then
    let name ← bumpName
    let _ ← bump
    return some name
  return none

def versionForms : List Kind := [
  .identifier, .decimalIntegerLiteral, .decimalFloatingPointLiteral, .quotedStringLiteral]

/-- Identifiers with dots between them, and a version. -/
def packageName : Parse PackageName := do
  let m ← mark
  let first ← identifier
  let others ← many do
    if ← accept .dotToken then return some (← identifier) else return none
  let version ←
    if ← accept .versionKeyword then pure (some (← expectAny versionForms.contains "version"))
    else pure none
  return {
    info := ← finish m .packageName
    segments := first :: others
    version := version }

def importDeclaration : Parse ImportDeclaration := do
  let m ← mark
  let _ ← bump
  let organization ← identifierBefore .slashToken
  let package ← packageName
  let asName ← optionalAlias
  let _ ← expect .semicolonToken
  return {
    info := ← finish m .importDeclaration
    organization := organization
    package := package
    asName := asName }

def namespaceDeclaration : Parse NamespaceDeclaration := do
  let m ← mark
  let _ ← bump
  let uri ← expect .quotedStringLiteral
  let asName ← optionalAlias
  let _ ← expect .semicolonToken
  return { info := ← finish m .namespaceDeclaration, uri := uri, asName := asName }

end BallerinaSyntax.Grammar
