import BallerinaSyntax.Grammar.Reference
import BallerinaSyntax.Grammar.Parameter

/-! Blocks, and the bodies of functions with their endpoints and workers. -/

namespace BallerinaSyntax.Grammar

open Parse

/-- One round of a list of statements. Tokens that begin no statement are passed. -/
def statementRound : Parse (Option Statement) := do
  let k ← kind 0
  if k == .semicolonToken then
    bumpUnexpected "a statement"
    return none
  if !startsStatement k && !(← isName k) then
    let _ ← skipUntil resumesStatement "a statement"
    return none
  return some (← progressing "a statement" statement)

/-- Statements up to the closing brace. -/
def statements : Parse (Tree (.list .statement)) := do
  let read ← withRecovery statementSync <| loop (fun (read : Array Statement) => do
    if ← atListEnd .closeBraceToken then return .stop read
    match ← statementRound with
    | some s => return .again (read.push s)
    | none => return .again read) #[]
  return .ofList read.toList

def blockBody : Parse Block := do
  let m ← mark
  let opening ← expect .openBraceToken
  if opening.missing then return .block (← finish m .block) .nil
  let read ← statements
  let close ← expectClosing opening .closeBraceToken "block"
  return .block (← finishDelimited m .block close) read

def worker : Parse (Tree .worker) := do
  let m ← mark
  let _ ← bump
  let name ← identifier
  let body ← block
  return .worker (← finish m .workerDeclaration) name body

def workers : Parse (List (Tree .worker)) :=
  many do
    if ← goesOn .workerKeyword then return some (← worker) else return none

/-- What an endpoint is set up with: a record, or a reference behind an equals sign. -/
def endpointValue : Parse (Tree (.option .endpointValue)) := do
  if ← atKind .openBraceToken then return .present (.endpointRecord (← recordLiteral))
  if ← accept .equalsToken then return .present (.endpointReference (← reference))
  return .absent

/-- An endpoint; the mark is where its annotations begin. -/
def endpoint (m : Mark) (annotations : Tree (.list .attachment)) : Parse (Tree .endpoint) := do
  let _ ← expect .endpointKeyword
  let type ← nameReference
  let name ← identifier
  let value ← endpointValue
  let _ ← expect .semicolonToken
  return .endpoint (← finish m .endpointDeclaration) annotations type name value

def localEndpoints : Parse (List (Tree .endpoint)) :=
  many do
    if !(← isUnwinding) && ((← atKind .endpointKeyword) || (← atKind .atToken)) then
      let m ← mark
      let annotations ← attachments
      return some (← endpoint m annotations)
    else return none

/-- Endpoints, then workers if one is next, else statements. -/
def callableBodyInner : Parse (Tree .callableBody) := do
  let m ← mark
  let opening ← expect .openBraceToken
  if opening.missing then return .callableBody (← finish m .callableUnitBody) .nil .nil .nil
  let endpoints ← localEndpoints
  let workersFirst ← atKind .workerKeyword
  let workers ← if workersFirst then workers else pure []
  let read ← if workersFirst then pure .nil else statements
  let close ← expectClosing opening .closeBraceToken "function body"
  return .callableBody (← finishDelimited m .callableUnitBody close) (.ofList endpoints) read
    (.ofList workers)

end BallerinaSyntax.Grammar
