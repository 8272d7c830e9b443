import BallerinaSyntax.Parse.Node

/-!
Going on after an error. Tokens are skipped up to one at which this construct or one around it
resumes. A construct whose closing token is not found that way is reported where it was opened;
then everything unwinds to the next definition. A construct that nests too deep unwinds as well.
-/

namespace BallerinaSyntax

/-- The first place from `index` on whose token has a kind that `stop` holds of, looking at most
at `count` tokens. -/
def Buffer.seek (b : Buffer) (stop : Kind → Bool) : Nat → Nat → Nat
  | 0, index => index
  | count + 1, index => if stop (b.get index).kind then index else b.seek stop count (index + 1)

namespace Parse

variable {α : Type}

def startUnwinding : Parse Unit := modify fun s => { s with unwinding := true }

/-- Runs a production inside a construct that resumes at `sync`. -/
def withRecovery (sync : List Kind) (p : Parse α) : Parse α :=
  within (fun scope => { scope with recovery := sync :: scope.recovery }) p

/-- Moves to the first token that `stop` holds of, or to the end; gives the number of tokens
passed. -/
def skipTo (stop : Kind → Bool) : Parse Nat := do
  let scope ← scope
  let start ← position
  let found := scope.buffer.seek (fun k => k == .endOfFileToken || stop k)
    (scope.buffer.size - start) start
  modify fun s => { s with position := found }
  return found - start

/-- Skips to a token at which something resumes, and reports what was skipped as one. -/
def skipUntil (sync : Kind → Bool) (lookingFor : String) : Parse Nat := do
  let scope ← scope
  let start ← position
  let first ← token 0
  let found ← describeCurrent
  let skipped ← skipTo fun k => sync k || scope.recovery.any (·.contains k)
  if 0 < skipped then
    report start (← located first.range .unexpectedSkipped [found, toString skipped, lookingFor])
  return skipped

/-- Takes a token that nothing wants. -/
def bumpUnexpected (lookingFor : String) : Parse Unit := do
  let t ← token 0
  let found ← describeCurrent
  report (← position) (← located t.range .unexpectedSkipped [found, "1", lookingFor])
  advance

/-- Runs a round of a loop over `what`, and takes a token if the round took none. -/
def progressing (what : String) (p : Parse α) : Parse α := do
  let before ← position
  let a ← p
  if (← position) == before && !(← isUnwinding) then bumpUnexpected what
  return a

def reportUnterminated (opening : Leaf) (close : Kind) (construct : String) : Parse Unit := do
  report opening.index (← located opening.range .unterminated [construct, close.describe])
  startUnwinding

/-- Takes the token that closes what `opening` began. -/
def expectClosing (opening : Leaf) (close : Kind) (construct : String) : Parse Leaf := do
  if ← atKind close then bump
  else if opening.missing then expect close
  else if ← isUnwinding then
    countError
    missingToken close
  else
    let _ ← skipUntil (· == close) close.describe
    if ← atKind close then bump
    else
      reportUnterminated opening close construct
      missingToken close

/-- Runs a production one level deeper, or unwinds with `fallback` if that is too deep. -/
def nested (p fallback : Parse α) : Parse α := do
  let scope ← scope
  let limit := scope.options.maxNestingDepth
  if limit ≤ scope.depth then
    if (← state).depthReported then countError
    else
      modify fun s => { s with depthReported := true }
      errorHere .nestingTooDeep [toString limit]
    startUnwinding
    fallback
  else within (fun scope => { scope with depth := scope.depth + 1 }) p

/-- Ends an unwinding at the next token at which a definition may begin. -/
def resynchronize (sync : List Kind) : Parse Unit := do
  modify fun s => { s with unwinding := false, depthReported := false }
  let _ ← skipTo sync.contains

/-! ## Attempts -/

/-- Runs a production as an attempt: if it gives nothing or counts an error, nothing has
happened. -/
def attempt (p : Parse (Option α)) : Parse (Option α) := fun r scope s =>
  match p r scope s with
  | none => none
  | some (some a, s') =>
    if s'.errorCount == s.errorCount then some (some a, s') else some (none, s)
  | some (none, _) => some (none, s)

/-- Whether a production would answer yes and count no error. -/
def foresee (p : Parse Bool) : Parse Bool := fun r scope s =>
  match p r scope s with
  | none => none
  | some (b, s') => some (b && s'.errorCount == s.errorCount, s)

end Parse

end BallerinaSyntax
