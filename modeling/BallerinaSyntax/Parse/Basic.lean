import BallerinaSyntax.Diagnostic.Basic
import BallerinaSyntax.Options.Basic
import BallerinaSyntax.Token.Buffer
import BallerinaSyntax.Tree.Info

/-!
Productions. A production reads one construct from the buffer, starting at a position, and never
fails: what it does not find becomes a diagnostic. The rules of the grammar go in circles, so a
production does not call the rules of a circle itself; it names a goal and leaves the call to the
recursion it runs in. The recursion also bounds the rounds of loops. A production has no result
only if that bound is reached, which more steps can mend and nothing else.
-/

namespace BallerinaSyntax

/-- What holds throughout a construct. -/
structure Scope where
  buffer : Buffer
  options : Options
  file : String
  /-- The kinds at which the constructs around this one resume, innermost first. -/
  recovery : List (List Kind) := []
  /-- How many nested constructs there are around this place. -/
  depth : Nat := 0

structure State where
  position : Nat := 0
  diagnostics : Diagnostics := .empty
  /-- The errors so far, with those that were not recorded. -/
  errorCount : Nat := 0
  /-- Where the last recorded error was. -/
  lastErrorAt : Option Nat := none
  /-- A construct was not terminated, and nothing more is read up to the next definition. -/
  unwinding : Bool := false
  /-- The nesting limit has been reported since the last definition began. -/
  depthReported : Bool := false
deriving Repr, Inhabited

/-- The rules through which the circles of the grammar go. -/
inductive Goal : Category → Type where
  /-- An expression whose operators have at least this power. -/
  | expression (power : Nat) : Goal .expression
  /-- A type name whose suffixes have at least this power. -/
  | typeName (power : Nat) : Goal .typeName
  | reference : Goal .reference
  | statement : Goal .statement
  | block : Goal .block
  | callableBody : Goal .callableBody
  | xmlElement : Goal .xmlElement
  | pattern : Goal .pattern
deriving Repr

/-- What a production may call on. -/
structure Recursion where
  /-- The most rounds of a loop. -/
  steps : Nat
  call : {c : Category} → Goal c → Scope → State → Option (Tree c × State)
  /-- What a text becomes as a name. -/
  symbol : String → Symbol

def Parse (α : Type) : Type := Recursion → Scope → State → Option (α × State)

namespace Parse

variable {α β γ : Type}

@[always_inline, inline]
protected def pure (a : α) : Parse α := fun _ _ s => some (a, s)

@[always_inline, inline]
protected def bind (p : Parse α) (f : α → Parse β) : Parse β := fun r scope s =>
  match p r scope s with
  | some (a, s) => f a r scope s
  | none => none

@[always_inline]
instance : Monad Parse where
  pure := Parse.pure
  bind := Parse.bind

def scope : Parse Scope := fun _ scope s => some (scope, s)

def state : Parse State := fun _ _ s => some (s, s)

def modify (f : State → State) : Parse Unit := fun _ _ s => some ((), f s)

/-- Reads a part of the state. -/
@[inline]
def look (f : State → α) : Parse α := fun _ _ s => some (f s, s)

/-- Runs a production in a changed scope. -/
def within (f : Scope → Scope) (p : Parse α) : Parse α := fun r scope s => p r (f scope) s

/-- Reads what a goal names. -/
def call {c : Category} (goal : Goal c) : Parse (Tree c) := fun r scope s => r.call goal scope s

/-- What goes into the tree for a name. -/
def intern (text : String) : Parse Symbol := fun r _ s => some (r.symbol text, s)

/-- What a round of a loop decides. -/
inductive Turn (β γ : Type) where
  | again (value : β)
  | stop (value : γ)

/-- At most `steps` rounds. -/
def rounds (turn : β → Parse (Turn β γ)) : Nat → β → Parse γ
  | 0, _ => fun _ _ _ => none
  | steps + 1, b => do
    match ← turn b with
    | .again b => rounds turn steps b
    | .stop c => return c

/-- Runs rounds from `b` until one stops. -/
def loop (turn : β → Parse (Turn β γ)) (b : β) : Parse γ := fun r scope s =>
  rounds turn r.steps b r scope s

/-- Collects items until `item` finds no more. -/
def many (item : Parse (Option α)) : Parse (List α) := do
  let items ← loop (fun (items : Array α) => do
    match ← item with
    | some a => return .again (items.push a)
    | none => return .stop items) #[]
  return items.toList

end Parse

end BallerinaSyntax
