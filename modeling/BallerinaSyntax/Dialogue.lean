import BallerinaSyntax.Interner
import BallerinaSyntax.ParseTree
import BallerinaSyntax.Program.Definition

/-!
Reading as a dialogue. What stands in the tree for a name is not known to a reading beforehand: it
asks for it when it comes to the name, and goes on with the answer. Whatever is read in an attempt
that fails has been asked for all the same. Who answers may answer other readings in between.
-/

namespace BallerinaSyntax

variable {α β γ : Type}

/-- A computation that asks what stands for texts. -/
inductive Asking (α : Type) where
  | done (value : α)
  | ask (text : String) (resume : Symbol → Asking α)

namespace Asking

/-- A computation, and another one with its value. -/
protected def bind : Asking α → (α → Asking β) → Asking β
  | .done a, f => f a
  | .ask text resume, f => .ask text fun symbol => (resume symbol).bind f

/-- The value, once there is nothing left to ask. -/
def value? : Asking α → Option α
  | .done a => some a
  | .ask .. => none

/-- The value if every question is answered at once, and always in the same way. -/
def answered (symbol : String → Symbol) : Asking α → α
  | .done a => a
  | .ask text resume => (resume (symbol text)).answered symbol

/-- Answers all questions with handles in a table. -/
def run : Asking α → Interner → α × Interner
  | .done a, t => (a, t)
  | .ask text resume, t => (resume (.handle (t.intern text).1)).run (t.intern text).2

end Asking

/-- The goals that productions may call on while they ask, and the most rounds of a loop. -/
structure Goals where
  steps : Nat
  call : {c : Category} → Goal c → Scope → State → Asking (Option (Tree c × State))

/-- A production that asks for its names. -/
def Dialogue (α : Type) : Type := Goals → Scope → State → Asking (Option (α × State))

namespace Dialogue

open Parse

protected def pure (a : α) : Dialogue α := fun _ _ s => .done (some (a, s))

protected def bind (p : Dialogue α) (f : α → Dialogue β) : Dialogue β := fun goals scope s =>
  (p goals scope s).bind fun
    | some (a, s) => f a goals scope s
    | none => .done none

instance : Monad Dialogue where
  pure := Dialogue.pure
  bind := Dialogue.bind

/-- A production that has no names and calls on nothing. -/
def quiet (p : Parse α) : Dialogue α := fun _ scope s => .done (p (Grammar.recursion 0) scope s)

def intern (text : String) : Dialogue Symbol := fun _ _ s =>
  .ask text fun symbol => .done (some (symbol, s))

def call {c : Category} (goal : Goal c) : Dialogue (Tree c) := fun goals => goals.call goal

def withRecovery (sync : List Kind) (p : Dialogue α) : Dialogue α := fun goals scope s =>
  p goals { scope with recovery := sync :: scope.recovery } s

/-- One level deeper, or `fallback` if that is too deep. -/
def nested (p fallback : Dialogue α) : Dialogue α := fun goals scope s =>
  if scope.options.maxNestingDepth ≤ scope.depth then
    (quiet (Parse.nested (pure ()) (pure ())) >>= fun _ => fallback) goals scope s
  else p goals { scope with depth := scope.depth + 1 } s

/-- The state goes back if the attempt fails; what was asked for stays asked for. -/
def attempt (p : Dialogue (Option α)) : Dialogue (Option α) := fun goals scope s =>
  (p goals scope s).bind fun outcome =>
    quiet (Parse.attempt fun _ _ _ => outcome) goals scope s

def foresee (p : Dialogue Bool) : Dialogue Bool := fun goals scope s =>
  (p goals scope s).bind fun outcome =>
    quiet (Parse.foresee fun _ _ _ => outcome) goals scope s

/-- At most `steps` rounds. -/
def rounds (turn : β → Dialogue (Turn β γ)) : Nat → β → Dialogue γ
  | 0, _ => fun _ _ _ => .done none
  | steps + 1, b => do
    match ← turn b with
    | .again b => rounds turn steps b
    | .stop c => return c

def loop (turn : β → Dialogue (Turn β γ)) (b : β) : Dialogue γ := fun goals =>
  rounds turn goals.steps b goals

end Dialogue

/-- The dialogue of a program. -/
def Program.dialogue : {α : Type} → Program α → Dialogue α
  | _, .pure a => Pure.pure a
  | _, .bind p f => p.dialogue >>= fun a => (f a).dialogue
  | _, .look f => .quiet fun _ scope s => some (f scope s, s)
  | _, .advance => .quiet Parse.advance
  | _, .skipTo stop => .quiet (Parse.skipTo stop)
  | _, .countError => .quiet Parse.countError
  | _, .report index d => .quiet (Parse.report index d)
  | _, .giveUp index d => .quiet (Parse.report index d >>= fun _ => Parse.startUnwinding)
  | _, .withRecovery sync p => .withRecovery sync p.dialogue
  | _, .nested p fallback => .nested p.dialogue fallback.dialogue
  | _, .attempt p => .attempt p.dialogue
  | _, .foresee p => .foresee p.dialogue
  | _, .loop turn b => .loop (fun b => (turn b).dialogue) b
  | _, .call goal => .call goal
  | _, .intern text => .intern text

/-- The goals of the grammar, of which at most `levels` are open at a time. -/
def Goals.grammar : Nat → Goals
  | 0 => ⟨0, fun _ _ _ => .done none⟩
  | levels + 1 => ⟨levels, fun goal => (program (Grammar.rule goal)).dialogue (grammar levels)⟩

/-! ## Units -/

namespace Dialogue

open Parse Grammar

/-- All items up to the end of the file. -/
def unitItems : Dialogue UnitItems :=
  loop (fun (items : UnitItems) => do
    if ← quiet isUnwinding then quiet (resynchronize topLevelStart)
    if ← quiet atEnd then return .stop items
    return .again (← (program (progressing "a definition" (unitItem items))).dialogue)) {}

def compilationUnit : Dialogue CompilationUnit := do
  let m ← quiet mark
  let items ← unitItems
  let endOfFile ← quiet bumpEndOfFile
  return {
    info := ← quiet (finish m .compilationUnit)
    imports := items.imports.toList
    definitions := items.definitions.toList
    endOfFile := endOfFile }

end Dialogue

/-- Reading a unit, name by name. There is no result if reading never ends. -/
def SourceUnit.dialogue (u : SourceUnit) (options : Options) :
    Asking (Option (Except ParseError ParseTree)) :=
  let buffer := Buffer.ofSource u.source
  (Dialogue.compilationUnit (.grammar buffer.steps)
    { buffer := buffer, options := options, file := u.file } {}).bind fun read =>
      .done (read.map u.outcome)

end BallerinaSyntax
