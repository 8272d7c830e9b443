import BallerinaSyntax.Grammar.Goal

/-!
Productions as programs. What a production may do besides looking at its surroundings comes down to
a few operations. Written with these as a tree, a production can be run in other ways than the usual
one, and what all productions have in common is shown by one induction.
-/

namespace BallerinaSyntax

open Parse

variable {α β γ : Type}

/-- What productions inside a definition are made of. Nothing here ends an unwinding or passes the
end of the file; only whole units do. -/
inductive Program : Type → Type 1 where
  | pure {α : Type} (a : α) : Program α
  | bind {α β : Type} (p : Program α) (f : α → Program β) : Program β
  /-- Looks at the surroundings and changes nothing. -/
  | look {α : Type} (f : Scope → State → α) : Program α
  | advance : Program Unit
  | skipTo (stop : Kind → Bool) : Program Nat
  | countError : Program Unit
  | report (index : Nat) (d : Diagnostic) : Program Unit
  /-- Reports a construct that does not end, and unwinds. -/
  | giveUp (index : Nat) (d : Diagnostic) : Program Unit
  | withRecovery {α : Type} (sync : List Kind) (p : Program α) : Program α
  | nested {α : Type} (p fallback : Program α) : Program α
  | attempt {α : Type} (p : Program (Option α)) : Program (Option α)
  | foresee (p : Program Bool) : Program Bool
  | loop {β γ : Type} (turn : β → Program (Turn β γ)) (b : β) : Program γ
  | call {c : Category} (goal : Goal c) : Program (Tree c)
  /-- Asks what goes into the tree for a name. -/
  | intern (text : String) : Program Symbol

/-- The production that does what a program says. -/
def Program.run : {α : Type} → Program α → Parse α
  | _, .pure a => Pure.pure a
  | _, .bind p f => p.run >>= fun a => (f a).run
  | _, .look f => fun _ scope s => some (f scope s, s)
  | _, .advance => Parse.advance
  | _, .skipTo stop => Parse.skipTo stop
  | _, .countError => Parse.countError
  | _, .report index d => Parse.report index d
  | _, .giveUp index d => Parse.report index d >>= fun _ => startUnwinding
  | _, .withRecovery sync p => Parse.withRecovery sync p.run
  | _, .nested p fallback => Parse.nested p.run fallback.run
  | _, .attempt p => Parse.attempt p.run
  | _, .foresee p => Parse.foresee p.run
  | _, .loop turn b => Parse.loop (fun b => (turn b).run) b
  | _, .call goal => Parse.call goal
  | _, .intern text => Parse.intern text

/-- A production that has been written as a program. -/
class Programmed (p : Parse α) where
  program : Program α
  run_program : program.run = p

export Programmed (program run_program)

attribute [simp] run_program

namespace Programmed

variable {p q : Parse α}

/-! ## Ways to put productions together -/

instance ofPure (a : α) : Programmed (Pure.pure a : Parse α) := ⟨.pure a, rfl⟩

instance ofBind (p : Parse α) (f : α → Parse β) [Programmed p] [∀ a, Programmed (f a)] :
    Programmed (p >>= f) :=
  ⟨.bind (program p) fun a => program (f a), by simp [Program.run]⟩

/-- A production that is run first, behind which the cases are told apart. -/
abbrev andThen {p : Parse α} {f : α → Parse β} [Programmed p] (hf : ∀ a, Programmed (f a)) :
    Programmed (p >>= f) := ofBind p f

instance ite {c : Prop} [Decidable c] (p q : Parse α) [Programmed p] [Programmed q] :
    Programmed (if c then p else q) :=
  ⟨if c then program p else program q, by split <;> simp⟩

/-- A production that only looks. -/
abbrev ofLook (f : Scope → State → α) (h : ∀ r scope s, p r scope s = some (f scope s, s)) :
    Programmed p :=
  ⟨.look f, by funext r scope s; exact (h r scope s).symm⟩

instance withRecovery (sync : List Kind) (p : Parse α) [Programmed p] :
    Programmed (Parse.withRecovery sync p) :=
  ⟨.withRecovery sync (program p), by simp [Program.run]⟩

instance nested (p fallback : Parse α) [Programmed p] [Programmed fallback] :
    Programmed (Parse.nested p fallback) :=
  ⟨.nested (program p) (program fallback), by simp [Program.run]⟩

instance attempt (p : Parse (Option α)) [Programmed p] : Programmed (Parse.attempt p) :=
  ⟨.attempt (program p), by simp [Program.run]⟩

instance foresee (p : Parse Bool) [Programmed p] : Programmed (Parse.foresee p) :=
  ⟨.foresee (program p), by simp [Program.run]⟩

instance loop (turn : β → Parse (Turn β γ)) (b : β) [∀ b, Programmed (turn b)] :
    Programmed (Parse.loop turn b) :=
  ⟨.loop (fun b => program (turn b)) b, by simp [Program.run]⟩

instance call {c : Category} (goal : Goal c) : Programmed (Parse.call goal) := ⟨.call goal, rfl⟩

instance (text : String) : Programmed (Parse.intern text) := ⟨.intern text, rfl⟩

/-! ## Looking -/

instance : Programmed Parse.scope := .ofLook _ fun _ _ _ => rfl

instance : Programmed state := .ofLook _ fun _ _ _ => rfl

instance : Programmed position := .ofLook _ fun _ _ _ => rfl

instance : Programmed isUnwinding := .ofLook _ fun _ _ _ => rfl

instance : Programmed mark := .ofLook _ fun _ _ _ => rfl

instance : Programmed atEnd := .ofLook _ fun _ _ _ => rfl

instance : Programmed describeCurrent := .ofLook _ fun _ _ _ => rfl

section Looking

variable (ahead : Nat) (k : Kind) (ks : List Kind)

instance : Programmed (token ahead) := .ofLook _ fun _ _ _ => rfl

instance : Programmed (kind ahead) := .ofLook _ fun _ _ _ => rfl

instance : Programmed (isKind ahead k) := .ofLook _ fun _ _ _ => rfl

instance : Programmed (atKind k) := .ofLook _ fun _ _ _ => rfl

instance : Programmed (atAny ks) := .ofLook _ fun _ _ _ => rfl

instance : Programmed (goesOn k) := .ofLook _ fun _ _ _ => rfl

instance : Programmed (atListEnd k) := .ofLook _ fun _ _ _ => rfl

instance : Programmed (isName k) := .ofLook _ fun _ _ _ => rfl

instance : Programmed (isQualifiedName ahead) := .ofLook _ fun _ _ _ => rfl

end Looking

/-! ## Errors -/

instance (range : ByteRange) (message : Message) (args : List String) :
    Programmed (located range message args) := .ofLook _ fun _ _ _ => rfl

instance : Programmed countError := ⟨.countError, rfl⟩

section Errors

variable (index : Nat) (d : Diagnostic) (message : Message) (args : List String) (what : String)

instance : Programmed (report index d) := ⟨.report index d, rfl⟩

instance : Programmed (errorHere message args) := by unfold errorHere; infer_instance

instance : Programmed (errorExpected what) := by unfold errorExpected; infer_instance

instance : Programmed (errorNoViableAlternative what) := by
  unfold errorNoViableAlternative; infer_instance

end Errors

/-! ## Taking tokens -/

instance : Programmed advance := ⟨.advance, rfl⟩

instance : Programmed bump := by unfold bump; infer_instance

instance : Programmed bumpName := by unfold bumpName; infer_instance

section Tokens

variable (k : Kind)

instance : Programmed (Parse.optional k) := by unfold Parse.optional; infer_instance

instance : Programmed (accept k) := by unfold accept; infer_instance

instance : Programmed (missingToken k) := by unfold missingToken; infer_instance

instance : Programmed (expect k) := by unfold expect; infer_instance

instance (wanted : Kind → Bool) (expected : String) : Programmed (expectAny wanted expected) := by
  unfold expectAny; infer_instance

end Tokens

instance : Programmed missingName := by unfold missingName; infer_instance

instance : Programmed identifier := by unfold identifier; infer_instance

instance : Programmed optionalIdentifier := by unfold optionalIdentifier; infer_instance

instance : Programmed callableName := by unfold callableName; infer_instance

/-! ## Lists -/

instance many (item : Parse (Option α)) [Programmed item] : Programmed (Parse.many item) := by
  have turn (items : Array α) (a : Option α) : Programmed (match a with
      | some a => Pure.pure (.again (items.push a))
      | none => Pure.pure (.stop items) : Parse (Turn (Array α) (Array α))) := by
    cases a with
    | none => exact ofPure _
    | some a => exact ofPure _
  unfold Parse.many
  infer_instance

instance moreBehind (separator : Kind) (item : Parse α) [Programmed item] :
    Programmed (Parse.moreBehind separator item) := by
  unfold Parse.moreBehind; infer_instance

instance separatedBy (separator : Kind) (item : Parse α) [Programmed item] :
    Programmed (Parse.separatedBy separator item) := by
  unfold Parse.separatedBy; infer_instance

instance commaList (item : Parse α) [Programmed item] : Programmed (Parse.commaList item) := by
  unfold Parse.commaList; infer_instance

instance listUntil (close : Kind) (item : Parse α) [Programmed item] :
    Programmed (Parse.listUntil close item) := by
  unfold Parse.listUntil; infer_instance

instance listAfter (opening : Leaf) (close : Kind) (item : Parse α) [Programmed item] :
    Programmed (Parse.listAfter opening close item) := by
  unfold Parse.listAfter; infer_instance

/-! ## Nodes -/

section Nodes

variable (m : Mark) (k : Kind)

instance : Programmed (finish m k) := .ofLook _ fun _ _ _ => rfl

instance (close : Leaf) : Programmed (finishDelimited m k close) := by
  unfold finishDelimited; infer_instance

instance (modifiers : Modifiers) : Programmed (finishModified m k modifiers) := by
  unfold finishModified; infer_instance

instance : Programmed (placeholder k) := by unfold placeholder; infer_instance

end Nodes

/-! ## Going on after an error -/

instance (stop : Kind → Bool) : Programmed (skipTo stop) := ⟨.skipTo stop, rfl⟩

section Recovery

variable (what : String) (opening : Leaf) (close : Kind)

instance (sync : Kind → Bool) : Programmed (skipUntil sync what) := by
  unfold skipUntil; infer_instance

instance : Programmed (bumpUnexpected what) := by unfold bumpUnexpected; infer_instance

instance progressing (p : Parse α) [Programmed p] : Programmed (Parse.progressing what p) := by
  unfold Parse.progressing; infer_instance

instance : Programmed (reportUnterminated opening close what) :=
  ⟨.bind (program (located opening.range .unterminated [what, close.describe])) fun d =>
    .giveUp opening.index d, by simp only [Program.run, run_program]; rfl⟩

instance : Programmed (expectClosing opening close what) := by
  unfold expectClosing; infer_instance

end Recovery

/-! ## Goals -/

section Goals

open Grammar

instance (power : ExpressionPower) : Programmed (expressionAt power) := call _

instance : Programmed expression := call _

instance (power : TypePower) : Programmed (typeNameAt power) := call _

instance : Programmed typeName := call _

instance : Programmed reference := call _

instance : Programmed statement := call _

instance : Programmed block := call _

instance : Programmed callableBody := call _

instance : Programmed xmlElement := call _

instance : Programmed pattern := call _

variable {c : Category}

instance (k : Kind) (p : Parse (Tree c)) [Programmed p] : Programmed (behind k p) := by
  unfold behind; infer_instance

instance (condition : Parse Bool) (p : Parse (Tree c)) [Programmed condition] [Programmed p] :
    Programmed (whenever condition p) := by
  unfold whenever; infer_instance

end Goals

end Programmed

end BallerinaSyntax
