import BallerinaSyntax.Dialogue
import BallerinaSyntax.Proofs.Recovery

/-!
Dialogues that are answered by a function. If what stands for a text depends on nothing but the text,
the dialogue of a production comes to what the production itself reads, with that function for its
names.
-/

namespace BallerinaSyntax

open Parse

variable {α β γ : Type}

theorem Asking.answered_bind (symbol : String → Symbol) (d : Asking α) (f : α → Asking β) :
    (d.bind f).answered symbol = (f (d.answered symbol)).answered symbol := by
  induction d with
  | done a => rfl
  | ask text resume ih => exact ih (symbol text)

/-! ## Productions -/

/-- Goals whose dialogues come to what a recursion reads. -/
structure Goals.Match (goals : Goals) (r : Recursion) : Prop where
  steps : goals.steps = r.steps
  call : ∀ {c : Category} (goal : Goal c) (scope : Scope) (s : State),
    (goals.call goal scope s).answered r.symbol = r.call goal scope s

/-- A dialogue that comes to what a production reads. -/
def Dialogue.Reads (d : Dialogue α) (p : Parse α) : Prop :=
  ∀ ⦃goals r⦄, goals.Match r → ∀ scope s, (d goals scope s).answered r.symbol = p r scope s

namespace Dialogue.Reads

theorem pure (a : α) : Dialogue.Reads (Pure.pure a) (Pure.pure a) := fun _ _ _ _ _ => rfl

theorem bind {d : Dialogue α} {p : Parse α} {f : α → Dialogue β} {k : α → Parse β}
    (hp : d.Reads p) (hf : ∀ a, (f a).Reads (k a)) : (d >>= f).Reads (p >>= k) := by
  intro goals r h scope s
  refine (Asking.answered_bind ..).trans ?_
  rw [hp h]
  change _ = Parse.bind p k r scope s
  rw [Parse.bind]
  cases p r scope s with
  | none => rfl
  | some x => exact hf x.1 h scope x.2

/-- A production that is the same in every recursion. -/
theorem quiet {p : Parse α} (h : ∀ r scope s, p r scope s = p (Grammar.recursion 0) scope s) :
    (Dialogue.quiet p).Reads p :=
  fun _ r _ scope s => (h r scope s).symm

theorem intern (text : String) : (Dialogue.intern text).Reads (Parse.intern text) :=
  fun _ _ _ _ _ => rfl

theorem call {c : Category} (goal : Goal c) : (Dialogue.call goal).Reads (Parse.call goal) :=
  fun _ _ h => h.call goal

theorem ite {c : Prop} [Decidable c] {d e : Dialogue α} {p q : Parse α} (hp : d.Reads p)
    (hq : e.Reads q) : (if c then d else e).Reads (if c then p else q) := by
  split
  · exact hp
  · exact hq

theorem withRecovery (sync : List Kind) {d : Dialogue α} {p : Parse α} (hp : d.Reads p) :
    (Dialogue.withRecovery sync d).Reads (Parse.withRecovery sync p) :=
  fun _ _ h _ s => hp h _ s

theorem nested {d e : Dialogue α} {p fallback : Parse α} (hp : d.Reads p) (he : e.Reads fallback) :
    (Dialogue.nested d e).Reads (Parse.nested p fallback) := by
  intro goals r h scope s
  rw [nested_eq, Dialogue.nested]
  split
  · have reported : (Dialogue.quiet (Parse.nested (Pure.pure ()) (Pure.pure ())) >>= fun _ => e).Reads
        (Parse.nested (Pure.pure ()) (Pure.pure ()) >>= fun _ => fallback) := by
      refine .bind (.quiet fun r scope s => ?_) fun _ => he
      rw [nested_eq, nested_eq]
      rfl
    refine (reported h scope s).trans ?_
    change Parse.bind (Parse.nested (Pure.pure ()) (Pure.pure ())) _ r scope s = _
    rw [Parse.bind, nested_eq, if_pos ‹_›]
    rfl
  · exact hp h _ s

theorem attempt {d : Dialogue (Option α)} {p : Parse (Option α)} (hp : d.Reads p) :
    (Dialogue.attempt d).Reads (Parse.attempt p) := by
  intro goals r h scope s
  refine (Asking.answered_bind ..).trans ?_
  rw [hp h]
  rfl

theorem foresee {d : Dialogue Bool} {p : Parse Bool} (hp : d.Reads p) :
    (Dialogue.foresee d).Reads (Parse.foresee p) := by
  intro goals r h scope s
  refine (Asking.answered_bind ..).trans ?_
  rw [hp h]
  rfl

theorem rounds {turn : β → Dialogue (Turn β γ)} {turn' : β → Parse (Turn β γ)}
    (h : ∀ b, (turn b).Reads (turn' b)) (steps : Nat) (b : β) :
    (Dialogue.rounds turn steps b).Reads (Parse.rounds turn' steps b) := by
  induction steps generalizing b with
  | zero => exact fun _ _ _ _ _ => rfl
  | succ steps ih =>
    refine .bind (h b) fun x => ?_
    cases x with
    | again b => exact ih b
    | stop c => exact .pure c

theorem loop {turn : β → Dialogue (Turn β γ)} {turn' : β → Parse (Turn β γ)}
    (h : ∀ b, (turn b).Reads (turn' b)) (b : β) :
    (Dialogue.loop turn b).Reads (Parse.loop turn' b) := by
  intro goals r hr scope s
  change Asking.answered _ (Dialogue.rounds turn goals.steps b goals scope s) = _
  rw [hr.steps]
  exact rounds h r.steps b hr scope s

end Dialogue.Reads

/-- The dialogue of a program comes to what the program does. -/
theorem Program.dialogue_reads (p : Program α) : p.dialogue.Reads p.run := by
  induction p with
  | pure a => exact .pure a
  | bind p f hp hf => exact .bind hp hf
  | look f => exact .quiet fun _ _ _ => rfl
  | advance => exact .quiet fun _ _ _ => rfl
  | skipTo stop => exact .quiet fun _ _ _ => rfl
  | countError => exact .quiet fun _ _ _ => rfl
  | report index d => exact .quiet fun _ _ _ => rfl
  | giveUp index d => exact .quiet fun _ _ _ => rfl
  | withRecovery sync p hp => exact .withRecovery sync hp
  | nested p fallback hp hf => exact .nested hp hf
  | attempt p hp => exact .attempt hp
  | foresee p hp => exact .foresee hp
  | loop turn b h => exact .loop h b
  | call goal => exact .call goal
  | intern text => exact .intern text

/-- A production that is a program reads what its dialogue comes to. -/
theorem Programmed.dialogue_reads (p : Parse α) [Programmed p] : (program p).dialogue.Reads p := by
  have h := (program p).dialogue_reads
  rwa [run_program] at h

theorem Goals.grammar_match (symbol : String → Symbol) (levels : Nat) :
    (grammar levels).Match (Grammar.recursionWith symbol levels) := by
  induction levels with
  | zero => exact ⟨rfl, fun _ _ _ => rfl⟩
  | succ levels ih =>
    refine ⟨rfl, fun goal scope s => ?_⟩
    have h := Programmed.dialogue_reads (Grammar.rule goal) ih scope s
    rwa [Grammar.symbol_recursionWith] at h

/-! ## Units -/

namespace Dialogue

open Grammar

theorem reads_unitItems : Dialogue.unitItems.Reads Grammar.unitItems := by
  refine .loop (fun items => ?_) ({} : UnitItems)
  have item : Dialogue.Reads (do
      if ← quiet atEnd then return .stop items
      return .again (← (program (progressing "a definition" (unitItem items))).dialogue) :
        Dialogue (Turn UnitItems UnitItems)) (do
      if ← atEnd then return .stop items
      return .again (← progressing "a definition" (unitItem items))) :=
    .bind (.quiet fun _ _ _ => rfl) fun _ => .ite (.pure _)
      (.bind (Programmed.dialogue_reads _) fun _ => .pure _)
  exact .bind (.quiet fun _ _ _ => rfl) fun _ => .ite (.bind (.quiet fun _ _ _ => rfl) fun _ => item) item

theorem reads_bumpEndOfFile : (quiet bumpEndOfFile).Reads bumpEndOfFile := by
  refine .quiet fun r scope s => ?_
  change (if (scope.buffer.get s.position).isEndOfFile then _ else _ : Parse Leaf) r scope s =
    (if (scope.buffer.get s.position).isEndOfFile then _ else _ : Parse Leaf) _ scope s
  split <;> rfl

theorem reads_compilationUnit : Dialogue.compilationUnit.Reads Grammar.compilationUnit :=
  .bind (.quiet fun _ _ _ => rfl) fun _ => .bind reads_unitItems fun _ => .bind reads_bumpEndOfFile
    fun _ => .bind (.quiet fun _ _ _ => rfl) fun _ => .pure _

end Dialogue

/-- Reads a unit with these symbols for its names. -/
def SourceUnit.parseWith? (u : SourceUnit) (symbol : String → Symbol) (options : Options) :
    Option (Except ParseError ParseTree) :=
  (Grammar.compilationUnit (Grammar.recursionWith symbol (Buffer.ofSource u.source).steps)
    { buffer := .ofSource u.source, options := options, file := u.file } {}).map u.outcome

/-- What a dialogue about a unit comes to. -/
theorem SourceUnit.dialogue_answered (u : SourceUnit) (symbol : String → Symbol) (options : Options) :
    (u.dialogue options).answered symbol = u.parseWith? symbol options := by
  have h := Dialogue.reads_compilationUnit
    (Goals.grammar_match symbol (Buffer.ofSource u.source).steps)
    { buffer := .ofSource u.source, options := options, file := u.file } {}
  rw [Grammar.symbol_recursionWith] at h
  rw [dialogue, Asking.answered_bind, h]
  rfl

end BallerinaSyntax
