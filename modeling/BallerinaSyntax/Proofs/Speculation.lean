import BallerinaSyntax.Proofs.Program.Machine

/-!
Speculation is atomic. The grammar tries out a reading in four places and only looks ahead in two.
On a machine, whose checkpoint keeps little, no trace is left of a reading that is not kept, and of
one that is kept only that the machine has come further.
-/

namespace BallerinaSyntax

open Grammar Parse

variable {α : Type}

/-- The readings that the grammar tries out. -/
inductive Attempt : Type → Type where
  /-- The members of a tuple parameter. -/
  | tupleParameter : Attempt (List (Tree .simpleParameter))
  /-- The variables that a destructuring declares. -/
  | variables : Attempt (Tree (.list .simpleParameter))
  /-- The references that a destructuring assigns to. -/
  | references : Attempt (Tree (.list .reference))
  /-- The range of whole numbers that a `foreach` goes through. -/
  | range : Attempt (Tree .intRange)

def Attempt.production : {α : Type} → Attempt α → Parse (Option α)
  | _, .tupleParameter => tupleMembers
  | _, .variables => destructuringMembers simpleParameter
  | _, .references => destructuringMembers reference
  | _, .range => iterableRange

instance (a : Attempt α) : Programmed a.production := by
  cases a <;> dsimp only [Attempt.production] <;> infer_instance

/-- The readings with which the grammar only looks ahead. -/
inductive Lookahead where
  | variableDefinition
  | pattern

def Lookahead.production : Lookahead → Parse Bool
  | .variableDefinition => startsVariableDefinition
  | .pattern => startsPattern

instance (l : Lookahead) : Programmed l.production := by
  cases l <;> dsimp only [Lookahead.production] <;> infer_instance

/-- A production of which every run leaves the state as it was. -/
def Parse.Leaves (p : Parse α) : Prop :=
  ∀ ⦃r scope s a t⦄, p r scope s = some (a, t) → t = s

theorem Parse.foresee_leaves (p : Parse Bool) : (foresee p).Leaves := by
  intro r scope s b t h
  unfold foresee at h
  split at h <;> cases h
  rfl

theorem Lookahead.leaves (l : Lookahead) : l.production.Leaves := by
  cases l with
  | variableDefinition => exact foresee_leaves _
  | pattern =>
    intro r scope s b t h
    obtain ⟨certain, u, hu, h⟩ := bind_eq_some.mp h
    rw [looks_atAny _ r scope s] at hu
    cases hu
    split at h
    · cases h
      rfl
    · exact foresee_leaves _ h

/-- What an attempt leaves of a state. -/
def State.Outcome (s t : State) : Option α → Prop
  | none => t = s
  | some _ => s.position ≤ t.position ∧ t = { s with position := t.position }

theorem Parse.attempt_outcome {p : Parse (Option α)} {r : Recursion} {scope : Scope} {s t : State}
    {kept : Option α} (hp : Onward (p r scope)) (h : attempt p r scope s = some (kept, t)) :
    s.Outcome t kept := by
  unfold attempt at h
  split at h
  · cases h
  · rename_i a u hu
    split at h <;> cases h
    · rename_i he
      have advances := hp hu
      exact ⟨advances.position, advances.quiet (beq_iff_eq.mp he)⟩
    · rfl
  · cases h
    rfl

/-- However far a machine has come: by looking ahead nothing of it changes, nor by an attempt that
gives nothing; by an attempt that is kept only the position changes, and never backwards. -/
theorem speculation_atomic (levels : Nat) (m m' : Machine) :
    (∀ (l : Lookahead) (answer : Bool),
      m.run levels l.production = some (answer, m') → m' = m) ∧
    ∀ (α : Type) (a : Attempt α) (kept : Option α),
      m.run levels (attempt a.production) = some (kept, m') →
        m'.scope = m.scope ∧ m.state.Outcome m'.state kept := by
  constructor
  · intro l answer h
    rw [Machine.run_eq] at h
    obtain ⟨⟨b, s⟩, hr, hm⟩ := Option.map_eq_some_iff.mp h
    cases hm
    rw [l.leaves hr]
    rfl
  · intro α a kept h
    rw [Machine.run_eq] at h
    obtain ⟨⟨b, s⟩, hr, hm⟩ := Option.map_eq_some_iff.mp h
    cases hm
    have onward := (program a.production).onward (recursion_onward levels) m.scope
    rw [run_program] at onward
    exact ⟨rfl, attempt_outcome onward hr⟩

/-- A machine at the first of these tokens, inside an object. -/
def Machine.inObject (kinds : List Kind) : Machine where
  scope := {
    buffer := .ofSource { tokens := kinds.map fun k => .fixed k 0 }
    options := {}
    file := "object.bal"
    recovery := [objectMemberSync]
    depth := 2 }
  state := {}

/-- What begins like a tuple parameter but is an object type that does not end, so that errors are
reported below further recovery sets and the machine unwinds, leaves no trace; nor does looking
ahead at it. A tuple parameter is kept. -/
theorem tupleParameter_attempts :
    let unclosed := Machine.inObject [.openParenToken, .objectKeyword, .openBraceToken,
      .endOfFileToken]
    let closed := Machine.inObject [.openParenToken, .intKeyword, .identifier, .closeParenToken,
      .endOfFileToken]
    unclosed.run 6 Lookahead.variableDefinition.production = some (false, unclosed) ∧
      (∃ m, unclosed.run 6 (attempt Attempt.tupleParameter.production) = some (none, m) ∧
        m.scope = unclosed.scope ∧ m.state = unclosed.state) ∧
      ∃ members m,
        closed.run 6 (attempt Attempt.tupleParameter.production) = some (some members, m) ∧
        m.scope = closed.scope ∧ m.state = { closed.state with position := m.state.position } := by
  intro unclosed closed
  have looked : (unclosed.run 6 Lookahead.variableDefinition.production).map (·.1) =
      some false := by decide +kernel
  have tried : (unclosed.run 6 (attempt Attempt.tupleParameter.production)).map (·.1.isSome) =
      some false := by decide +kernel
  have kept : (closed.run 6 (attempt Attempt.tupleParameter.production)).map (·.1.isSome) =
      some true := by decide +kernel
  obtain ⟨⟨_, m⟩, looked, rfl⟩ := Option.map_eq_some_iff.mp looked
  obtain ⟨⟨given, n⟩, tried, nothing⟩ := Option.map_eq_some_iff.mp tried
  obtain rfl : given = none := by simpa using nothing
  obtain ⟨⟨given, p⟩, kept, something⟩ := Option.map_eq_some_iff.mp kept
  obtain ⟨members, rfl⟩ := Option.isSome_iff_exists.mp something
  refine ⟨?_, ⟨n, tried, (speculation_atomic 6 unclosed n).2 _ _ _ tried⟩, members, p, kept, ?_⟩
  · rw [looked, (speculation_atomic 6 unclosed m).1 _ _ looked]
  · obtain ⟨scope, -, state⟩ := (speculation_atomic 6 closed p).2 _ _ _ kept
    exact ⟨scope, state⟩

end BallerinaSyntax
