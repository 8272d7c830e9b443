import BallerinaSyntax.Proofs.Program.Effect

/-!
Programs on a machine. A machine keeps everything in one record that every step changes in place:
the recovery sets of the open constructs are a stack, the nesting depth is a counter, and an attempt
takes a checkpoint and rewinds to it. The checkpoint holds no recovery sets, and of the diagnostics
only their number. A machine still does what productions do, in which all of this is local; so
nothing that runs inside an attempt can be seen after it.
-/

namespace BallerinaSyntax

open Parse

variable {α β γ : Type}

/-- What holds around the place where the machine is, and how far it has come. -/
structure Machine where
  scope : Scope
  state : State

/-- What is remembered of a machine. -/
structure Checkpoint where
  position : Nat
  /-- How many diagnostics there are. -/
  diagnostics : Nat
  errorCount : Nat
  lastErrorAt : Option Nat
  unwinding : Bool
  depth : Nat
  depthReported : Bool

namespace Machine

def reach (m : Machine) (s : State) : Machine := { m with state := s }

def push (m : Machine) (sync : List Kind) : Machine :=
  { m with scope := { m.scope with recovery := sync :: m.scope.recovery } }

def pop (m : Machine) : Machine :=
  { m with scope := { m.scope with recovery := m.scope.recovery.tail } }

def descend (m : Machine) : Machine :=
  { m with scope := { m.scope with depth := m.scope.depth + 1 } }

def ascend (m : Machine) : Machine :=
  { m with scope := { m.scope with depth := m.scope.depth - 1 } }

def checkpoint (m : Machine) : Checkpoint where
  position := m.state.position
  diagnostics := m.state.diagnostics.size
  errorCount := m.state.errorCount
  lastErrorAt := m.state.lastErrorAt
  unwinding := m.state.unwinding
  depth := m.scope.depth
  depthReported := m.state.depthReported

/-- Goes back to a checkpoint; the recovery sets stay as they are. -/
def rewind (m : Machine) (c : Checkpoint) : Machine where
  scope := { m.scope with depth := c.depth }
  state := {
    position := c.position
    diagnostics := m.state.diagnostics.truncate c.diagnostics
    errorCount := c.errorCount
    lastErrorAt := c.lastErrorAt
    unwinding := c.unwinding
    depthReported := c.depthReported }

/-- Runs a production that calls nothing. -/
def perform (m : Machine) (p : Parse α) : Option (α × Machine) :=
  (p (Grammar.recursion 0) m.scope m.state).map fun x => (x.1, m.reach x.2)

end Machine

/-- What a program on a machine may call on. -/
structure Calls where
  steps : Nat
  call : {c : Category} → Goal c → Machine → Option (Tree c × Machine)
  symbol : String → Symbol

/-- At most `steps` rounds. -/
def Machine.rounds (turn : β → Machine → Option (Turn β γ × Machine)) :
    Nat → β → Machine → Option (γ × Machine)
  | 0, _, _ => none
  | steps + 1, b, m =>
    match turn b m with
    | none => none
    | some (.again b, m) => Machine.rounds turn steps b m
    | some (.stop c, m) => some (c, m)

/-- Runs a program on a machine. -/
def Program.exec (calls : Calls) : {α : Type} → Program α → Machine → Option (α × Machine)
  | _, .pure a, m => some (a, m)
  | _, .bind p f, m =>
    match p.exec calls m with
    | none => none
    | some (a, m) => (f a).exec calls m
  | _, .look f, m => some (f m.scope m.state, m)
  | _, .advance, m => m.perform Parse.advance
  | _, .skipTo stop, m => m.perform (Parse.skipTo stop)
  | _, .countError, m => m.perform Parse.countError
  | _, .report index d, m => m.perform (Parse.report index d)
  | _, .giveUp index d, m => m.perform (Parse.report index d >>= fun _ => startUnwinding)
  | _, .withRecovery sync p, m =>
    match p.exec calls (m.push sync) with
    | none => none
    | some (a, m) => some (a, m.pop)
  | _, .nested p fallback, m =>
    if m.scope.options.maxNestingDepth ≤ m.scope.depth then
      fallback.exec calls (m.reach (m.state.tooDeep m.scope))
    else
      match p.exec calls m.descend with
      | none => none
      | some (a, m) => some (a, m.ascend)
  | _, .attempt p, m =>
    match p.exec calls m with
    | none => none
    | some (some a, m') =>
      if m'.state.errorCount == m.state.errorCount then some (some a, m')
      else some (none, m'.rewind m.checkpoint)
    | some (none, m') => some (none, m'.rewind m.checkpoint)
  | _, .foresee p, m =>
    match p.exec calls m with
    | none => none
    | some (b, m') =>
      some (b && m'.state.errorCount == m.state.errorCount, m'.rewind m.checkpoint)
  | _, .loop turn b, m => Machine.rounds (fun b => (turn b).exec calls) calls.steps b m
  | _, .call goal, m => calls.call goal m
  | _, .intern text, m => some (calls.symbol text, m)

/-- The calls of the grammar, of which at most `levels` are open at a time. -/
def Calls.grammar : Nat → Calls
  | 0 => ⟨0, fun _ _ => none, .text⟩
  | levels + 1 => ⟨levels, fun goal m => (program (Grammar.rule goal)).exec (grammar levels) m, .text⟩

/-! ## The machine does what productions do -/

/-- Running in place comes to the same as running with all of the surroundings local. -/
def Machine.Does (run : Machine → Option (α × Machine)) (p : Scope → State → Option (α × State)) :
    Prop :=
  ∀ m, run m = (p m.scope m.state).map fun x => (x.1, m.reach x.2)

structure Calls.Does (calls : Calls) (r : Recursion) : Prop where
  steps : calls.steps = r.steps
  call : ∀ ⦃c : Category⦄ (goal : Goal c), Machine.Does (calls.call goal) (r.call goal)
  symbol : calls.symbol = r.symbol
  onward : r.Onward

theorem Parse.bind_apply (p : Parse α) (f : α → Parse β) (r : Recursion) (scope : Scope)
    (s : State) : (p >>= f) r scope s = (p r scope s).bind fun x => f x.1 r scope x.2 := by
  change Parse.bind p f r scope s = _
  unfold Parse.bind
  cases p r scope s with
  | none => rfl
  | some x => rfl

theorem Diagnostics.truncate_of_prefix {ds more : Diagnostics} (h : ds.toList <+: more.toList) :
    more.truncate ds.size = ds := by
  obtain ⟨rest, hr⟩ := h
  unfold Diagnostics.truncate Diagnostics.size
  rw [← hr, List.take_left]

namespace Machine

/-- Truncating the diagnostics gives back those of the checkpoint, because none was taken away. -/
theorem rewind_checkpoint {m : Machine} {s : State} (h : m.state.Advances s) :
    (m.reach s).rewind m.checkpoint = m := by
  have hd : s.diagnostics.truncate m.state.diagnostics.size = m.state.diagnostics :=
    Diagnostics.truncate_of_prefix h.diagnostics
  unfold rewind checkpoint reach
  simp only [hd]

variable {r : Recursion}

theorem Does.rounds {turn : β → Machine → Option (Turn β γ × Machine)}
    {turn' : β → Parse (Turn β γ)} (h : ∀ b, Does (turn b) (turn' b r)) (n : Nat) (b : β) :
    Does (Machine.rounds turn n b) (Parse.rounds turn' n b r) := by
  induction n generalizing b with
  | zero => intro m; rfl
  | succ n ih =>
    intro m
    unfold Machine.rounds Parse.rounds
    rw [h b m, Parse.bind_apply]
    cases turn' b r m.scope m.state with
    | none => rfl
    | some x =>
      obtain ⟨next, s⟩ := x
      cases next with
      | again b => exact ih b (m.reach s)
      | stop c => rfl

end Machine

/-- A program does on a machine what it does as a production. In the three cases that change the
surroundings, what was pushed is popped again; in an attempt, rewinding takes back all that ran. -/
theorem Program.exec_does {calls : Calls} {r : Recursion} (h : calls.Does r) {α : Type}
    (p : Program α) : Machine.Does (p.exec calls) (p.run r) := by
  induction p with
  | pure a => intro m; rfl
  | bind p f hp hf =>
    intro m
    unfold exec run
    rw [hp m, Parse.bind_apply]
    cases p.run r m.scope m.state with
    | none => rfl
    | some x => exact hf x.1 (m.reach x.2)
  | look f => intro m; rfl
  | advance => intro m; rfl
  | skipTo stop => intro m; rfl
  | countError => intro m; rfl
  | report index d => intro m; rfl
  | giveUp index d => intro m; rfl
  | withRecovery sync p hp =>
    intro m
    change _ = (p.run r (m.push sync).scope (m.push sync).state).map _
    unfold exec
    rw [hp (m.push sync)]
    cases p.run r (m.push sync).scope (m.push sync).state with
    | none => rfl
    | some x => rfl
  | nested p fallback hp hf =>
    intro m
    unfold exec run
    rw [nested_eq]
    split
    · exact hf (m.reach (m.state.tooDeep m.scope))
    · rw [hp m.descend]
      change _ = (p.run r m.descend.scope m.descend.state).map _
      cases p.run r m.descend.scope m.descend.state with
      | none => rfl
      | some x => rfl
  | attempt p hp =>
    intro m
    unfold exec run Parse.attempt
    rw [hp m]
    cases he : p.run r m.scope m.state with
    | none => rfl
    | some x =>
      obtain ⟨a, s⟩ := x
      have hs := m.rewind_checkpoint (p.onward h.onward m.scope he)
      cases a with
      | none => exact congrArg (fun m' => some (none, m')) hs
      | some a =>
        by_cases hq : s.errorCount = m.state.errorCount
        · simp [Machine.reach, hq]
        · simpa [Machine.reach, hq] using hs
  | foresee p hp =>
    intro m
    unfold exec run Parse.foresee
    rw [hp m]
    cases he : p.run r m.scope m.state with
    | none => rfl
    | some x =>
      have hs := m.rewind_checkpoint (p.onward h.onward m.scope he)
      exact congrArg (fun m' => some (_, m')) hs
  | loop turn b ht =>
    intro m
    change _ = (Parse.rounds (fun b => (turn b).run) r.steps b r m.scope m.state).map _
    unfold exec
    rw [h.steps]
    exact Machine.Does.rounds ht r.steps b m
  | call goal => exact h.call goal
  | intern text =>
    intro m
    exact congrArg (fun symbol => some (symbol, m)) (congrFun h.symbol text)

/-- The calls of the grammar do what the recursion of the grammar does. -/
theorem Calls.grammar_does (levels : Nat) :
    (Calls.grammar levels).Does (Grammar.recursion levels) := by
  induction levels with
  | zero => exact ⟨rfl, fun _ _ _ => rfl, rfl, recursion_onward 0⟩
  | succ levels ih =>
    refine ⟨rfl, fun c goal => ?_, rfl, recursion_onward (levels + 1)⟩
    have h := (program (Grammar.rule goal)).exec_does ih
    rwa [run_program] at h

/-- Runs a production of the grammar on a machine. -/
def Machine.run (levels : Nat) (p : Parse α) [Programmed p] : Machine → Option (α × Machine) :=
  (program p).exec (Calls.grammar levels)

theorem Machine.run_eq (levels : Nat) (p : Parse α) [Programmed p] (m : Machine) :
    m.run levels p =
      (p (Grammar.recursion levels) m.scope m.state).map fun x => (x.1, m.reach x.2) := by
  have h := (program p).exec_does (Calls.grammar_does levels) m
  rwa [run_program] at h

end BallerinaSyntax
