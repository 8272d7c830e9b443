import BallerinaSyntax.Program.Grammar
import BallerinaSyntax.Proofs.Recovery

/-!
What programs do to the state. They read onwards, count errors and add diagnostics, and none of this
is ever taken back; and what is not the position changes only together with the count of errors.
-/

namespace BallerinaSyntax

open Parse

variable {α β γ : Type}

/-- How a state has come out of an earlier one. -/
structure State.Advances (s t : State) : Prop where
  position : s.position ≤ t.position
  errors : s.errorCount ≤ t.errorCount
  diagnostics : s.diagnostics.toList <+: t.diagnostics.toList
  /-- Without an error only the position may have changed. -/
  quiet : t.errorCount = s.errorCount → t = { s with position := t.position }

namespace State.Advances

variable {s t u : State}

theorem refl (s : State) : s.Advances s :=
  ⟨Nat.le_refl _, Nat.le_refl _, List.prefix_refl _, fun _ => rfl⟩

theorem trans (h : s.Advances t) (k : t.Advances u) : s.Advances u where
  position := Nat.le_trans h.position k.position
  errors := Nat.le_trans h.errors k.errors
  diagnostics := h.diagnostics.trans k.diagnostics
  quiet he := by
    have hs := h.errors
    have ht := k.errors
    have hk := k.quiet (by omega)
    have hh := h.quiet (by omega)
    rw [hk, hh]

/-- A step that only reads onwards. -/
theorem move {position : Nat} (h : s.position ≤ position) :
    s.Advances { s with position := position } :=
  ⟨h, Nat.le_refl _, List.prefix_refl _, fun _ => rfl⟩

/-- A step that counts an error may change whatever it likes besides. -/
theorem count (hp : s.position ≤ t.position) (he : s.errorCount < t.errorCount)
    (hd : s.diagnostics.toList <+: t.diagnostics.toList) : s.Advances t :=
  ⟨hp, Nat.le_of_lt he, hd, fun h => absurd h (Nat.ne_of_gt he)⟩

end State.Advances

theorem Diagnostics.prefix_record (ds : Diagnostics) (file : String) (limit : Nat)
    (d : Diagnostic) : ds.toList <+: (ds.record file limit d).toList := by
  unfold Diagnostics.record
  split
  · exact List.prefix_append ..
  · split
    · exact List.prefix_append ..
    · exact List.prefix_refl _

theorem State.prefix_reported (s : State) (scope : Scope) (index : Nat) (d : Diagnostic) :
    s.diagnostics.toList <+: (s.reported scope index d).diagnostics.toList := by
  unfold State.reported
  simp only
  split
  · exact List.prefix_refl _
  · exact Diagnostics.prefix_record ..

theorem State.prefix_tooDeep (s : State) (scope : Scope) :
    s.diagnostics.toList <+: (s.tooDeep scope).diagnostics.toList := by
  unfold State.tooDeep
  split
  · exact List.prefix_refl _
  · rw [State.reported_depthReported]
    exact State.prefix_reported ..

theorem State.advances_reported (s : State) (scope : Scope) (index : Nat) (d : Diagnostic) :
    s.Advances (s.reported scope index d) :=
  .count (by simp) (by simp) (s.prefix_reported scope index d)

/-- A production of which every run only goes on. -/
def Onward (p : State → Option (α × State)) : Prop :=
  ∀ ⦃s a t⦄, p s = some (a, t) → s.Advances t

/-- A recursion whose goals only go on. -/
def Recursion.Onward (r : Recursion) : Prop :=
  ∀ ⦃c : Category⦄ (goal : Goal c) (scope : Scope), BallerinaSyntax.Onward (r.call goal scope)

namespace Onward

variable {r : Recursion} {scope : Scope}

theorem bind {p : Parse α} {f : α → Parse β} (hp : Onward (p r scope))
    (hf : ∀ a, Onward (f a r scope)) : Onward ((p >>= f) r scope) := by
  intro s b u h
  obtain ⟨a, t, ha, hb⟩ := bind_eq_some.mp h
  exact (hp ha).trans (hf a hb)

theorem attempt {p : Parse (Option α)} (hp : Onward (p r scope)) :
    Onward (Parse.attempt p r scope) := by
  intro s a t h
  unfold Parse.attempt at h
  split at h
  · cases h
  · rename_i b u hb
    split at h <;> cases h
    · exact hp hb
    · exact .refl s
  · cases h
    exact .refl s

theorem foresee (p : Parse Bool) : Onward (Parse.foresee p r scope) := by
  intro s a t h
  unfold Parse.foresee at h
  split at h <;> cases h
  exact .refl _

theorem nested {p fallback : Parse α}
    (hp : Onward (p r { scope with depth := scope.depth + 1 })) (hf : Onward (fallback r scope)) :
    Onward (Parse.nested p fallback r scope) := by
  intro s a t h
  rw [nested_eq] at h
  split at h
  · have deep : s.Advances (s.tooDeep scope) := .count (by simp) (by simp) (s.prefix_tooDeep scope)
    exact deep.trans (hf h)
  · exact hp h

theorem rounds {turn : β → Parse (Turn β γ)} (ht : ∀ b, Onward (turn b r scope)) (n : Nat) (b : β) :
    Onward (Parse.rounds turn n b r scope) := by
  induction n generalizing b with
  | zero => intro s a t h; cases h
  | succ n ih =>
    refine bind (ht b) fun next => ?_
    cases next with
    | again b => exact ih b
    | stop c => intro s a t h; cases h; exact .refl s

end Onward

/-- Whatever a program is, its runs only go on. -/
theorem Program.onward {r : Recursion} (hr : r.Onward) {α : Type} (p : Program α) (scope : Scope) :
    Onward (p.run r scope) := by
  induction p generalizing scope with
  | pure a => intro s b t h; cases h; exact .refl s
  | bind p f hp hf => exact .bind (hp scope) fun a => hf a scope
  | look f => intro s b t h; cases h; exact .refl s
  | advance =>
    intro s a t h
    cases h
    split
    · exact .refl s
    · exact .move (Nat.le_succ _)
  | skipTo stop =>
    intro s n t h
    cases h
    exact .move (scope.le_found stop s)
  | countError =>
    intro s a t h
    cases h
    exact .count (Nat.le_refl _) (Nat.lt_succ_self _) (List.prefix_refl _)
  | report index d =>
    intro s a t h
    rw [Program.run, report_eq] at h
    cases h
    exact s.advances_reported scope index d
  | giveUp index d =>
    intro s a t h
    obtain ⟨_, u, hu, ht⟩ := bind_eq_some.mp h
    rw [report_eq] at hu
    cases hu
    cases ht
    exact .count (by simp) (by simp) (s.prefix_reported scope index d)
  | withRecovery sync p hp => exact hp { scope with recovery := sync :: scope.recovery }
  | nested p fallback hp hf => exact .nested (hp _) (hf scope)
  | attempt p hp => exact .attempt (hp scope)
  | foresee p hp => exact .foresee _
  | loop turn b ht => exact .rounds (fun b => ht b scope) _ b
  | call goal => exact hr goal scope
  | intern text => intro s symbol t h; cases h; exact .refl s

/-- Every recursion of the grammar only goes on. -/
theorem recursion_onward (levels : Nat) : (Grammar.recursion levels).Onward := by
  induction levels with
  | zero => intro c goal scope s a t h; cases h
  | succ levels ih =>
    intro c goal scope
    have h := (program (Grammar.rule goal)).onward ih scope
    rwa [run_program] at h

end BallerinaSyntax
