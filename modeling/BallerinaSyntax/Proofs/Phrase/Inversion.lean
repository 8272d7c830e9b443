import BallerinaSyntax.Proofs.Phrase.Straight
import BallerinaSyntax.Proofs.Program.Effect

/-!
What was read straight on, taken apart. Errors are never uncounted, so what is read without one was
read without one in each of its steps, and each of these led straight on.
-/

namespace BallerinaSyntax

open Grammar Parse

variable {α β γ : Type} {r : Recursion} {scope : Scope} {s t : State} {i j k n : Nat} {a : α} {b : β}
  {p : Parse α} {f : α → Parse β}

theorem Onward.pure (a : α) : Onward ((Pure.pure a : Parse α) r scope) := by
  intro s b t h
  cases h
  exact .refl s

theorem Programmed.onward (p : Parse α) [Programmed p] (n : Nat) (scope : Scope) :
    Onward (p (recursion n) scope) := by
  have h := (program p).onward (recursion_onward n) scope
  rwa [run_program] at h

/-- What is read without an error only moves on. -/
theorem Leads.straight (hp : Onward (p r scope)) (h : Leads r scope s p a t)
    (ht : t.errorCount = s.errorCount) : Straight r scope s p a t.position := by
  have hmoved : t = s.goTo t.position := (hp h).quiet ht
  rw [hmoved] at h
  exact h

/-- What follows a step is read from where the step led. -/
theorem Leads.bind_eq (h : Leads r scope s p a t) (f : α → Parse β) :
    (p >>= f) r scope s = f a r scope t := by
  change Parse.bind p f r scope s = _
  rw [Parse.bind, h]

theorem run_if_pos {c : Prop} [Decidable c] {q : Parse α} (hc : c) :
    (if c then p else q) r scope s = p r scope s := by rw [if_pos hc]

theorem run_if_neg {c : Prop} [Decidable c] {q : Parse α} (hc : ¬c) :
    (if c then p else q) r scope s = q r scope s := by rw [if_neg hc]

/-- What counts an error does not go straight on. -/
theorem Complains.not_straight (hp : Complains p) : ¬Straight r scope s p a j := by
  intro h
  have := hp r scope s a (s.goTo j) h
  exact Nat.lt_irrefl _ this

namespace Straight

theorem le [Programmed p] (h : Straight (recursion n) scope s p a j) : s.position ≤ j :=
  (Programmed.onward p n scope h).position

/-! ## One step after another -/

/-- Two steps go straight on if both together do. -/
theorem split (hp : Onward (p r scope)) (hf : ∀ a, Onward (f a r scope))
    (h : Straight r scope s (p >>= f) b k) :
    ∃ a j, Straight r scope s p a j ∧ Straight r scope (s.goTo j) (f a) b k := by
  obtain ⟨a, t, ha, hb⟩ := bind_eq_some.mp h
  have hfirst : Leads r scope s p a t := ha
  have hrest : Leads r scope t (f a) b (s.goTo k) := hb
  have hclean : t.errorCount = s.errorCount :=
    Nat.le_antisymm (hf a hb).errors (hp ha).errors
  have hmoved : t = s.goTo t.position := (hp ha).quiet hclean
  rw [hmoved] at hrest
  exact ⟨a, t.position, hfirst.straight hp hclean, hrest⟩

/-- A production that goes straight on consists of steps that do. -/
theorem of_bind [Programmed p] [∀ a, Programmed (f a)]
    (h : Straight (recursion n) scope s (p >>= f) b k) :
    ∃ a j, Straight (recursion n) scope s p a j ∧
      Straight (recursion n) scope (s.goTo j) (f a) b k :=
  h.split (Programmed.onward p n scope) fun a => Programmed.onward (f a) n scope

/-- What follows a step that is known. -/
theorem of_bindTo (h : Straight r scope s (p >>= f) b k) (hp : Straight r scope s p a j) :
    Straight r scope (s.goTo j) (f a) b k := by
  obtain ⟨a', t, ha, hb⟩ := bind_eq_some.mp h
  have hsame : some (a', t) = some (a, s.goTo j) := ha.symm.trans hp
  obtain ⟨rfl, rfl⟩ := Prod.mk.inj (Option.some.inj hsame)
  exact hb

/-- What follows a look. -/
theorem of_look {view : Scope → State → α} (hp : Looks p view)
    (h : Straight r scope s (p >>= f) b k) : Straight r scope s (f (view scope s)) b k := by
  unfold Straight Leads at h
  rwa [hp.bind_eq] at h

/-- What follows foresight. -/
theorem of_foresee {q : Parse Bool} {f : Bool → Parse β}
    (h : Straight r scope s (foresee q >>= f) b k) :
    ∃ x, Straight r scope s (foresee q) x s.position ∧ Straight r scope s (f x) b k := by
  obtain ⟨x, t, hx, hb⟩ := bind_eq_some.mp h
  obtain rfl : t = s := by
    unfold foresee at hx
    split at hx <;> cases hx
    rfl
  exact ⟨x, hx, hb⟩

theorem of_ite_pos {c : Prop} [Decidable c] {q : Parse α} (hc : c)
    (h : Straight r scope s (if c then p else q) a j) : Straight r scope s p a j := by
  rwa [if_pos hc] at h

theorem of_ite_neg {c : Prop} [Decidable c] {q : Parse α} (hc : ¬c)
    (h : Straight r scope s (if c then p else q) a j) : Straight r scope s q a j := by
  rwa [if_neg hc] at h

theorem of_pure {a' : α} (h : Straight r scope s (Pure.pure a) a' j) : a = a' ∧ s.position = j := by
  obtain ⟨ha, hs⟩ := pure_eq_some.mp h
  exact ⟨ha, congrArg State.position hs⟩

/-! ## Tokens and nesting -/

/-- A token that is expected without an error is there. -/
theorem of_expect {kind : Kind} {leaf : Leaf}
    (h : Straight (recursion n) scope s (Parse.expect kind) leaf j) :
    scope.kindAt s 0 = kind := by
  have hat := of_look (looks_atKind kind) h
  by_contra hk
  have herror := of_ite_neg (by rwa [beq_iff_eq]) hat
  obtain ⟨_, _, hreport, -⟩ := of_bind herror
  exact (complains_errorExpected _).not_straight hreport

/-- What is nested without an error does not nest too deep, and is read one level deeper. -/
theorem of_nested {fallback : Parse α} [Programmed fallback]
    (h : Straight (recursion n) scope s (Parse.nested p fallback) a j) :
    scope.depth < scope.options.maxNestingDepth ∧
      Straight (recursion n) scope.deeper s p a j := by
  unfold Straight Leads at h
  rw [nested_eq] at h
  split at h
  · rename_i hdeep
    have herrors := (Programmed.onward fallback n scope h).errors
    have hcounted : s.errorCount < (s.tooDeep scope).errorCount := by simp
    exact absurd (Nat.lt_of_lt_of_le hcounted herrors) (Nat.lt_irrefl _)
  · rename_i hdeep
    exact ⟨Nat.not_le.mp hdeep, h⟩

/-- A goal is read by its rule, one level further down. -/
theorem of_call {c : Category} {goal : Goal c} {tree : Tree c}
    (h : Straight (recursion n) scope s (Parse.call goal) tree j) :
    ∃ m, n = m + 1 ∧ Straight (recursion m) scope s (rule goal) tree j := by
  cases n with
  | zero => cases h
  | succ m => exact ⟨m, rfl, h⟩

/-- A round goes straight on, and so do those behind it. -/
theorem of_rounds {turn : β → Parse (Turn β γ)} [∀ b, Programmed (turn b)] {m : Nat} {c : γ}
    (h : Straight (recursion n) scope s (Parse.rounds turn (m + 1) b) c k) :
    Straight (recursion n) scope s (turn b) (.stop c) k ∨
      ∃ next j, Straight (recursion n) scope s (turn b) (.again next) j ∧
        Straight (recursion n) scope (s.goTo j) (Parse.rounds turn m next) c k := by
  have hturn : ∀ b, Onward (turn b (recursion n) scope) := fun b => Programmed.onward (turn b) n scope
  obtain ⟨next, j, hnext, hrest⟩ := h.split (hturn b) fun next => by
    cases next with
    | again b => exact .rounds hturn m b
    | stop c => exact .pure c
  cases next with
  | again b => exact .inr ⟨b, j, hnext, hrest⟩
  | stop c' =>
    obtain ⟨rfl, rfl⟩ := of_pure hrest
    exact .inl hnext

/-! ## Climbing -/

section Climb

variable {c : Category} {rule : OperatorRule c} {power : Nat} {tree : Tree c} [Programmed rule.primary]
  [Programmed rule.operator?] [∀ m t op, Programmed (rule.apply m t op)]

instance (m : Mark) (left : Tree c) : Programmed (climbRound rule power m left) := by
  unfold climbRound
  refine .andThen fun ends => @Programmed.ite _ _ _ _ _ inferInstance (.andThen fun op => ?_)
  exact op.casesOn (.ofPure _) fun op => .ite _ _

/-- What is read with operators begins with a primary. -/
theorem of_climb (h : Straight (recursion n) scope s (climb rule power) tree j) :
    ∃ first k, Straight (recursion n) scope s rule.primary first k := by
  have hclimb : Straight (recursion n) scope s
      (mark >>= fun m => rule.primary >>= loop (climbRound rule power m)) tree j := h
  obtain ⟨first, k, hprimary, -⟩ := (hclimb.of_look looks_mark).of_bind
  exact ⟨first, k, hprimary⟩

end Climb

end Straight

end BallerinaSyntax
