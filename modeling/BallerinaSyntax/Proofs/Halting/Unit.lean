import BallerinaSyntax.Proofs.Halting.Definition
import BallerinaSyntax.Proofs.Reading.Unit

/-!
The rules that goals name come to an end, and so the recursion has levels enough: every goal that a
rule reads costs less than the one it is read for.
-/

namespace BallerinaSyntax

open Grammar Parse
open Condition (any solid past onward gave turned)

variable {rank : Nat} {P : Condition}

/-! ## Rules -/

theorem halts_missingPattern : Halts rank P missingPattern :=
  .bind (halts_placeholder _) fun _ => .bind (.bind (halts_placeholder _) fun _ => .ended)
    fun _ => .ended

/-- A type name takes a token where one may begin, unless it nests too deep. -/
theorem settles_typeName (power : Nat) (s₀ : State) :
    Settles 0 (Condition.here s₀) (rule (.typeName power)) fun _ scope s =>
      (Goal.typeName power).Eager scope s₀ → s₀.position < s.position := by
  intro cost levels scope s hv hs hc h
  obtain rfl := h
  by_cases hk : startsType (scope.kindAt s 0) = true
  · have climbs : Settles 0
        (fun scope t => startsType (scope.kindAt t 0) = true ∧ t.position = s.position)
        (rule (.typeName power)) fun _ scope t => past s.position scope t ∨
          (scope.options.maxNestingDepth ≤ scope.depth ∧ t.unwinding = true) :=
      .nestedPast (takes_climb halting_typeRule takes_typePrimary power 0 s.position)
        (fun _ _ h => h) fun _ _ _ => rfl
    obtain ⟨a, t, hr, ht⟩ := climbs hv hs hc ⟨hk, rfl⟩
    exact ⟨a, t, hr, fun he => ht.resolve_right fun h => Nat.not_lt_of_le h.1 he.2⟩
  · obtain ⟨a, t, hr, -⟩ := Settles.nested (P := any) (halts_climb halting_typeRule power)
      (.bind (halts_placeholder _) fun _ => .ended) hv hs hc trivial
    exact ⟨a, t, hr, fun he => absurd he.1 hk⟩

/-- A rule comes to an end, behind its first token if its goal takes that. -/
theorem settles_rule {c : Category} (goal : Goal c) (s₀ : State) :
    Settles goal.rank (fun scope s => s = s₀ ∧ goal.Ready scope s) (rule goal) fun _ scope s =>
      goal.Eager scope s₀ → s₀.position < s.position := by
  have lazy : ∀ {p : Parse (Tree c)}, (∀ scope, ¬goal.Eager scope s₀) → Halts goal.rank any p →
      Settles goal.rank (fun scope s => s = s₀ ∧ goal.Ready scope s) p fun _ scope s =>
        goal.Eager scope s₀ → s₀.position < s.position := fun hn hp =>
    (hp.weaken fun _ _ _ => trivial).post fun _ scope _ _ he => absurd he (hn scope)
  cases goal with
  | expression power =>
    exact lazy (fun _ => id) <| .nested (halts_climb halting_expressionRule power)
      (.bind (halts_placeholder _) fun _ => .ended)
  | typeName power => exact (settles_typeName power s₀).weaken fun _ _ h => h.1
  | reference =>
    exact lazy (fun _ => id) <| .nested (halts_climb halting_referenceRule _)
      (.bind (halts_placeholder _) fun _ => .ended)
  | statement => exact lazy (fun _ => id) halts_statementBody
  | block =>
    exact lazy (fun _ => id) <| .nested halts_blockBody (.bind (halts_placeholder _) fun _ => .ended)
  | callableBody =>
    exact lazy (fun _ => id) <| .nested halts_callableBodyInner
      (.bind (halts_placeholder _) fun _ => .ended)
  | xmlElement =>
    refine ((takes_xmlElementBody 0 s₀.position).weaken fun _ _ h => ⟨h.2, ?_⟩).post
      fun _ _ _ h _ => h
    exact congrArg State.position h.1
  | pattern => exact lazy (fun _ => id) <| .nested halts_patternBody halts_missingPattern

/-! ## Levels -/

/-- A recursion reads every goal that costs no more than its levels, beside those that a loop takes. -/
theorem affords (b : Buffer) :
    ∀ cost levels, cost + (2 * b.size + 3) ≤ levels → Affords b cost levels
  | 0, _, hl => ⟨by omega, fun _ _ _ _ _ _ _ h => absurd h (Nat.not_lt_zero _)⟩
  | cost + 1, levels, hl => by
    refine ⟨by omega, fun c goal scope s hb hs hg hc => ?_⟩
    obtain ⟨levels, rfl⟩ : ∃ n, levels = n + 1 := ⟨levels - 1, by omega⟩
    have hv : Affords scope.buffer cost levels := hb ▸ affords b cost levels (by omega)
    have hs' : scope.Awaits s fun r => rule goal r scope s :=
      ⟨hs.toInside, hs.returns.imp_right fun ⟨n, hn⟩ =>
        ⟨n, fun m hm => hn (m + 1) (Nat.le_succ_of_le hm)⟩⟩
    obtain ⟨a, t, hr, ht⟩ := settles_rule goal s hv hs' (Nat.le_of_lt_succ hc) ⟨rfl, hg⟩
    refine ⟨a, t, ⟨fun n hn => ?_, hr.onward, hr.inside⟩, ht⟩
    obtain ⟨n, rfl⟩ : ∃ m, n = m + 1 := ⟨n - 1, by omega⟩
    exact hr.agree n (Nat.le_of_succ_le_succ hn)

theorem serves (b : Buffer) (cost levels : Nat) (h : cost + (2 * b.size + 3) ≤ levels) :
    Serves b cost levels :=
  (affords b cost levels h).serves

/-! ## Units -/

/-- All recursions with levels enough read the same unit, if it is waited for. -/
theorem compilationUnit_awaited {scope : Scope}
    (hs : scope.Awaits {} fun r => compilationUnit r scope {})
    (hd : scope.depth < scope.options.maxNestingDepth) :
    ∃ u t, ∀ levels, 5 * scope.buffer.size + 6 ≤ levels →
      compilationUnit (recursion levels) scope {} = some (u, t) := by
  have hs' : scope.Awaits {} fun r => unitItems r scope {} :=
    hs.change hs.toInside id fun r hr => by
      obtain ⟨x, hx⟩ := Option.isSome_iff_exists.mp hr
      obtain ⟨m, s, hmark, hx⟩ := bind_eq_some.mp hx
      cases hmark
      obtain ⟨items, t, hi, -⟩ := bind_eq_some.mp hx
      exact Option.isSome_iff_exists.mpr ⟨(items, t), hi⟩
  obtain ⟨items, t, hi, -⟩ :=
    halts_unitItems (affords scope.buffer _ _ (Nat.le_refl _)) hs' (Nat.le_refl _) hd
  refine ⟨⟨scope.buffer.nodeOf ⟨0, 0⟩ t.past .compilationUnit, items.imports.toList,
    items.definitions.toList, scope.buffer.lastLeaf t⟩, t.past, fun levels hl => ?_⟩
  have hl := hi.agree levels (Nat.le_trans (by unfold Scope.remaining; simp; omega) hl)
  refine bind_eq_some.mpr ⟨_, _, rfl, bind_eq_some.mpr ⟨items, t, hl, ?_⟩⟩
  exact bind_eq_some.mpr ⟨_, _, bumpEndOfFile_eq (unitItems_stop hl) _, rfl⟩

/-- All recursions with levels enough read the same unit. -/
theorem compilationUnit_halts {scope : Scope} (ht : scope.buffer.Tame) (hr : scope.recovery = [])
    (hd : scope.depth < scope.options.maxNestingDepth) :
    ∃ u t, ∀ levels, 5 * scope.buffer.size + 6 ≤ levels →
      compilationUnit (recursion levels) scope {} = some (u, t) := by
  have hs : scope.Sane {} := ⟨ht, scope.buffer.nonempty, by simp [hr]⟩
  exact compilationUnit_awaited hs.awaits hd

end BallerinaSyntax
