import BallerinaSyntax.Proofs.Halting.Judgement
import BallerinaSyntax.Proofs.Recovery

/-!
What productions are made of comes to an end: taking tokens, recording errors, making nodes, going
on after an error, and lists.
-/

namespace BallerinaSyntax

open Grammar Parse
open Condition (any solid past onward gave turned)

variable {α β : Type} {rank : Nat} {P : Condition} {Q : β → Condition}

/-- A production that does the same in every recursion of the grammar. -/
theorem Settles.plain {p : Parse β} {f : Scope → State → β × State}
    (hp : ∀ n scope s, p (recursion n) scope s = some (f scope s))
    (hf : ∀ scope s, scope.Inside s → P scope s → s.position ≤ (f scope s).2.position ∧
      (f scope s).2.position < scope.buffer.size ∧ Q (f scope s).1 scope (f scope s).2) :
    Settles rank P p Q := by
  intro _ _ scope s _ hs _ hP
  obtain ⟨hm, hi, hQ⟩ := hf scope s hs.toInside hP
  exact ⟨_, _, ⟨fun _ _ => hp _ scope s, hm, hi⟩, hQ⟩

theorem Looks.halts {p : Parse α} {f : Scope → State → α} (h : Looks p f) : Halts rank P p :=
  .plain (f := fun scope s => (f scope s, s)) (fun n => h (recursion n)) fun _ _ hs _ =>
    ⟨Nat.le_refl _, hs.inside, trivial⟩

/-! ## Moving -/

/-- The state behind the current token. -/
def Scope.behind (scope : Scope) (s : State) : State :=
  if scope.kindAt s 0 == .endOfFileToken then s else { s with position := s.position + 1 }

theorem Scope.Inside.behind {scope : Scope} {s : State} (h : scope.Inside s) :
    s.position ≤ (scope.behind s).position ∧ (scope.behind s).position < scope.buffer.size := by
  unfold Scope.behind
  split
  · exact ⟨Nat.le_refl _, h.inside⟩
  · rename_i hk
    exact ⟨Nat.le_succ _, h.ends.lt_of_solid h.inside (by simpa [Scope.kindAt] using hk)⟩

theorem Scope.behind_of_solid {scope : Scope} {s : State} (h : solid scope s) :
    scope.behind s = { s with position := s.position + 1 } :=
  if_neg (by simpa [solid] using h)

/-- What does nothing but go on behind the current token. -/
theorem Takes.plain {p : Parse α} {a : Scope → State → α}
    (hp : ∀ n scope s, p (recursion n) scope s = some (a scope s, scope.behind s)) :
    Takes solid p := by
  intro rank i
  refine .plain (f := fun scope s => (a scope s, scope.behind s)) hp fun scope s hs hP => ?_
  obtain ⟨hk, rfl⟩ := hP
  refine ⟨hs.behind.1, hs.behind.2, ?_⟩
  simp [past, Scope.behind_of_solid hk]

theorem takes_advance : Takes solid advance :=
  .plain (a := fun _ _ => ()) fun _ _ _ => rfl

theorem takes_bump : Takes solid bump := .plain fun n => bump_eq (recursion n)

theorem halts_intern (text : String) : Halts rank P (intern text) :=
  .plain (f := fun _ s => (.text text, s))
    (fun n _ s => congrArg (fun symbol : String → Symbol => some (symbol text, s))
      (symbol_recursionWith .text n))
    fun _ _ hs _ => ⟨Nat.le_refl _, hs.inside, trivial⟩

theorem bumpName_eq (n : Nat) (scope : Scope) (s : State) :
    bumpName (recursion n) scope s = some ({
      token := ⟨.identifier, s.position, (scope.buffer.get s.position).range, false⟩
      symbol := (scope.buffer.get s.position).text }, scope.behind s) := by
  change some (Identifier.mk _ ((recursion n).symbol _), _) = _
  rw [recursion, symbol_recursionWith]
  rfl

theorem takes_bumpName : Takes solid bumpName := .plain bumpName_eq

theorem halts_bump : Halts rank P bump :=
  .plain (f := fun scope s => (_, scope.behind s)) (fun n => bump_eq (recursion n)) fun _ _ hs _ =>
    ⟨hs.behind.1, hs.behind.2, trivial⟩

theorem halts_bumpName : Halts rank P bumpName :=
  .plain (f := fun scope s => (_, scope.behind s)) bumpName_eq fun _ _ hs _ =>
    ⟨hs.behind.1, hs.behind.2, trivial⟩

namespace Takes

variable {C : Condition}

theorem weaken {D : Condition} {p : Parse α} (h : Takes D p)
    (hC : ∀ scope s, C scope s → D scope s) : Takes C p :=
  fun rank i => (h rank i).weaken fun scope s hs => ⟨hC scope s hs.1, hs.2⟩

theorem halts {p : Parse α} (h : Takes C p) (hP : ∀ scope s, P scope s → C scope s) :
    Halts rank P p :=
  fun _ _ scope s hv hs hc hp =>
    ((h rank s.position).post fun _ _ _ _ => trivial) hv hs hc ⟨hP scope s hp, rfl⟩

/-- What takes a token, somewhere behind a place. -/
theorem behind {p : Parse α} {i : Nat} (h : Takes C p)
    (hP : ∀ scope s, P scope s → C scope s ∧ i ≤ s.position) :
    Settles rank P p fun _ => past i := by
  intro _ _ scope s hv hs hc hp
  obtain ⟨hC, hi⟩ := hP scope s hp
  obtain ⟨a, t, hr, ht⟩ := h rank s.position hv hs hc ⟨hC, rfl⟩
  exact ⟨a, t, hr, Nat.lt_of_le_of_lt hi ht⟩

/-- What takes a token first, behind which something holds. -/
theorem andThenAt {p : Parse α} {f : α → Parse β} {R : Condition} (hp : Takes C p)
    (hR : ∀ ⦃scope s t⦄, C scope s → s.position < t.position → R scope t)
    (hf : ∀ a, Halts 3 R (f a)) : Takes C (p >>= f) := by
  intro rank i
  refine .thenPast (R := fun _ scope s => R scope s ∧ past i scope s)
    (fun j _ _ scope s hv hs hc h => ?_) fun a => (hf a).frame (Condition.lasting_past i)
  obtain ⟨⟨hC, rfl⟩, rfl⟩ := h
  obtain ⟨a, t, hr, ht⟩ := hp rank s.position hv hs hc ⟨hC, rfl⟩
  exact ⟨a, t, hr, ⟨hR hC ht, ht⟩, ht⟩

/-- What takes a token first. -/
theorem andThen {D : Condition} {p : Parse α} {f : α → Parse β} (hp : Takes D p)
    (hC : ∀ scope s, C scope s → D scope s) (hf : ∀ a, Halts 3 any (f a)) :
    Takes C (p >>= f) :=
  fun _ _ => .takePast (fun scope s h => ⟨hC scope s h.1, h.2⟩) hp fun a =>
    (hf a).stays (Condition.lasting_past _)

theorem bump {f : Leaf → Parse β} (hf : ∀ leaf, Halts 3 any (f leaf)) :
    Takes solid (Parse.bump >>= f) :=
  takes_bump.andThen (fun _ _ h => h) hf

theorem look {p : Parse α} {g : Scope → State → α} {f : α → Parse β} (hp : Looks p g)
    (hf : ∀ a, Takes (fun scope s => C scope s ∧ g scope s = a) (f a)) : Takes C (p >>= f) :=
  fun rank i => .look hp fun a => (hf a rank i).weaken fun _ _ h => ⟨⟨h.1.1, h.2⟩, h.1.2⟩

theorem skim {p : Parse α} {g : Scope → State → α} {f : α → Parse β} (hp : Looks p g)
    (hf : ∀ a, Takes C (f a)) : Takes C (p >>= f) :=
  look hp fun a => (hf a).weaken fun _ _ h => h.1

theorem mark {f : Mark → Parse β} (hf : ∀ m, Takes C (f m)) : Takes C (Parse.mark >>= f) :=
  skim looks_mark hf

theorem ite {c : Prop} [Decidable c] {p q : Parse α} (hp : c → Takes C p) (hq : ¬c → Takes C q) :
    Takes C (if c then p else q) :=
  fun rank i => .ite (fun h => hp h rank i) fun h => hq h rank i

end Takes

namespace Settles

/-- The current token is taken. -/
theorem bump {f : Leaf → Parse β} (hP : ∀ scope s, P scope s → solid scope s)
    (hf : ∀ leaf, Settles 3 any (f leaf) Q) : Settles rank P (Parse.bump >>= f) Q :=
  take hP takes_bump hf

theorem give {a : α} {f : α → Parse β} (h : Settles rank P (f a) Q) :
    Settles rank P (pure a >>= f) Q := h

/-- What is seen, but does not matter. -/
theorem skim {p : Parse α} {g : Scope → State → α} {f : α → Parse β} (hp : Looks p g)
    (hf : ∀ a, Settles rank P (f a) Q) : Settles rank P (p >>= f) Q :=
  look hp fun a => (hf a).weaken fun _ _ h => h.1

theorem mark {f : Mark → Parse β} (hf : ∀ m, Settles rank P (f m) Q) :
    Settles rank P (Parse.mark >>= f) Q :=
  skim looks_mark hf

/-- What is read where a token of kind `k` is next, and what else. -/
theorem ifAt {k : Kind} {p q : Parse β}
    (hp : Settles rank (fun scope s => P scope s ∧ scope.kindAt s 0 = k) p Q)
    (hq : Settles rank P q Q) :
    Settles rank P (atKind k >>= fun b => if b = true then p else q) Q := by
  refine look (looks_atKind k) fun b => ite (fun h => hp.weaken ?_) fun _ => hq.weaken ?_
  · exact fun scope s hs => ⟨hs.1, by simpa [h] using hs.2⟩
  · exact fun scope s hs => hs.1

end Settles

/-! ## Nodes -/

namespace Settles

variable {m : Mark} {k : Kind}

/-- The last step of most productions. -/
theorem node {f : NodeInfo → β} : Halts rank P (finish m k >>= fun info => pure (f info)) :=
  .plain (f := fun scope s => (f (scope.buffer.nodeOf m s k), s)) (fun _ _ _ => rfl)
    fun _ _ hs _ => ⟨Nat.le_refl _, hs.inside, trivial⟩

theorem delimited {close : Leaf} {f : NodeInfo → β} :
    Halts rank P (finishDelimited m k close >>= fun info => pure (f info)) :=
  .bind (Looks.halts (finishDelimited_eq m k close)) fun _ => .ended

theorem modified {modifiers : Modifiers} {f : NodeInfo → β} :
    Halts rank P (finishModified m k modifiers >>= fun info => pure (f info)) :=
  node (f := fun info => f { info with modifiers := modifiers })

/-- A node that is not the last step. -/
theorem nodeThen {rest : NodeInfo → Parse β} (h : ∀ info, Settles rank P (rest info) Q) :
    Settles rank P (finish m k >>= rest) Q :=
  .skim (finish_eq m k) h

end Settles

theorem halts_placeholder (k : Kind) : Halts rank P (placeholder k) :=
  Looks.halts (f := fun scope s =>
    .placeholder k s.position (scope.buffer.get s.position).range.start) fun _ _ _ => rfl

/-! ## Errors -/

theorem halts_report (index : Nat) (d : Diagnostic) : Halts rank P (report index d) :=
  .plain (f := fun scope s => ((), s.reported scope index d)) (fun _ _ _ => rfl) fun _ _ hs _ =>
    ⟨by simp, by simpa using hs.inside, trivial⟩

/-- An error that is recorded leaves what does not look at the errors. -/
theorem settles_errorHere (message : Message) (args : List String)
    (hP : ∀ scope s index d, P scope s → P scope (s.reported scope index d)) :
    Settles rank P (errorHere message args) fun _ => P := by
  refine .skim (looks_token 0) fun _ => .skim looks_position fun index =>
    .skim (looks_located _ _ _) fun d => ?_
  exact .plain (fun n scope s => report_eq (recursion n) scope s index d) fun scope s hs h =>
    ⟨by simp, by simpa using hs.inside, hP scope s index d h⟩

theorem halts_errorHere (message : Message) (args : List String) :
    Halts rank P (errorHere message args) :=
  .skim (looks_token 0) fun _ => .skim looks_position fun _ => .skim (looks_located _ _ _) fun _ =>
    halts_report _ _

theorem halts_errorExpected (expected : String) : Halts rank P (errorExpected expected) :=
  .skim looks_describeCurrent fun _ => halts_errorHere _ _

theorem halts_countError : Halts rank P countError :=
  .plain (f := fun _ s => ((), { s with errorCount := s.errorCount + 1 })) (fun _ _ _ => rfl)
    fun _ _ hs _ => ⟨Nat.le_refl _, hs.inside, trivial⟩

theorem halts_missingToken (k : Kind) : Halts rank P (missingToken k) :=
  Looks.halts (missingToken_eq k · · ·)

end BallerinaSyntax
