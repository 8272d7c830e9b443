import BallerinaSyntax.Grammar.Rule
import BallerinaSyntax.Proofs.Primitive

/-!
Productions that come to an end. Goals have ranks: where one goal reads another one before it has
taken a token, the rank goes down. So a goal costs at most three levels for every token that is
left, and a production halts if all recursions that have these levels agree on its result. Either
nothing among the tokens can hold it up, or it is known that it comes to an end with levels enough;
then these levels are enough.
-/

namespace BallerinaSyntax

open Grammar Parse
open Condition (any solid)

variable {α β γ : Type}

/-! ## Tokens that let every statement go on -/

/-- Keywords of constructs whose members resume at more tokens than statements do. -/
def holdsMembers (k : Kind) : Bool := k == .serviceKeyword || k == .objectKeyword

/-- Tokens at which such members resume, and no statement. -/
def memberStart : List Kind := [
  .endpointKeyword, .atToken, .publicKeyword, .privateKeyword, .nativeKeyword,
  .documentationTemplateStart, .deprecatedTemplateStart]

/-- Tokens among which no list of statements waits for a construct around it. -/
structure Buffer.Tame (b : Buffer) : Prop where
  ends : b.Ends
  noWorker : ∀ i, (b.get i).kind ≠ .workerKeyword
  noMember : ∀ i j, i < j → holdsMembers (b.get i).kind = true → (b.get j).kind ∉ memberStart

/-- Tokens that a list of statements takes, or that end it. -/
def settlesStatements (k : Kind) : Bool :=
  k == .semicolonToken || k == .closeBraceToken || startsStatement k

/-- A place in a unit from which reading comes to an end. -/
structure Scope.Sane (scope : Scope) (s : State) : Prop where
  tame : scope.buffer.Tame
  inside : s.position < scope.buffer.size
  /-- Where a construct around resumes, statements go on as well. -/
  resumes : ∀ i, s.position ≤ i → ∀ sync ∈ scope.recovery, (scope.buffer.get i).kind ∈ sync →
    settlesStatements (scope.buffer.get i).kind = true

theorem Scope.Sane.move {scope : Scope} {s t : State} (h : scope.Sane s)
    (hp : s.position ≤ t.position) (hi : t.position < scope.buffer.size) : scope.Sane t :=
  ⟨h.tame, hi, fun i hl => h.resumes i (Nat.le_trans hp hl)⟩

/-- A place in front of the end of the file. -/
structure Scope.Inside (scope : Scope) (s : State) : Prop where
  ends : scope.buffer.Ends
  inside : s.position < scope.buffer.size

/-- A run that nothing holds up, or of which it is known that it ends with levels enough. -/
structure Scope.Awaits (scope : Scope) (s : State) (run : Recursion → Option (α × State)) : Prop
    extends scope.Inside s where
  returns : scope.Sane s ∨ ∃ n, ∀ m, n ≤ m → (run (recursion m)).isSome = true

theorem Scope.Sane.awaits {scope : Scope} {s : State} (h : scope.Sane s)
    {run : Recursion → Option (α × State)} : scope.Awaits s run :=
  ⟨⟨h.tame.ends, h.inside⟩, .inl h⟩

/-- What ends in another run is what is waited for in this one. -/
theorem Scope.Awaits.change {scope scope' : Scope} {s t : State}
    {run : Recursion → Option (α × State)} {run' : Recursion → Option (β × State)}
    (h : scope.Awaits s run) (hi : scope'.Inside t) (hs : scope.Sane s → scope'.Sane t)
    (hr : ∀ r, (run r).isSome = true → (run' r).isSome = true) : scope'.Awaits t run' := by
  refine ⟨hi, ?_⟩
  rcases h.returns with hsane | ⟨n, hn⟩
  · exact .inl (hs hsane)
  · exact .inr ⟨n, fun m hm => hr _ (hn m hm)⟩

/-! ## Levels -/

/-- The tokens from a place on. -/
def Scope.remaining (scope : Scope) (s : State) : Nat := scope.buffer.size - s.position

/-- A goal that is read at the place of another one has a lower rank. -/
def Goal.rank {c : Category} : Goal c → Nat
  | .statement | .pattern => 2
  | .expression _ => 1
  | _ => 0

/-- How many levels a goal takes, with all that it leads to. -/
def Goal.cost {c : Category} (goal : Goal c) (scope : Scope) (s : State) : Nat :=
  3 * scope.remaining s + goal.rank

/-- Where a goal is read: an element only where something stands. -/
def Goal.Ready {c : Category} : Goal c → Condition
  | .xmlElement => solid
  | _ => any

/-- Where a goal takes a token. -/
def Goal.Eager {c : Category} : Goal c → Condition
  | .xmlElement => solid
  | .typeName _ => fun scope s =>
    startsType (scope.kindAt s 0) = true ∧ scope.depth < scope.options.maxNestingDepth
  | _ => fun _ _ => False

theorem Goal.Eager.ready {c : Category} {goal : Goal c} {scope : Scope} {s : State}
    (h : goal.Eager scope s) : goal.Ready scope s := by
  cases goal with
  | xmlElement => exact h
  | _ => trivial

/-- A run from `s` that ends in `t`, in which all recursions with enough levels agree. -/
structure Run (levels : Nat) (scope : Scope) (s : State) (run : Recursion → Option (α × State))
    (a : α) (t : State) : Prop where
  agree : ∀ n, levels ≤ n → run (recursion n) = some (a, t)
  onward : s.position ≤ t.position
  inside : t.position < scope.buffer.size

theorem Run.bind {levels : Nat} {scope : Scope} {s t u : State} {p : Parse α} {f : α → Parse β}
    {a : α} {b : β} (hp : Run levels scope s (fun r => p r scope s) a t)
    (hf : Run levels scope t (fun r => f a r scope t) b u) :
    Run levels scope s (fun r => (p >>= f) r scope s) b u where
  agree n hn := bind_eq_some.mpr ⟨a, t, hp.agree n hn, hf.agree n hn⟩
  onward := Nat.le_trans hp.onward hf.onward
  inside := hf.inside

/-- The first part of a run is waited for. -/
theorem Scope.Awaits.first {scope : Scope} {s : State} {p : Parse α} {f : α → Parse β}
    (h : scope.Awaits s fun r => (p >>= f) r scope s) : scope.Awaits s fun r => p r scope s := by
  refine h.change h.toInside id fun r hr => ?_
  obtain ⟨x, hx⟩ := Option.isSome_iff_exists.mp hr
  obtain ⟨a, t, ha, -⟩ := bind_eq_some.mp hx
  exact Option.isSome_iff_exists.mpr ⟨(a, t), ha⟩

/-- What follows the first part is waited for. -/
theorem Scope.Awaits.second {levels : Nat} {scope : Scope} {s t : State} {p : Parse α}
    {f : α → Parse β} {a : α} (h : scope.Awaits s fun r => (p >>= f) r scope s)
    (hp : Run levels scope s (fun r => p r scope s) a t) :
    scope.Awaits t fun r => f a r scope t := by
  refine ⟨⟨h.ends, hp.inside⟩, ?_⟩
  rcases h.returns with hs | ⟨n, hn⟩
  · exact .inl (hs.move hp.onward hp.inside)
  · refine .inr ⟨max n levels, fun m hm => ?_⟩
    obtain ⟨x, hx⟩ := Option.isSome_iff_exists.mp (hn m (Nat.le_trans (Nat.le_max_left _ _) hm))
    obtain ⟨a', t', ha, hb⟩ := bind_eq_some.mp hx
    obtain ⟨rfl, rfl⟩ := Prod.mk.inj <| Option.some.inj <|
      (hp.agree m (Nat.le_trans (Nat.le_max_right _ _) hm)).symm.trans ha
    exact Option.isSome_iff_exists.mpr ⟨x, hb⟩

/-- The rounds of a loop that has ended: the first one, and those behind it. -/
theorem rounds_eq_some {turn : α → Parse (Turn α β)} {n : Nat} {a : α} {r : Recursion}
    {scope : Scope} {s : State} {x : β × State} (h : rounds turn n a r scope s = some x) :
    ∃ k next t, n = k + 1 ∧ turn a r scope s = some (next, t) ∧
      ∀ a', next = .again a' → rounds turn k a' r scope t = some x := by
  cases n with
  | zero => cases h
  | succ k =>
    obtain ⟨next, t, hturn, hrest⟩ := bind_eq_some.mp h
    refine ⟨k, next, t, rfl, hturn, fun a' ha => ?_⟩
    rw [ha] at hrest
    exact hrest

section Awaited

variable {scope : Scope} {s t : State} {turn : α → Parse (Turn α β)} {a a' : α} {j : Nat}

/-- The next round of a loop that is waited for, when `j` rounds have been taken. -/
theorem Scope.Awaits.round (h : scope.Awaits s fun r => rounds turn (r.steps - j) a r scope s) :
    scope.Awaits s fun r => turn a r scope s := by
  refine h.change h.toInside id fun r hr => ?_
  obtain ⟨x, hx⟩ := Option.isSome_iff_exists.mp hr
  obtain ⟨k, next, t, -, hturn, -⟩ := rounds_eq_some hx
  exact Option.isSome_iff_exists.mpr ⟨(next, t), hturn⟩

/-- The rounds behind that. -/
theorem Scope.Awaits.again {levels : Nat}
    (h : scope.Awaits s fun r => rounds turn (r.steps - j) a r scope s)
    (hp : Run levels scope s (fun r => turn a r scope s) (.again a') t) :
    scope.Awaits t fun r => rounds turn (r.steps - (j + 1)) a' r scope t := by
  refine ⟨⟨h.ends, hp.inside⟩, ?_⟩
  rcases h.returns with hs | ⟨n, hn⟩
  · exact .inl (hs.move hp.onward hp.inside)
  · refine .inr ⟨max n levels, fun m hm => ?_⟩
    obtain ⟨x, hx⟩ := Option.isSome_iff_exists.mp (hn m (Nat.le_trans (Nat.le_max_left _ _) hm))
    obtain ⟨k, next, u, hk, hturn, hrest⟩ := rounds_eq_some hx
    obtain ⟨rfl, rfl⟩ := Prod.mk.inj <| Option.some.inj <|
      (hp.agree m (Nat.le_trans (Nat.le_max_right _ _) hm)).symm.trans hturn
    rw [Nat.sub_succ, hk, Nat.pred_succ]
    exact Option.isSome_iff_exists.mpr ⟨x, hrest a' rfl⟩

end Awaited

/-- Recursions with this many levels read all goals of lower cost, and have rounds enough for
every loop. -/
structure Serves (b : Buffer) (cost levels : Nat) : Prop where
  rounds : 2 * b.size + 3 ≤ levels
  call : ∀ ⦃c : Category⦄ (goal : Goal c) ⦃scope : Scope⦄ ⦃s : State⦄, scope.buffer = b →
    scope.Sane s → goal.Ready scope s → goal.cost scope s < cost →
    ∃ a t, Run levels scope s (fun r => r.call goal scope s) a t ∧
      (goal.Eager scope s → s.position < t.position)

/-- Recursions with this many levels also read the goals of lower cost that are known to be read with
levels enough. -/
structure Affords (b : Buffer) (cost levels : Nat) : Prop where
  rounds : 2 * b.size + 3 ≤ levels
  call : ∀ ⦃c : Category⦄ (goal : Goal c) ⦃scope : Scope⦄ ⦃s : State⦄, scope.buffer = b →
    (scope.Awaits s fun r => r.call goal scope s) → goal.Ready scope s → goal.cost scope s < cost →
    ∃ a t, Run levels scope s (fun r => r.call goal scope s) a t ∧
      (goal.Eager scope s → s.position < t.position)

theorem Affords.serves {b : Buffer} {cost levels : Nat} (h : Affords b cost levels) :
    Serves b cost levels :=
  ⟨h.rounds, fun _ goal _ _ hb hs => h.call goal hb hs.awaits⟩

/-- Run where `P` holds and where goals of lower rank may be read, a production ends with `Q`. -/
def Settles (rank : Nat) (P : Condition) (p : Parse α) (Q : α → Condition) : Prop :=
  ∀ ⦃cost levels scope s⦄, Affords scope.buffer cost levels →
    (scope.Awaits s fun r => p r scope s) → 3 * scope.remaining s + rank ≤ cost → P scope s →
    ∃ a t, Run levels scope s (fun r => p r scope s) a t ∧ Q a scope t

/-- A production that comes to an end. -/
abbrev Halts (rank : Nat) (P : Condition) (p : Parse α) : Prop := Settles rank P p fun _ => any

namespace Condition

/-- Behind a place. -/
def past (i : Nat) : Condition := fun _ s => i < s.position

/-- What goes on to hold behind a place where it holds. -/
def Lasting (R : Condition) : Prop :=
  ∀ ⦃scope s t⦄, s.position ≤ t.position → R scope s → R scope t

theorem lasting_past (i : Nat) : (past i).Lasting := fun _ _ _ hl h => Nat.lt_of_lt_of_le h hl

/-- In this state. -/
def here (s₀ : State) : Condition := fun _ s => s = s₀

/-- Behind a state, or unwinding where that was not. -/
def onward (s₀ : State) : Condition := fun _ s =>
  s₀.position < s.position ∨ (s₀.unwinding = false ∧ s.unwinding = true)

/-- An item brings a loop onward. -/
def gave (s₀ : State) : Option α → Condition
  | some _ => onward s₀
  | none => any

/-- A round brings a loop onward or is stuck, or ends the loop. -/
def turnedOr (W : Condition) (s₀ : State) (I : β → Condition) (Q : γ → Condition) :
    Turn β γ → Condition
  | .again b => fun scope s => (onward s₀ scope s ∨ W scope s) ∧ I b scope s
  | .stop c => Q c

/-- A round brings a loop onward, or ends it. -/
def turned (s₀ : State) (I : β → Condition) (Q : γ → Condition) : Turn β γ → Condition
  | .again b => fun scope s => onward s₀ scope s ∧ I b scope s
  | .stop c => Q c

end Condition

open Condition (past lasting_past onward gave turned turnedOr)

/-- A production that takes a token where `C` holds, whatever goals may be read. -/
def Takes (C : Condition) (p : Parse α) : Prop :=
  ∀ rank i, Settles rank (fun scope s => C scope s ∧ s.position = i) p fun _ => past i

/-- A production that has taken a token if its result tells so. -/
def Moves (took : α → Bool) (p : Parse α) : Prop :=
  ∀ rank i, Settles rank (fun _ s => s.position = i) p fun a scope s =>
    took a = true → past i scope s

/-- An item of a loop: every one that is found brings the loop onward. -/
def Steps (rank : Nat) (item : Parse (Option α)) : Prop :=
  ∀ s₀, Settles rank (Condition.here s₀) item (gave s₀)

variable {rank : Nat} {P : Condition} {Q : β → Condition}

namespace Settles

theorem weaken {R : Condition} {p : Parse β} (h : Settles rank R p Q)
    (hP : ∀ scope s, P scope s → R scope s) : Settles rank P p Q :=
  fun _ _ scope s hv hs hc hp => h hv hs hc (hP scope s hp)

theorem post {R : β → Condition} {p : Parse β} (h : Settles rank P p R)
    (hQ : ∀ b scope s, R b scope s → Q b scope s) : Settles rank P p Q := by
  intro _ _ scope s hv hs hc hp
  obtain ⟨b, t, hr, hR⟩ := h hv hs hc hp
  exact ⟨b, t, hr, hQ b scope t hR⟩

theorem or {R : Condition} {p : Parse β} (hp : Settles rank P p Q) (hr : Settles rank R p Q) :
    Settles rank (fun scope s => P scope s ∨ R scope s) p Q :=
  fun _ _ _ _ hv hs hc h => h.elim (hp hv hs hc) (hr hv hs hc)

/-- What ends somehow from every state. -/
theorem ofHere {p : Parse β} {R : State → β → Condition}
    (h : ∀ s₀, Settles rank (Condition.here s₀) p (R s₀)) : Halts rank P p :=
  fun _ _ _ s hv hs hc _ => ((h s).post fun _ _ _ _ => trivial) hv hs hc rfl

/-- What moves only forward leaves what holds from a place on. -/
theorem frame {p : Parse α} {R : Condition} (h : Halts rank P p) (hR : R.Lasting) :
    Settles rank (fun scope s => P scope s ∧ R scope s) p fun _ => R := by
  intro _ _ scope s hv hs hc hp
  obtain ⟨a, t, hr, -⟩ := h hv hs hc hp.1
  exact ⟨a, t, hr, hR hr.onward hp.2⟩

theorem stays {p : Parse α} {R : Condition} (h : Halts rank any p) (hR : R.Lasting) :
    Settles rank R p fun _ => R :=
  (h.frame hR).weaken fun _ _ h => ⟨trivial, h⟩

theorem done {b : β} (h : ∀ scope s, P scope s → Q b scope s) :
    Settles rank P (pure b : Parse β) Q :=
  fun _ _ scope s _ hs _ hp => ⟨b, s, ⟨fun _ _ => rfl, Nat.le_refl _, hs.inside⟩, h scope s hp⟩

theorem ended {b : β} : Halts rank P (pure b : Parse β) := done fun _ _ _ => trivial

theorem thenAt {p : Parse α} {f : α → Parse β} {R : α → Condition} (hp : Settles rank P p R)
    (hf : ∀ a, Settles rank (R a) (f a) Q) : Settles rank P (p >>= f) Q := by
  intro cost levels scope s hv hs hc hP
  obtain ⟨a, t, hr, hR⟩ := hp hv hs.first hc hP
  have hl := hr.onward
  obtain ⟨b, u, hr', hQ⟩ := hf a hv (hs.second hr) (by unfold Scope.remaining at *; omega) hR
  exact ⟨b, u, hr.bind hr', hQ⟩

theorem bind {p : Parse α} {f : α → Parse β} (hp : Halts rank any p)
    (hf : ∀ a, Settles rank any (f a) Q) : Settles rank P (p >>= f) Q :=
  thenAt (hp.weaken fun _ _ _ => trivial) hf

theorem look {p : Parse α} {g : Scope → State → α} {f : α → Parse β} (hp : Looks p g)
    (hf : ∀ a, Settles rank (fun scope s => P scope s ∧ g scope s = a) (f a) Q) :
    Settles rank P (p >>= f) Q := by
  refine thenAt (R := fun a scope s => P scope s ∧ g scope s = a) ?_ hf
  intro _ _ scope s _ hs _ hP
  exact ⟨_, s, ⟨fun _ _ => hp _ scope s, Nat.le_refl _, hs.inside⟩, hP, rfl⟩

theorem ite {c : Prop} [Decidable c] {p q : Parse β} (hp : c → Settles rank P p Q)
    (hq : ¬c → Settles rank P q Q) : Settles rank P (if c then p else q) Q := by
  split
  · exact hp ‹_›
  · exact hq ‹_›

/-- Behind a token every goal may be read. -/
theorem thenPast {p : Parse α} {f : α → Parse β} {R : α → Condition}
    (hp : ∀ i, Settles rank (fun scope s => P scope s ∧ s.position = i) p fun a scope s =>
      R a scope s ∧ past i scope s)
    (hf : ∀ a, Settles 3 (R a) (f a) Q) : Settles rank P (p >>= f) Q := by
  intro cost levels scope s hv hs hc hP
  obtain ⟨a, t, hr, hR, hl⟩ := hp s.position hv hs.first hc ⟨hP, rfl⟩
  have hi := hr.inside
  obtain ⟨b, u, hr', hQ⟩ := hf a hv (hs.second hr)
    (by unfold past at hl; unfold Scope.remaining at *; omega) hR
  exact ⟨b, u, hr.bind hr', hQ⟩

/-- What takes a token, behind which every goal may be read. -/
theorem take {C : Condition} {p : Parse α} {f : α → Parse β}
    (hC : ∀ scope s, P scope s → C scope s) (hp : Takes C p)
    (hf : ∀ a, Settles 3 any (f a) Q) : Settles rank P (p >>= f) Q :=
  thenPast (fun i => ((hp rank i).weaken fun scope s h => ⟨hC scope s h.1, h.2⟩).post
    fun _ _ _ h => ⟨trivial, h⟩) hf

/-- What takes a token, in a loop. -/
theorem takePast {C : Condition} {p : Parse α} {f : α → Parse β} {i : Nat}
    (hC : ∀ scope s, P scope s → C scope s ∧ s.position = i) (hp : Takes C p)
    (hf : ∀ a, Settles 3 (past i) (f a) Q) : Settles rank P (p >>= f) Q := by
  refine thenPast (R := fun _ => past i) (fun j => ?_) hf
  intro _ _ scope s hv hs hc hP
  obtain ⟨a, t, hr, ht⟩ := hp rank i hv hs hc (hC scope s hP.1)
  have : s.position = i := (hC scope s hP.1).2
  exact ⟨a, t, hr, ht, by rw [← hP.2, this]; exact ht⟩

/-- What moves only forward, where something holds from a place on. -/
theorem carry {p : Parse α} {f : α → Parse β} {R : Condition} (hR : R.Lasting)
    (hp : Halts rank any p) (hf : ∀ a, Settles rank R (f a) Q) : Settles rank R (p >>= f) Q :=
  thenAt (hp.stays hR) hf

/-- What moves only forward, behind a place. -/
theorem keep {p : Parse α} {f : α → Parse β} {i : Nat} (hp : Halts rank any p)
    (hf : ∀ a, Settles rank (past i) (f a) Q) : Settles rank (past i) (p >>= f) Q :=
  carry (lasting_past i) hp hf

/-- What may take a token, behind which every goal may be read. -/
theorem movePast {took : α → Bool} {p : Parse α} {f : α → Parse β} {i : Nat} (hp : Moves took p)
    (hP : ∀ scope s, P scope s → s.position = i)
    (hn : ∀ a, took a = false → Settles rank any (f a) Q)
    (hy : ∀ a, took a = true → Settles 3 (past i) (f a) Q) : Settles rank P (p >>= f) Q := by
  intro cost levels scope s hv hs hc h
  obtain rfl := hP scope s h
  obtain ⟨a, t, hr, hm⟩ := hp rank s.position hv hs.first hc rfl
  have hl := hr.onward
  have hi := hr.inside
  have ht := hs.second hr
  obtain ⟨b, u, hr', hQ⟩ : ∃ b u, Run levels scope t (fun r => f a r scope t) b u ∧ Q b scope u := by
    cases h : took a with
    | false => exact hn a h hv ht (by unfold Scope.remaining at *; omega) trivial
    | true =>
      have hm := hm h
      exact hy a h hv ht (by unfold past at hm; unfold Scope.remaining at *; omega) hm
  exact ⟨b, u, hr.bind hr', hQ⟩

theorem move {took : α → Bool} {p : Parse α} {f : α → Parse β} (hp : Moves took p)
    (hn : ∀ a, took a = false → Settles rank any (f a) Q)
    (hy : ∀ a, took a = true → Settles 3 any (f a) Q) : Settles rank P (p >>= f) Q := by
  intro _ _ scope s hv hs hc _
  refine movePast (P := Condition.here s) (i := s.position) hp ?_ hn (fun a h => ?_) hv hs hc rfl
  · rintro _ _ rfl
    rfl
  · exact (hy a h).weaken fun _ _ _ => trivial

theorem call {c : Category} {goal : Goal c} (h : goal.rank < rank)
    (hg : ∀ scope s, P scope s → goal.Ready scope s := by intros; trivial) :
    Halts rank P (Parse.call goal) := by
  intro cost levels scope s hv hs hc hP
  obtain ⟨a, t, hr, -⟩ := hv.call goal rfl hs (hg scope s hP) (by unfold Goal.cost; omega)
  exact ⟨a, t, hr, trivial⟩

/-- A goal that takes a token. -/
theorem callEager {c : Category} {goal : Goal c} {i : Nat} (h : goal.rank < rank)
    (hP : ∀ scope s, P scope s → goal.Eager scope s ∧ i ≤ s.position) :
    Settles rank P (Parse.call goal) fun _ => past i := by
  intro cost levels scope s hv hs hc hp
  obtain ⟨hg, hi⟩ := hP scope s hp
  obtain ⟨a, t, hr, he⟩ := hv.call goal rfl hs hg.ready (by unfold Goal.cost; omega)
  exact ⟨a, t, hr, Nat.lt_of_le_of_lt hi (he hg)⟩

/-! ## Loops -/

/-- What is left to a loop: the tokens, and once an unwinding. -/
def left (scope : Scope) (s : State) : Nat :=
  2 * scope.remaining s + if s.unwinding then 0 else 1

section Stuck

variable {turn : α → Parse (Turn α β)} {W : Condition} {I : α → Condition}

/-- Rounds of a loop come to an end if each one that is not the last brings it onward. If one may be
stuck, then nothing ends a loop that is, so such a loop is not waited for. -/
theorem rounds {cost levels : Nat} {scope : Scope} (hsane : ∀ s, scope.Sane s → ¬W scope s)
    (hnever : ∀ s, W scope s → ∀ r k a, Parse.rounds turn k a r scope s = none)
    (hv : Affords scope.buffer cost levels)
    (h : ∀ a s₀, Settles rank (fun scope s => s = s₀ ∧ I a scope s) (turn a)
      (turnedOr W s₀ I Q)) :
    ∀ m j a s, left scope s < m →
      (scope.Awaits s fun r => Parse.rounds turn (r.steps - j) a r scope s) →
      3 * scope.remaining s + rank ≤ cost → I a scope s →
      ∃ b t, (∀ n k, levels ≤ n → m ≤ k →
        Parse.rounds turn k a (recursion n) scope s = some (b, t)) ∧
        s.position ≤ t.position ∧ t.position < scope.buffer.size ∧ Q b scope t := by
  intro m
  induction m with
  | zero => intros; omega
  | succ m ih =>
    intro j a s hl hs hc hI
    obtain ⟨x, t, hr, hx⟩ := h a s hv hs.round hc ⟨rfl, hI⟩
    have hp := hr.onward
    have hi := hr.inside
    cases x with
    | stop b =>
      refine ⟨b, t, fun n k hn hk => ?_, hp, hi, hx⟩
      obtain ⟨k, rfl⟩ : ∃ j, k = j + 1 := ⟨k - 1, by omega⟩
      exact bind_eq_some.mpr ⟨_, t, hr.agree n hn, rfl⟩
    | again a' =>
      have hs' := hs.again hr
      have hx' : onward s scope t := hx.1.resolve_right fun hstuck => by
        rcases hs'.returns with hsane' | ⟨n, hn⟩
        · exact hsane t hsane' hstuck
        · have hsome := hn n (Nat.le_refl n)
          rw [hnever t hstuck] at hsome
          cases hsome
      have hm : left scope t < m := by
        unfold onward at hx'
        unfold left Scope.remaining at *
        rcases hx' with h | ⟨h, h'⟩
        · split at hl <;> split <;> omega
        · rw [h] at hl
          rw [h']
          simp at hl ⊢
          omega
      obtain ⟨b, u, he, hq, hj, hQ⟩ :=
        ih (j + 1) a' t hm hs' (by unfold Scope.remaining at *; omega) hx.2
      refine ⟨b, u, fun n k hn hk => ?_, Nat.le_trans hp hq, hj, hQ⟩
      obtain ⟨k, rfl⟩ : ∃ j, k = j + 1 := ⟨k - 1, by omega⟩
      exact bind_eq_some.mpr ⟨_, t, hr.agree n hn, he n k hn (by omega)⟩

/-- A loop comes to an end if each round that is neither stuck nor the last one brings it onward. -/
theorem loopOr {a : α} (hsane : ∀ scope s, scope.Sane s → ¬W scope s)
    (hnever : ∀ scope s, W scope s → ∀ r k a, Parse.rounds turn k a r scope s = none)
    (h : ∀ a s₀, Settles rank (fun scope s => s = s₀ ∧ I a scope s) (turn a)
      (turnedOr W s₀ I Q)) :
    Settles rank (I a) (Parse.loop turn a) Q := by
  intro cost levels scope s hv hs hc hI
  have hl : left scope s < 2 * scope.buffer.size + 2 := by
    unfold left Scope.remaining; split <;> omega
  obtain ⟨b, t, he, hp, hi, hQ⟩ :=
    rounds (hsane scope) (hnever scope) hv h _ 0 a s hl hs hc hI
  refine ⟨b, t, ⟨fun n hn => ?_, hp, hi⟩, hQ⟩
  have hr := hv.rounds
  obtain ⟨n, rfl⟩ : ∃ j, n = j + 1 := ⟨n - 1, by omega⟩
  exact he _ _ hn (show _ ≤ n by omega)

/-- A loop comes to an end if each round that is not the last one brings it onward. -/
theorem loop {a : α}
    (h : ∀ a s₀, Settles rank (fun scope s => s = s₀ ∧ I a scope s) (turn a) (turned s₀ I Q)) :
    Settles rank (I a) (Parse.loop turn a) Q := by
  refine loopOr (W := fun _ _ => False) (fun _ _ _ => id) (fun _ _ h => h.elim) fun a s₀ =>
    (h a s₀).post fun x scope s hx => ?_
  cases x with
  | again b => exact ⟨.inl hx.1, hx.2⟩
  | stop c => exact hx

end Stuck

theorem many {item : Parse (Option α)} (h : Steps rank item) : Halts rank P (Parse.many item) := by
  refine bind (loop (I := fun _ => any) fun items s₀ => ?_) fun _ => ended
  refine thenAt ((h s₀).weaken fun _ _ hs => hs.1) fun a => ?_
  cases a with
  | some a => exact done fun _ _ hs => ⟨hs, trivial⟩
  | none => exact done fun _ _ _ => trivial

end Settles

end BallerinaSyntax
