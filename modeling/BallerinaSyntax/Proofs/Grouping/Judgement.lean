import BallerinaSyntax.Proofs.Grouping.Basic
import BallerinaSyntax.Proofs.Reading.Expression
import BallerinaSyntax.Proofs.Reading.TypeName

/-!
What productions give, if they give anything. Most of them only have to give trees that are well
grouped. A climb through operators has to stop, too, before an operator that binds as tightly as
it was asked for: what called it may go on with that operator and relies on it to bind less
tightly. Only where everything unwinds does no climb go on at all.
-/

namespace BallerinaSyntax

open Parse Condition Grammar

variable {α β γ : Type}

/-- No operator that binds this tightly goes on from here. -/
def Condition.below (found : Scope → State → Option Operator) (power : Nat) : Condition :=
  fun scope s => s.unwinding = true ∨ ∀ op, found scope s = some op → op.power < power

/-- What holds where a round of a loop is over. -/
def Condition.rounded (again : α → Condition) (stop : β → Condition) : Turn α β → Condition
  | .again a => again a
  | .stop b => stop b

/-- What holds where something is there or not. -/
def Condition.given (there : α → Condition) (not : Condition) : Option α → Condition
  | some a => there a
  | none => not

/-- What a goal gives, and where it stops. -/
def Goal.Keeps : {c : Category} → Goal c → Tree c → Condition
  | _, .expression power, e => fun scope s =>
    wellGrouped e ∧ e.AtLeast power ∧ below Scope.expressionOperator? power scope s
  | _, .typeName power, t => fun scope s =>
    wellGrouped t ∧ (TypePower.union.toNat < power → t.isUnion = false) ∧
      below Scope.typeOperator? power scope s
  | _, _, t => fun _ _ => wellGrouped t

def Recursion.Groups (r : Recursion) : Prop :=
  ∀ ⦃c : Category⦄ (goal : Goal c) ⦃scope s t s'⦄, r.call goal scope s = some (t, s') →
    goal.Keeps t scope s'

/-- Run where `P` holds, a production only gives what `Q` holds of. -/
def Gives (P : Condition) (p : Parse α) (Q : α → Condition) : Prop :=
  ∀ ⦃r scope s a t⦄, r.Groups → P scope s → p r scope s = some (a, t) → Q a scope t

/-- A production only gives what is well grouped. -/
def Yields [HasGrouping α] (p : Parse α) : Prop := Gives any p fun a _ _ => wellGrouped a

instance [HasGrouping β] [HasGrouping γ] : HasGrouping (Turn β γ) where
  wellGrouped
    | .again b => wellGrouped b
    | .stop c => wellGrouped c

section Rules

variable {P : Condition} {Q : α → Condition} {R : β → Condition}

namespace Gives

theorem weaken {P' : Condition} {p : Parse α} {Q' : α → Condition} (h : Gives P p Q)
    (hP : ∀ scope s, P' scope s → P scope s) (hQ : ∀ a scope s, Q a scope s → Q' a scope s) :
    Gives P' p Q' :=
  fun _ scope s a t hr hs he => hQ a scope t (h hr (hP scope s hs) he)

theorem done {a : α} (h : ∀ scope s, P scope s → Q a scope s) : Gives P (pure a) Q := by
  intro r scope s b t _ hs he
  obtain ⟨rfl, rfl⟩ := pure_eq_some.mp he
  exact h scope s hs

theorem bind {p : Parse α} {k : α → Parse β} (hp : Gives P p Q) (hk : ∀ a, Gives (Q a) (k a) R) :
    Gives P (p >>= k) R := by
  intro r scope s b u hr hs he
  obtain ⟨a, t, ha, hb⟩ := bind_eq_some.mp he
  exact hk a hr (hp hr hs ha) hb

/-- What the condition says of all places. -/
theorem of {p : Parse α} {φ : Prop} (hP : ∀ scope s, P scope s → φ) (h : φ → Gives P p Q) :
    Gives P p Q :=
  fun _ scope s _ _ hr hs he => h (hP scope s hs) hr hs he

theorem call {c : Category} {goal : Goal c} : Gives P (Parse.call goal) goal.Keeps :=
  fun _ _ _ _ _ hr _ he => hr goal he

/-- What is given first does not matter. -/
theorem skip {p : Parse α} {k : α → Parse β} (hk : ∀ a, Gives any (k a) R) : Gives P (p >>= k) R :=
  bind (Q := fun _ => any) (fun _ _ _ _ _ _ _ _ => trivial) hk

/-- What is given first is well grouped. -/
theorem after [HasGrouping α] {p : Parse α} {k : α → Parse β} (hp : Yields p)
    (hk : ∀ a, wellGrouped a → Gives any (k a) R) : Gives P (p >>= k) R := by
  intro r scope s b u hr _ he
  obtain ⟨a, t, ha, hb⟩ := bind_eq_some.mp he
  exact hk a (hp hr trivial ha) hr trivial hb

theorem look {p : Parse α} {f : Scope → State → α} {k : α → Parse β} (hp : Looks p f)
    (hk : ∀ a, Gives (fun scope s => P scope s ∧ f scope s = a) (k a) R) : Gives P (p >>= k) R := by
  intro r scope s b u hr hs he
  obtain ⟨a, t, ha, hb⟩ := bind_eq_some.mp he
  rw [hp r scope s] at ha
  cases ha
  exact hk _ hr ⟨hs, rfl⟩ hb

theorem ite {c : Prop} [Decidable c] {p q : Parse α} (hp : c → Gives P p Q)
    (hq : ¬c → Gives P q Q) : Gives P (if c then p else q) Q := by
  split
  · exact hp ‹_›
  · exact hq ‹_›

/-- The node at the end of a production changes nothing. -/
theorem node {m : Mark} {kind : Kind} {f : NodeInfo → Parse β}
    (h : ∀ info, Gives P (f info) R) : Gives P (finish m kind >>= f) R :=
  look (f := fun scope s => scope.buffer.nodeOf m s kind) (fun r scope s => finish_eq m kind r scope s)
    fun info => (h info).weaken (fun _ _ hs => hs.1) fun _ _ _ hb => hb

theorem rounds {turn : α → Parse (Turn α β)} (h : ∀ a, Gives (Q a) (turn a) (rounded Q R)) :
    ∀ n a, Gives (Q a) (Parse.rounds turn n a) R
  | 0, _ => fun _ _ _ _ _ _ _ he => by cases he
  | n + 1, a => by
    refine bind (h a) fun x => ?_
    cases x with
    | again b => exact rounds h n b
    | stop c => exact done fun _ _ hs => hs

/-- What each round of a loop preserves holds in the end. -/
theorem loop {turn : α → Parse (Turn α β)} {a : α}
    (h : ∀ a, Gives (Q a) (turn a) (rounded Q R)) : Gives (Q a) (Parse.loop turn a) R :=
  fun r _ _ _ _ hr hs he => rounds h r.steps a hr hs he

/-- Items up to one that is not there. -/
theorem many {I R : List α → Condition} {item : Parse (Option α)}
    (h : ∀ items, Gives (I items) item (given (fun a => I (items ++ [a])) (R items))) :
    Gives (I []) (Parse.many item) R := by
  refine bind (Q := fun items : Array α => R items.toList)
    (loop (Q := fun items : Array α => I items.toList) (a := #[]) fun items => ?_)
    fun items => done fun _ _ hs => hs
  refine bind (h items.toList) fun a => ?_
  cases a with
  | some a => exact done fun scope s hs => by simpa [rounded, given] using hs
  | none => exact done fun _ _ hs => hs

theorem nested {p fallback : Parse α} (hp : Gives any p Q)
    (hf : Gives (fun _ s => s.unwinding = true) fallback Q)
    (hQ : ∀ a scope s depth, Q a { scope with depth := depth } s → Q a scope s) :
    Gives P (Parse.nested p fallback) Q := by
  intro r scope s a t hr _ he
  rw [nested_eq] at he
  split at he
  · exact hf hr rfl he
  · exact hQ _ _ _ _ (hp hr trivial he)

end Gives

namespace Yields

variable [HasGrouping α] [HasGrouping β]

theorem done {a : α} (h : wellGrouped a) : Yields (pure a) := Gives.done fun _ _ _ => h

theorem bind {p : Parse α} {k : α → Parse β} (hp : Yields p)
    (hk : ∀ a, wellGrouped a → Yields (k a)) : Yields (p >>= k) := Gives.after hp hk

omit [HasGrouping α] in
theorem skip {p : Parse α} {k : α → Parse β} (hk : ∀ a, Yields (k a)) : Yields (p >>= k) :=
  Gives.skip hk

theorem ite {c : Prop} [Decidable c] {p q : Parse α} (hp : Yields p) (hq : Yields q) :
    Yields (if c then p else q) := Gives.ite (fun _ => hp) fun _ => hq

theorem loop {turn : α → Parse (Turn α β)} {a : α} (ha : wellGrouped a)
    (h : ∀ a, wellGrouped a → Yields (turn a)) : Yields (Parse.loop turn a) := by
  refine Gives.weaken (Gives.loop (Q := fun a _ _ => wellGrouped a) (R := fun b _ _ => wellGrouped b)
    fun a r scope s x t hr ha he => ?_) (fun _ _ _ => ha) fun _ _ _ h => h
  have hx := h a ha hr trivial he
  cases x <;> exact hx

/-- An item that there is. -/
theorem item {p : Parse α} (h : Yields p) : Yields (p >>= fun a => pure (some a)) :=
  .bind h fun _ ha => .done ha

theorem many {item : Parse (Option α)} (h : Yields item) : Yields (Parse.many item) := by
  refine .bind (.loop wellGrouped_empty fun items hi => .bind h fun a ha => ?_) fun items hi => .done hi
  cases a with
  | some a => exact .done ((wellGrouped_push items a).mpr ⟨hi, ha⟩)
  | none => exact .done hi

theorem withRecovery {sync : List Kind} {p : Parse α} (h : Yields p) :
    Yields (Parse.withRecovery sync p) :=
  fun _ _ _ _ _ hr _ he => h hr trivial he

theorem call {c : Category} {goal : Goal c} (h : ∀ t scope s, goal.Keeps t scope s → wellGrouped t) :
    Yields (Parse.call goal) :=
  fun _ scope _ _ t hr _ he => h _ scope t (hr goal he)

theorem attempt {p : Parse (Option α)} (h : Yields p) : Yields (Parse.attempt p) := by
  intro r scope s a t hr _ he
  unfold Parse.attempt at he
  cases hp : p r scope s with
  | none => rw [hp] at he; cases he
  | some x =>
    obtain ⟨x, u⟩ := x
    have hx := h hr trivial hp
    rw [hp] at he
    cases x with
    | none => cases he; trivial
    | some x =>
      dsimp only at he
      split at he <;> cases he
      · exact hx
      · trivial

theorem nested {p fallback : Parse α} (hp : Yields p) (hf : Yields fallback) :
    Yields (Parse.nested p fallback) :=
  Gives.nested hp (hf.weaken (fun _ _ _ => trivial) fun _ _ _ h => h) fun _ _ _ _ h => h

end Yields

end Rules

/-! ## Operators -/

/-- An operator that is next here may be applied to what was read. -/
def Condition.ready {c : Category} (found : Scope → State → Option Operator)
    (fits : Tree c → Operator → Prop) (t : Tree c) : Condition :=
  fun scope s => s.unwinding = true ∨ ∀ op, found scope s = some op → fits t op

/-- A rule of operators that may be applied to what `fits` says, and give what is `good` for all
powers that do not exceed theirs. -/
structure OperatorRule.Groups {c : Category} (rule : OperatorRule c)
    (found : Scope → State → Option Operator) (good : Tree c → Nat → Prop)
    (fits : Tree c → Operator → Prop) : Prop where
  primary : Gives any rule.primary fun t scope s =>
    (∀ power, good t power) ∧ ready found fits t scope s
  operator? : Looks rule.operator? found
  apply : ∀ {m left op power}, good left power → fits left op → power ≤ op.power →
    Gives (fun scope s => found scope s = some op ∧ s.unwinding = false) (rule.apply m left op)
      fun t scope s => good t power ∧ ready found fits t scope s

theorem gives_climb {c : Category} {rule : OperatorRule c}
    {found : Scope → State → Option Operator} {good : Tree c → Nat → Prop}
    {fits : Tree c → Operator → Prop} (h : OperatorRule.Groups rule found good fits) (power : Nat) :
    Gives any (climb rule power) fun t scope s => good t power ∧ below found power scope s := by
  refine .skip fun m => .bind h.primary fun first => ?_
  refine (Gives.loop (Q := fun t scope s => good t power ∧ ready found fits t scope s)
    fun left => ?_).weaken (fun _ _ hs => ⟨hs.1 power, hs.2⟩) fun _ _ _ hs => hs
  refine .look looks_isUnwinding fun _ => .ite
    (fun hu => .done fun scope s hs => ⟨hs.1.1, .inl (hs.2.trans hu)⟩) fun hu =>
    .look h.operator? fun op? => ?_
  cases op? with
  | none =>
    refine .done fun scope s hs => ⟨hs.1.1.1, .inr fun op ho => ?_⟩
    rw [hs.2] at ho
    cases ho
  | some op =>
    refine .ite (fun hlt => .done fun scope s hs => ⟨hs.1.1.1, .inr fun op' ho => ?_⟩) fun hle => ?_
    · rw [hs.2] at ho
      cases ho
      exact hlt
    · have hstill : ∀ {s : State}, s.unwinding = _ → s.unwinding = false := fun h =>
        h.trans (Bool.eq_false_iff.mpr hu)
      refine .of (fun scope s hs => ?_) fun hleft : good left power ∧ fits left op => ?_
      · obtain ⟨⟨⟨hgood, hready⟩, hunwinding⟩, hfound⟩ := hs
        exact ⟨hgood, hready.resolve_left (by simp [hstill hunwinding]) op hfound⟩
      · refine .bind ((h.apply hleft.1 hleft.2 (Nat.le_of_not_lt hle)).weaken (fun scope s hs => ?_)
          fun _ _ _ ht => ht) fun _ => .done fun _ _ ht => ht
        exact ⟨hs.2, hstill hs.1.2⟩

end BallerinaSyntax
