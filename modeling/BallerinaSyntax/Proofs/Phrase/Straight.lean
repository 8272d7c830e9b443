import BallerinaSyntax.Proofs.Phrase.Basic
import BallerinaSyntax.Proofs.Grouping.Expression

/-!
Reading straight on: a production takes some tokens, gives its result, and leaves all of the state
as it was except for the position. What is read this way has no error in it.
-/

namespace BallerinaSyntax

open Grammar Parse

variable {α β γ : Type}

def State.goTo (s : State) (i : Nat) : State := { s with position := i }

@[simp] theorem State.goTo_position (s : State) (i : Nat) : (s.goTo i).position = i := rfl

@[simp] theorem State.goTo_goTo (s : State) (i j : Nat) : (s.goTo i).goTo j = s.goTo j := rfl

@[simp] theorem State.goTo_unwinding (s : State) (i : Nat) : (s.goTo i).unwinding = s.unwinding :=
  rfl

@[simp] theorem State.goTo_errorCount (s : State) (i : Nat) :
    (s.goTo i).errorCount = s.errorCount := rfl

/-- The scope of what is nested in a construct. -/
def Scope.deeper (scope : Scope) : Scope := { scope with depth := scope.depth + 1 }

/-- Where a node begins that is read from here. -/
def State.mark (s : State) : Mark := ⟨s.position, s.errorCount⟩

/-- The node over tokens that begin at an index; if there are none, it stands before the token that
follows. -/
def NodeInfo.before (k : Kind) (index : Nat) (ts : List Token) (next : Token) : NodeInfo where
  kind := k
  range := if ts.isEmpty then .empty next.range.start else Token.cover ts
  tokens := ⟨index, index + ts.length⟩

theorem NodeInfo.before_of_ne_nil {ts : List Token} (h : ts ≠ []) (k : Kind) (i : Nat)
    (next : Token) : NodeInfo.before k i ts next = .over k i ts := by
  cases ts with
  | nil => exact absurd rfl h
  | cons => rfl

/-! ## Reading on -/

/-- Reading gives `a` and leads to the state `t`. -/
def Leads (r : Recursion) (scope : Scope) (s : State) (p : Parse α) (a : α) (t : State) : Prop :=
  p r scope s = some (a, t)

namespace Leads

variable {r : Recursion} {scope : Scope} {s t u : State}

theorem pure (a : α) : Leads r scope s (Pure.pure a) a s := rfl

theorem bind {p : Parse α} {f : α → Parse β} {a : α} {b : β} (hp : Leads r scope s p a t)
    (hf : Leads r scope t (f a) b u) : Leads r scope s (p >>= f) b u :=
  bind_eq_some.mpr ⟨a, t, hp, hf⟩

theorem look {p : Parse α} {view : Scope → State → α} {f : α → Parse β} {b : β} (hp : Looks p view)
    (hf : Leads r scope s (f (view scope s)) b t) : Leads r scope s (p >>= f) b t :=
  bind_eq_some.mpr ⟨view scope s, s, hp r scope s, hf⟩

theorem ite_pos {c : Prop} [Decidable c] {p q : Parse α} {a : α} (hc : c)
    (h : Leads r scope s p a t) : Leads r scope s (if c then p else q) a t := by
  rwa [if_pos hc]

theorem ite_neg {c : Prop} [Decidable c] {p q : Parse α} {a : α} (hc : ¬c)
    (h : Leads r scope s q a t) : Leads r scope s (if c then p else q) a t := by
  rwa [if_neg hc]

/-- A loop that stops in its first round. -/
theorem loop_stop {turn : α → Parse (Turn α β)} {a : α} {b : β}
    (h : Leads r scope s (turn a) (.stop b) t) (hr : 1 ≤ r.steps) :
    Leads r scope s (loop turn a) b t := by
  obtain ⟨n, hn⟩ := Nat.exists_eq_add_of_le' hr
  change rounds turn r.steps a r scope s = _
  rw [hn]
  exact bind h (pure _)

/-- A loop that stops in its second round. -/
theorem loop_again {turn : α → Parse (Turn α β)} {a c : α} {b : β}
    (h : Leads r scope s (turn a) (.again c) t) (h' : Leads r scope t (turn c) (.stop b) u)
    (hr : 2 ≤ r.steps) : Leads r scope s (loop turn a) b u := by
  obtain ⟨n, hn⟩ := Nat.exists_eq_add_of_le' hr
  change rounds turn r.steps a r scope s = _
  rw [hn]
  exact bind h (bind h' (pure _))

/-- A round that takes tokens makes progress. -/
theorem progressing {p : Parse α} {a : α} (what : String) (hp : Leads r scope s p a t)
    (hj : t.position ≠ s.position) : Leads r scope s (Parse.progressing what p) a t := by
  refine look looks_position (bind hp (look looks_position (look looks_isUnwinding ?_)))
  refine ite_neg ?_ (pure _)
  rw [Bool.and_eq_true, beq_iff_eq]
  exact fun h => hj h.1

end Leads

theorem steps_recursion : ∀ levels : Nat, (recursion levels).steps = levels - 1
  | 0 => rfl
  | _ + 1 => rfl

/-! ## Reading straight on -/

/-- Reading gives `a` and goes straight on to the token at index `j`. -/
def Straight (r : Recursion) (scope : Scope) (s : State) (p : Parse α) (a : α) (j : Nat) : Prop :=
  Leads r scope s p a (s.goTo j)

namespace Straight

variable {r : Recursion} {scope : Scope} {s : State} {i j k : Nat}

theorem leads {p : Parse α} {a : α} (hp : Straight r scope s p a j) :
    Leads r scope s p a (s.goTo j) := hp

theorem pure (a : α) (h : s.position = j) : Straight r scope s (Pure.pure a) a j := by
  subst h
  rfl

theorem bind {p : Parse α} {f : α → Parse β} {a : α} {b : β} (hp : Straight r scope s p a j)
    (hf : Straight r scope (s.goTo j) (f a) b k) : Straight r scope s (p >>= f) b k :=
  Leads.bind hp hf

theorem look {p : Parse α} {view : Scope → State → α} {f : α → Parse β} {b : β} (hp : Looks p view)
    (hf : Straight r scope s (f (view scope s)) b j) : Straight r scope s (p >>= f) b j :=
  Leads.look hp hf

theorem give {f : α → Parse β} {a : α} {b : β} (hf : Straight r scope s (f a) b j) :
    Straight r scope s (Pure.pure a >>= f) b j := hf

theorem ite_pos {c : Prop} [Decidable c] {p q : Parse α} {a : α} (hc : c)
    (h : Straight r scope s p a j) : Straight r scope s (if c then p else q) a j :=
  Leads.ite_pos hc h

theorem ite_neg {c : Prop} [Decidable c] {p q : Parse α} {a : α} (hc : ¬c)
    (h : Straight r scope s q a j) : Straight r scope s (if c then p else q) a j :=
  Leads.ite_neg hc h

/-- A token that is not the end of the file is taken. -/
theorem bump {t : Token} (ht : scope.buffer.get s.position = t) (hk : t.kind ≠ .endOfFileToken) :
    Straight r scope s Parse.bump (t.leaf s.position) (s.position + 1) := by
  have hk' : ¬(scope.kindAt s 0 == .endOfFileToken) = true := by
    rw [beq_iff_eq]
    rwa [← ht] at hk
  unfold Straight Leads
  rw [bump_eq, if_neg hk', ← ht]
  rfl

theorem expect {t : Token} {k : Kind} (ht : scope.buffer.get s.position = t) (hk : t.kind = k)
    (hne : k ≠ .endOfFileToken) :
    Straight r scope s (Parse.expect k) (t.leaf s.position) (s.position + 1) := by
  have hat : (scope.kindAt s 0 == k) = true := by
    rw [beq_iff_eq, ← hk, ← ht]
    rfl
  exact look (looks_atKind k) (ite_pos hat (bump ht (by rwa [hk])))

theorem expectClosing {opening : Leaf} {t : Token} {k : Kind} {what : String}
    (ht : scope.buffer.get s.position = t) (hk : t.kind = k) (hne : k ≠ .endOfFileToken) :
    Straight r scope s (Parse.expectClosing opening k what) (t.leaf s.position) (s.position + 1) := by
  have hat : (scope.kindAt s 0 == k) = true := by
    rw [beq_iff_eq, ← hk, ← ht]
    rfl
  exact look (looks_atKind k) (ite_pos hat (bump ht (by rwa [hk])))

/-- A token that is not there is not taken. -/
theorem optional_no {k : Kind} (hk : scope.kindAt s 0 ≠ k) :
    Straight r scope s (optional k) none s.position :=
  .look (looks_atKind k) (.ite_neg (by rwa [beq_iff_eq]) (.pure none rfl))

/-- A token that is there is taken. -/
theorem optional_yes {t : Token} {k : Kind} (ht : scope.buffer.get s.position = t)
    (hk : t.kind = k) (hne : k ≠ .endOfFileToken) :
    Straight r scope s (optional k) (some (t.leaf s.position)) (s.position + 1) := by
  have hat : (scope.kindAt s 0 == k) = true := by
    rw [beq_iff_eq, ← hk, ← ht]
    rfl
  exact .look (looks_atKind k) (.ite_pos hat (.bind (.bump ht (by rwa [hk])) (.pure _ rfl)))

theorem accept_no {k : Kind} (hk : scope.kindAt s 0 ≠ k) :
    Straight r scope s (accept k) false s.position :=
  .bind (.optional_no hk) (.pure _ rfl)

theorem accept_yes {t : Token} {k : Kind} (ht : scope.buffer.get s.position = t)
    (hk : t.kind = k) (hne : k ≠ .endOfFileToken) :
    Straight r scope s (accept k) true (s.position + 1) :=
  .bind (.optional_yes ht hk hne) (.pure _ rfl)

/-- A node over tokens that were read straight on. -/
theorem finish {ts : List Token} (k : Kind) (hs : scope.buffer.Shows i ts) (hne : ts ≠ [])
    (hj : s.position = i + ts.length) :
    Straight r scope s (Parse.finish ⟨i, s.errorCount⟩ k) (.over k i ts) s.position := by
  have hr : scope.buffer.rangeOf? i s.position = some (Token.cover ts) := by
    cases ts with
    | nil => exact absurd rfl hne
    | cons t ts => rw [hj, hs.rangeOf?]
  unfold Straight Leads
  rw [finish_eq, Buffer.nodeOf, hr, decide_eq_false (Nat.lt_irrefl _), NodeInfo.over, ← hj]
  rfl

/-- A node over tokens that were read straight on, or over none. -/
theorem finish_before {ts : List Token} (k : Kind) (hs : scope.buffer.Shows i ts)
    (hj : s.position = i + ts.length) :
    Straight r scope s (Parse.finish ⟨i, s.errorCount⟩ k)
      (.before k i ts (scope.buffer.get s.position)) s.position := by
  cases ts with
  | nil =>
    have hempty : scope.buffer.rangeOf? i s.position = none := by
      rw [hj]
      exact if_neg (Nat.lt_irrefl i)
    unfold Straight Leads
    rw [finish_eq, Buffer.nodeOf, hempty, decide_eq_false (Nat.lt_irrefl _), NodeInfo.before, ← hj]
    rfl
  | cons t ts => exact finish k hs (List.cons_ne_nil _ _) hj

theorem finishDelimited {ts : List Token} {close : Leaf} (k : Kind)
    (hs : scope.buffer.Shows i ts) (hne : ts ≠ []) (hj : s.position = i + ts.length)
    (hc : close.missing = false) :
    Straight r scope s (Parse.finishDelimited ⟨i, s.errorCount⟩ k close) (.over k i ts)
      s.position := by
  refine bind (finish k hs hne hj) ?_
  rw [if_neg (ne_true_of_eq_false hc)]
  exact pure _ rfl

/-- What is nested is read one level deeper. -/
theorem nested {p fallback : Parse α} {a : α}
    (hd : scope.depth < scope.options.maxNestingDepth)
    (hp : Straight r { scope with depth := scope.depth + 1 } s p a j) :
    Straight r scope s (Parse.nested p fallback) a j := by
  unfold Straight Leads
  rw [nested_eq, if_neg (Nat.not_le.mpr hd)]
  exact hp

/-- A goal is read in the recursion of which one level is used up. -/
theorem call {c : Category} {goal : Goal c} {levels : Nat} {t : Tree c}
    (h : Straight (recursion levels) scope s (rule goal) t j) :
    Straight (recursion (levels + 1)) scope s (Parse.call goal) t j := h

theorem loop_stop {turn : α → Parse (Turn α β)} {a : α} {b : β}
    (h : Straight r scope s (turn a) (.stop b) j) (hr : 1 ≤ r.steps) :
    Straight r scope s (loop turn a) b j :=
  Leads.loop_stop h hr

theorem loop_again {turn : α → Parse (Turn α β)} {a c : α} {b : β}
    (h : Straight r scope s (turn a) (.again c) i)
    (h' : Straight r scope (s.goTo i) (turn c) (.stop b) j) (hr : 2 ≤ r.steps) :
    Straight r scope s (loop turn a) b j :=
  Leads.loop_again h h' hr

/-- A list without items. -/
theorem many_none {item : Parse (Option α)} (hn : Straight r scope s item none j)
    (hr : 1 ≤ r.steps) : Straight r scope s (many item) [] j :=
  bind (loop_stop (bind hn (pure _ rfl)) hr) (pure _ rfl)

/-- A list of one item. -/
theorem many_one {item : Parse (Option α)} {a : α} (hp : Straight r scope s item (some a) j)
    (hn : Straight r scope (s.goTo j) item none j) (hr : 2 ≤ r.steps) :
    Straight r scope s (many item) [a] j :=
  bind (loop_again (bind hp (pure _ rfl)) (bind hn (pure _ rfl)) hr) (pure _ rfl)

theorem progressing {p : Parse α} {a : α} (what : String) (hp : Straight r scope s p a j)
    (hj : j ≠ s.position) : Straight r scope s (Parse.progressing what p) a j :=
  Leads.progressing what hp hj

end Straight

/-! ## Items in a row -/

/-- Items one after another, each read by a step that leads from an index to a later one. -/
inductive Row (step : Nat → α → Nat → Prop) : Nat → List α → Nat → Prop
  | nil (i : Nat) : Row step i [] i
  | cons {i j k : Nat} {a : α} {as : List α} (head : step i a j) (tail : Row step j as k) :
      Row step i (a :: as) k

namespace Row

variable {r : Recursion} {scope : Scope} {s : State} {i j : Nat} {as : List α}
  {step : Nat → α → Nat → Prop}

/-- A loop that collects an item in every round but the last. -/
theorem rounds {turn : Array α → Parse (Turn (Array α) (Array α))} (h : Row step i as j)
    (hnext : ∀ read i a j, step i a j →
      Straight r scope (s.goTo i) (turn read) (.again (read.push a)) j)
    (hstop : ∀ read, Straight r scope (s.goTo j) (turn read) (.stop read) j) :
    ∀ n read, as.length < n →
      Straight r scope (s.goTo i) (Parse.rounds turn n read) (read ++ as.toArray) j := by
  induction h with
  | nil i =>
    intro n read hn
    obtain ⟨n, rfl⟩ := Nat.exists_eq_add_of_lt hn
    have hread : read ++ ([] : List α).toArray = read := Array.append_empty
    rw [hread]
    exact .bind (hstop read) (.pure _ rfl)
  | @cons i j k a as head tail ih =>
    intro n read hn
    rw [List.length_cons] at hn
    obtain ⟨n, rfl⟩ := Nat.exists_eq_add_of_le' (Nat.one_le_of_lt hn)
    have hread : read ++ (a :: as).toArray = read.push a ++ as.toArray := by simp
    rw [hread]
    exact .bind (hnext read i a j head) (ih hstop n (read.push a) (by omega))

theorem loop {turn : Array α → Parse (Turn (Array α) (Array α))} (h : Row step i as j)
    (hnext : ∀ read i a j, step i a j →
      Straight r scope (s.goTo i) (turn read) (.again (read.push a)) j)
    (hstop : ∀ read, Straight r scope (s.goTo j) (turn read) (.stop read) j)
    (hn : as.length < r.steps) :
    Straight r scope (s.goTo i) (Parse.loop turn #[]) as.toArray j := by
  have hrounds := h.rounds hnext hstop r.steps #[] hn
  rw [Array.empty_append] at hrounds
  exact hrounds

theorem many {item : Parse (Option α)} (h : Row step i as j)
    (hitem : ∀ i a j, step i a j → Straight r scope (s.goTo i) item (some a) j)
    (hend : Straight r scope (s.goTo j) item none j) (hn : as.length < r.steps) :
    Straight r scope (s.goTo i) (Parse.many item) as j := by
  refine .bind (h.loop (fun read i a j hstep => ?_) (fun read => ?_) hn) (.pure _ rfl)
  · exact .bind (hitem i a j hstep) (.pure _ rfl)
  · exact .bind hend (.pure _ rfl)

/-- Items behind a separator, up to where it does not follow. -/
theorem moreBehind {item : Parse α} {separator : Kind} (h : Row step i as j)
    (hitem : ∀ i a j, step i a j → scope.kindAt (s.goTo i) 0 = separator ∧
      Straight r scope (s.goTo (i + 1)) item a j)
    (hu : s.unwinding = false) (hk : separator ≠ .endOfFileToken)
    (hend : scope.kindAt (s.goTo j) 0 ≠ separator) (hn : as.length < r.steps) :
    Straight r scope (s.goTo i) (Parse.moreBehind separator item) as j := by
  have hrunning : ∀ i, ¬(s.goTo i).unwinding = true := fun _ => ne_true_of_eq_false hu
  refine h.many (fun i a j hstep => ?_) ?_ hn
  · obtain ⟨hat, hread⟩ := hitem i a j hstep
    have haccept : Straight r scope (s.goTo i) (accept separator) true (i + 1) :=
      .accept_yes rfl hat hk
    exact .look looks_isUnwinding (.ite_neg (hrunning i)
      (.bind haccept (.ite_pos rfl (.bind hread (.pure _ rfl)))))
  · exact .look looks_isUnwinding (.ite_neg (hrunning j)
      (.bind (.accept_no hend) (.ite_neg nofun (.pure _ rfl))))

end Row

/-- What parts in a row make when the first token of them has this index. -/
def placeAll {φ : Type} (tokens : φ → List Token) (tree : φ → Nat → α) : List φ → Nat → List α
  | [], _ => []
  | p :: ps, i => tree p i :: placeAll tokens tree ps (i + (tokens p).length)

section Parts

variable {φ : Type} {tokens : φ → List Token} {tree : φ → Nat → α} {ps : List φ} {i : Nat}

theorem length_placeAll : ∀ (ps : List φ) (i : Nat), (∀ p ∈ ps, tokens p ≠ []) →
    (placeAll tokens tree ps i).length ≤ (ps.flatMap tokens).length
  | [], _, _ => Nat.le_refl _
  | p :: ps, i, h => by
    have hp : 0 < (tokens p).length := List.length_pos_iff.mpr (h p List.mem_cons_self)
    have hps := length_placeAll ps (i + (tokens p).length)
      fun q hq => h q (List.mem_cons_of_mem _ hq)
    rw [placeAll, List.flatMap_cons, List.length_append, List.length_cons]
    omega

theorem length_le_flatMap {p : φ} (h : p ∈ ps) :
    (tokens p).length ≤ (ps.flatMap tokens).length := by
  rw [List.flatMap_def]
  exact (List.sublist_flatten_of_mem (List.mem_map_of_mem h)).length_le

/-- Parts in a row are read one after another if each of them is, where what follows it ends it. -/
theorem Row.parts {b : Buffer} {step : Nat → α → Nat → Prop} (ends : Kind → Prop)
    (hfirst : ∀ p ∈ ps, ∃ t ts, tokens p = t :: ts ∧ ends t.kind)
    (hstep : ∀ p ∈ ps, ∀ i, b.Shows i (tokens p) → ends (b.get (i + (tokens p).length)).kind →
      step i (tree p i) (i + (tokens p).length))
    (hs : b.Shows i (ps.flatMap tokens))
    (hend : ends (b.get (i + (ps.flatMap tokens).length)).kind) :
    Row step i (placeAll tokens tree ps i) (i + (ps.flatMap tokens).length) := by
  induction ps generalizing i with
  | nil => exact .nil i
  | cons p ps ih =>
    rw [List.flatMap_cons] at hs
    obtain ⟨hp, hps⟩ := Buffer.Shows.append.mp hs
    have hj : i + ((p :: ps).flatMap tokens).length =
        i + (tokens p).length + (ps.flatMap tokens).length := by
      rw [List.flatMap_cons, List.length_append, Nat.add_assoc]
    rw [hj] at hend ⊢
    have htail := ih (fun q hq => hfirst q (List.mem_cons_of_mem _ hq))
      (fun q hq => hstep q (List.mem_cons_of_mem _ hq)) hps hend
    have hnext : ends (b.get (i + (tokens p).length)).kind := by
      cases ps with
      | nil => exact hend
      | cons q ps =>
        obtain ⟨t, ts, hts, hk⟩ := hfirst q (List.mem_cons_of_mem _ List.mem_cons_self)
        rw [List.flatMap_cons, hts] at hps
        rw [Buffer.Shows.get hps.1]
        exact hk
    exact .cons (hstep p List.mem_cons_self i hp hnext) htail

end Parts

/-! ## Climbing -/

/-- A round of a climb. -/
def climbRound {c : Category} (rule : OperatorRule c) (power : Nat) (m : Mark) (left : Tree c) :
    Parse (Turn (Tree c) (Tree c)) := do
  if ← isUnwinding then return .stop left
  match ← rule.operator? with
  | none => return .stop left
  | some op =>
    if op.power < power then return .stop left
    return .again (← rule.apply m left op)

section Rounds

variable {c : Category} {rule : OperatorRule c} {found : Scope → State → Option Operator}
  {power : Nat} {m : Mark} {left t : Tree c} {op : Operator} {r : Recursion} {scope : Scope}
  {s : State} {j : Nat}

/-- Whatever operator stands here, it binds less tightly than asked. -/
def Operator.Stops (found : Option Operator) (power : Nat) : Prop :=
  ∀ op, found = some op → op.power < power

/-- A climb ends before an operator that binds less tightly than asked. -/
theorem climbRound_stop (hf : Looks rule.operator? found) (hu : s.unwinding = false)
    (hs : Operator.Stops (found scope s) power) :
    Straight r scope s (climbRound rule power m left) (.stop left) s.position := by
  refine .look looks_isUnwinding (.ite_neg (ne_true_of_eq_false hu) (.look hf ?_))
  cases ho : found scope s with
  | none => exact .pure _ rfl
  | some op => exact .ite_pos (hs op ho) (.pure _ rfl)

/-- A climb goes on with an operator that binds at least as tightly as asked. -/
theorem climbRound_again (hf : Looks rule.operator? found) (hu : s.unwinding = false)
    (ho : found scope s = some op) (hp : power ≤ op.power)
    (ha : Straight r scope s (rule.apply m left op) t j) :
    Straight r scope s (climbRound rule power m left) (.again t) j := by
  refine .look looks_isUnwinding (.ite_neg (ne_true_of_eq_false hu) (.look hf ?_))
  rw [ho]
  exact .ite_neg (Nat.not_lt.mpr hp) (.bind ha (.pure _ rfl))

/-- A climb reaches, after `k` operators, a round in which `t` is its left operand and the token at
index `j` is next. -/
def ClimbsTo (rule : OperatorRule c) (power : Nat) (r : Recursion) (scope : Scope) (s : State)
    (k : Nat) (t : Tree c) (j : Nat) : Prop :=
  ∀ n, (rule.primary >>= rounds (climbRound rule power s.mark) (k + n)) r scope s =
    rounds (climbRound rule power s.mark) n t r scope (s.goTo j)

namespace ClimbsTo

variable {k : Nat}

theorem primary (h : Straight r scope s rule.primary t j) : ClimbsTo rule power r scope s 0 t j := by
  intro n
  change Parse.bind _ _ r scope s = _
  rw [Parse.bind, h, Nat.zero_add]

theorem again {i : Nat} (h : ClimbsTo rule power r scope s k left i)
    (hf : Looks rule.operator? found) (hu : s.unwinding = false)
    (ho : found scope (s.goTo i) = some op) (hp : power ≤ op.power)
    (ha : Straight r scope (s.goTo i) (rule.apply s.mark left op) t j) :
    ClimbsTo rule power r scope s (k + 1) t j := by
  intro n
  have hr : Straight r scope (s.goTo i) (climbRound rule power s.mark left) (.again t) j :=
    climbRound_again hf hu ho hp ha
  rw [Nat.add_assoc, Nat.add_comm 1, h (n + 1)]
  change Parse.bind _ _ r scope (s.goTo i) = _
  rw [Parse.bind, hr]
  rfl

theorem done (h : ClimbsTo rule power r scope s k t j) (hk : k < r.steps)
    (hf : Looks rule.operator? found) (hu : s.unwinding = false)
    (hs : Operator.Stops (found scope (s.goTo j)) power) :
    Straight r scope s (climb rule power) t j := by
  obtain ⟨n, hn⟩ := Nat.exists_eq_add_of_lt hk
  have hr : Straight r scope (s.goTo j) (climbRound rule power s.mark t) (.stop t) j :=
    climbRound_stop hf hu hs
  have hl : Straight r scope (s.goTo j) (rounds (climbRound rule power s.mark) (n + 1) t) t j :=
    .bind hr (.pure _ rfl)
  have hc : (rule.primary >>= rounds (climbRound rule power s.mark) r.steps) r scope s =
      some (t, s.goTo j) := by
    rw [hn, Nat.add_assoc, h (n + 1)]
    exact hl
  exact .look looks_mark hc

end ClimbsTo

end Rounds

end BallerinaSyntax
