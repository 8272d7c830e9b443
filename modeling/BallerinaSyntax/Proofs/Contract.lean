import BallerinaSyntax.Proofs.Placement

/-!
The contract of productions. A production reads what its result holds: run behind a mark, it leaves
exactly the parts of its result since that mark. The rules below follow the way productions are put
together; a production that needs a token to be there is run under a condition.
-/

namespace BallerinaSyntax

/-- The last token, and with it every buffer, is the end of the file. -/
def Buffer.Ends (b : Buffer) : Prop := (b.get (b.size - 1)).isEndOfFile = true

/-- The kind of the token `ahead` of the current one. -/
def Scope.kindAt (scope : Scope) (s : State) (ahead : Nat) : Kind :=
  (scope.buffer.get (s.position + ahead)).kind

variable {α β γ : Type}

/-- The parts of a result, side by side. -/
def pieces [HasParts α] (a : α) : List (Part × Parts) := (parts a).trees

instance : HasParts Unit := ⟨fun _ => .nil⟩

instance : HasParts Bool := ⟨fun _ => .nil⟩

instance : HasParts Nat := ⟨fun _ => .nil⟩

instance [HasParts β] [HasParts γ] : HasParts (Parse.Turn β γ) where
  parts
    | .again b => parts b
    | .stop c => parts c

instance [HasParts α] [HasParts β] : HasParts (α × β) := ⟨fun x => parts x.1 ++ parts x.2⟩

@[simp] theorem pieces_unit (u : Unit) : pieces u = [] := rfl

@[simp] theorem pieces_bool (x : Bool) : pieces x = [] := rfl

@[simp] theorem pieces_nat (n : Nat) : pieces n = [] := rfl

@[simp] theorem pieces_none [HasParts α] : pieces (none : Option α) = [] := rfl

@[simp] theorem pieces_some [HasParts α] (a : α) : pieces (some a) = pieces a := rfl

@[simp] theorem pieces_nil [HasParts α] : pieces ([] : List α) = [] := rfl

@[simp] theorem pieces_empty [HasParts α] : pieces (#[] : Array α) = [] := rfl

@[simp] theorem pieces_cons [HasParts α] (a : α) (as : List α) :
    pieces (a :: as) = pieces a ++ pieces as := Forest.trees_append ..

@[simp] theorem pieces_append [HasParts α] (as bs : List α) :
    pieces (as ++ bs) = pieces as ++ pieces bs := by
  induction as with
  | nil => rfl
  | cons a as ih => simp [ih]

@[simp] theorem pieces_push [HasParts α] (as : Array α) (a : α) :
    pieces (as.push a) = pieces as ++ pieces a := by
  change pieces (as.push a).toList = pieces as.toList ++ pieces a
  simp

@[simp] theorem pieces_toList [HasParts α] (as : Array α) : pieces as.toList = pieces as := rfl

@[simp] theorem pieces_again [HasParts β] [HasParts γ] (b : β) :
    pieces (.again b : Parse.Turn β γ) = pieces b := rfl

@[simp] theorem pieces_stop [HasParts β] [HasParts γ] (c : γ) :
    pieces (.stop c : Parse.Turn β γ) = pieces c := rfl

@[simp] theorem pieces_prod [HasParts α] [HasParts β] (x : α × β) :
    pieces x = pieces x.1 ++ pieces x.2 := Forest.trees_append ..

@[simp] theorem trees_parts [HasParts α] (a : α) : (parts a).trees = pieces a := rfl

@[simp] theorem trees_parts_tree {c : Category} (t : Tree c) : t.parts.trees = pieces t := rfl

@[simp] theorem pieces_ofList {c : Category} (ts : List (Tree c)) :
    pieces (Tree.ofList ts) = pieces ts := by
  induction ts with
  | nil => rfl
  | cons t ts ih =>
    change (t.parts ++ (Tree.ofList ts).parts).trees = _
    simp [ih]

@[simp] theorem pieces_ofOption {c : Category} (t : Option (Tree c)) :
    pieces (Tree.ofOption t) = pieces t := by
  cases t <;> rfl

@[simp] theorem pieces_toOption {c : Category} (t : Tree (.option c)) :
    pieces t.toOption = pieces t := by
  cases t <;> rfl

attribute [simp] List.Subperm.refl List.nil_subperm List.subperm_append_left

@[simp] theorem subperm_append_self (xs ys : List (Part × Parts)) : xs.Subperm (xs ++ ys) :=
  (List.sublist_append_left ..).subperm

@[simp] theorem subperm_self_append (xs ys : List (Part × Parts)) : ys.Subperm (xs ++ ys) :=
  (List.sublist_append_right ..).subperm

/-- What is read last may stand further to the front. -/
theorem subperm_insert (xs ys new : List (Part × Parts)) :
    (xs ++ (new ++ ys)).Subperm (xs ++ ys ++ new) := by
  simpa only [List.append_assoc] using (List.perm_append_comm.append_left xs).subperm

/-- What a run behind a mark, with some parts read since, has read when it is done. -/
def Contract [HasParts α] (scope : Scope) (m : Mark) (read : List (Part × Parts))
    (P : State → Prop) (run : State → Option (α × State)) : Prop :=
  ∀ ⦃s a t⦄, Since scope.buffer m read s → P s → run s = some (a, t) →
    Since scope.buffer m (pieces a) t

/-- A recursion whose goals keep the contract, and in which every name is its text. -/
structure Recursion.Sound (r : Recursion) : Prop where
  call : ∀ ⦃c : Category⦄ (goal : Goal c) (scope : Scope) (m : Mark), scope.buffer.Ends →
    Contract scope m [] (fun _ => True) (r.call goal scope)
  symbol : r.symbol = .text

/-- What holds where a production is run. -/
abbrev Condition := Scope → State → Prop

namespace Condition

def any : Condition := fun _ _ => True

/-- The current token is not the end of the file. -/
def solid : Condition := fun scope s => scope.kindAt s 0 ≠ .endOfFileToken

/-- The current token may be a name. -/
def named : Condition := fun scope s => Operator.isName true (scope.kindAt s 0) = true

/-- An error was counted since the mark. -/
def erred (m : Mark) : Condition := fun _ s => m.errors < s.errorCount

/-- One token further than where `P` held. -/
def next (P : Condition) : Condition := fun scope t => ∃ s, P scope s ∧ t.position = s.position + 1

/-- What was read behind `m` up to a later mark `n`, and what was read behind that one. -/
def behind (m : Mark) (read : List (Part × Parts)) (n : Mark) (more : List (Part × Parts)) :
    Condition :=
  fun scope s => Since scope.buffer n more s ∧
    ∃ t, Since scope.buffer m read t ∧ n = ⟨t.position, t.errorCount⟩

end Condition

open Condition (any solid named erred behind)

/-- Run behind the mark `m`, with `read` read since and where `P` holds, a production keeps the
contract. -/
def Builds [HasParts α] (m : Mark) (read : List (Part × Parts)) (P : Condition) (p : Parse α) :
    Prop :=
  ∀ ⦃r scope⦄, r.Sound → scope.buffer.Ends → Contract scope m read (P scope) (p r scope)

/-- A production that keeps the contract wherever it is run. -/
def Reads [HasParts α] (p : Parse α) : Prop := ∀ P m, Builds m [] P p

/-- A production that gives `f` of its place and changes nothing. -/
def Looks (p : Parse α) (f : Scope → State → α) : Prop :=
  ∀ r scope s, p r scope s = some (f scope s, s)

/-- A production that counts an error. -/
def Complains (p : Parse α) : Prop :=
  ∀ r scope s a t, p r scope s = some (a, t) → s.errorCount < t.errorCount

namespace Parse

theorem bind_eq_some {p : Parse α} {f : α → Parse β} {r scope s b u} :
    (p >>= f) r scope s = some (b, u) ↔
      ∃ a t, p r scope s = some (a, t) ∧ f a r scope t = some (b, u) := by
  change Parse.bind p f r scope s = _ ↔ _
  unfold Parse.bind
  cases h : p r scope s with
  | none => simp
  | some x => obtain ⟨a, t⟩ := x; simp

theorem pure_eq_some {a b : α} {r : Recursion} {scope : Scope} {s t : State} :
    (pure a : Parse α) r scope s = some (b, t) ↔ a = b ∧ s = t := by
  change some (a, s) = some (b, t) ↔ _
  simp

theorem bind_assoc (p : Parse α) (f : α → Parse β) (g : β → Parse γ) :
    p >>= f >>= g = p >>= fun a => f a >>= g := by
  funext r scope s
  change Parse.bind (Parse.bind p f) g r scope s = Parse.bind p (fun a => Parse.bind (f a) g) r scope s
  unfold Parse.bind
  cases p r scope s <;> rfl

theorem pure_bind (a : α) (f : α → Parse β) : pure a >>= f = f a := rfl

end Parse

open Parse (bind_eq_some pure_eq_some)

/-- What follows a look is run where the look was. -/
theorem Looks.bind_eq {p : Parse α} {f : Scope → State → α} (hp : Looks p f) (k : α → Parse β)
    (r : Recursion) (scope : Scope) (s : State) :
    (p >>= k) r scope s = k (f scope s) r scope s := by
  change Parse.bind p k r scope s = _
  rw [Parse.bind, hp]

section Rules

variable [HasParts α] [HasParts β] [HasParts γ] {m : Mark} {read : List (Part × Parts)}
  {P Q : Condition}

namespace Builds

theorem weaken {p : Parse α} (h : Builds m read Q p) (hPQ : ∀ scope s, P scope s → Q scope s) :
    Builds m read P p :=
  fun _ scope hr hb s _ _ hs hP he => h hr hb hs (hPQ scope s hP) he

/-- It is enough to have read more. -/
theorem drop {p : Parse α} {less : List (Part × Parts)} (h : Builds m less P p)
    (hs : less.Subperm read) : Builds m read P p :=
  fun _ _ hr hb _ _ _ hm hP he => h hr hb (hm.drop hs) hP he

/-- What reads on anywhere, and from less. -/
theorem onward {p : Parse α} {less : List (Part × Parts)} (h : Builds m less any p)
    (hs : less.Subperm read) : Builds m read P p :=
  (h.drop hs).weaken fun _ _ _ => trivial

theorem done {a : α} (h : (pieces a).Subperm read) : Builds m read P (pure a : Parse α) := by
  intro r scope _ _ s b t hs _ he
  obtain ⟨rfl, rfl⟩ := pure_eq_some.mp he
  exact hs.drop h

/-- A production that reads on from what was read before. What it leaves behind may matter to what
follows. -/
theorem andThenAt {p : Parse α} {k : α → Parse β} {R : α → Condition} (hp : Builds m read P p)
    (hR : ∀ ⦃r scope s a t⦄, P scope s → p r scope s = some (a, t) → R a scope t)
    (hk : ∀ a, Builds m (pieces a) (R a) (k a)) : Builds m read P (p >>= k) := by
  intro r scope hr hb s b u hs hP he
  obtain ⟨a, t, ha, hb'⟩ := bind_eq_some.mp he
  exact hk a hr hb (hp hr hb hs hP ha) (hR hP ha) hb'

theorem andThen {p : Parse α} {k : α → Parse β} (hp : Builds m read P p)
    (hk : ∀ a, Builds m (pieces a) any (k a)) : Builds m read P (p >>= k) :=
  andThenAt hp (fun _ _ _ _ _ _ _ => trivial) hk

/-- A production that is run under a condition reads on its own, behind what was read before. What
it leaves behind may matter to what follows. -/
theorem bindThen {p : Parse α} {k : α → Parse β} {R : α → Condition} (hp : ∀ n, Builds n [] P p)
    (hR : ∀ ⦃r scope s a t⦄, P scope s → p r scope s = some (a, t) → R a scope t)
    (hk : ∀ a, Builds m (read ++ pieces a) (R a) (k a)) : Builds m read P (p >>= k) := by
  intro r scope hr hb s b u hs hP he
  obtain ⟨a, t, ha, hb'⟩ := bind_eq_some.mp he
  have hn := hp ⟨s.position, s.errorCount⟩ hr hb (Since.refl hs.inside hs.consistent) hP ha
  exact hk a hr hb (hs.trans hn) (hR hP ha) hb'

theorem bindAt {p : Parse α} {k : α → Parse β} (hp : ∀ n, Builds n [] P p)
    (hk : ∀ a, Builds m (read ++ pieces a) any (k a)) : Builds m read P (p >>= k) :=
  bindThen hp (fun _ _ _ _ _ _ _ => trivial) hk

theorem bind {p : Parse α} {k : α → Parse β} (hp : Reads p)
    (hk : ∀ a, Builds m (read ++ pieces a) any (k a)) : Builds m read P (p >>= k) :=
  bindAt (hp P) hk

/-- What is read and not kept. -/
theorem skip {p : Parse α} {k : α → Parse β} (hp : Reads p)
    (hk : ∀ a, Builds m read any (k a)) : Builds m read P (p >>= k) :=
  bind hp fun a => (hk a).drop (List.sublist_append_left ..).subperm

omit [HasParts α] in
theorem give {a : α} {k : α → Parse β} (hk : Builds m read P (k a)) :
    Builds m read P (pure a >>= k) := hk

omit [HasParts α] in
theorem look {p : Parse α} {f : Scope → State → α} {k : α → Parse β} (hp : Looks p f)
    (hk : ∀ a, Builds m read (fun scope s => P scope s ∧ f scope s = a) (k a)) :
    Builds m read P (p >>= k) := by
  intro r scope hr hb s b u hs hP he
  obtain ⟨a, t, ha, hb'⟩ := bind_eq_some.mp he
  rw [hp r scope s] at ha
  cases ha
  exact hk _ hr hb hs ⟨hP, rfl⟩ hb'

theorem ite {c : Prop} [Decidable c] {p q : Parse α} (hp : c → Builds m read P p)
    (hq : ¬c → Builds m read P q) : Builds m read P (if c then p else q) := by
  split
  · exact hp ‹_›
  · exact hq ‹_›

/-- A mark that is set on the way: what follows reads behind it. -/
theorem mark {k : Mark → Parse β} (hk : ∀ n, Builds n [] P (k n)) :
    Builds m read P (Parse.mark >>= k) := by
  intro r scope hr hb s b u hs hP he
  have hn := hk _ hr hb (Since.refl hs.inside hs.consistent) hP he
  exact (hs.trans hn).drop (List.sublist_append_right ..).subperm

/-- A mark that is set on the way, where what was read before it is not done with. -/
theorem inner {k : Mark → Parse β} (hk : ∀ n, Builds m read (behind m read n []) (k n)) :
    Builds m read P (Parse.mark >>= k) := by
  intro r scope hr hb s b u hs _ he
  exact hk _ hr hb hs ⟨Since.refl hs.inside hs.consistent, s, hs, rfl⟩ he

/-- What is read behind a later mark. -/
theorem innerThen {n : Mark} {more : List (Part × Parts)} {p : Parse α} {k : α → Parse β}
    (hP : ∀ scope s, P scope s → behind m read n more scope s) (hp : Builds n more P p)
    (hk : ∀ a, Builds m read (behind m read n (pieces a)) (k a)) : Builds m read P (p >>= k) := by
  intro r scope hr hb s b u _ hs he
  obtain ⟨a, t, ha, hb'⟩ := bind_eq_some.mp he
  obtain ⟨hn, s₀, hm, rfl⟩ := hP scope s hs
  have ht := hp hr hb hn hs ha
  exact hk a hr hb ((hm.trans ht).drop (List.sublist_append_left ..).subperm) ⟨ht, s₀, hm, rfl⟩ hb'

/-- What is read on its own behind a later mark. -/
theorem innerBind {n : Mark} {more : List (Part × Parts)} {p : Parse α} {k : α → Parse β}
    (hP : ∀ scope s, P scope s → behind m read n more scope s) (hp : Reads p)
    (hk : ∀ a, Builds m read (behind m read n (more ++ pieces a)) (k a)) :
    Builds m read P (p >>= k) := by
  intro r scope hr hb s b u _ hs he
  obtain ⟨a, t, ha, hb'⟩ := bind_eq_some.mp he
  obtain ⟨hn, s₀, hm, rfl⟩ := hP scope s hs
  have ht := hn.trans (hp P _ hr hb (Since.refl hn.inside hn.consistent) hs ha)
  exact hk a hr hb ((hm.trans ht).drop (List.sublist_append_left ..).subperm) ⟨ht, s₀, hm, rfl⟩ hb'

/-- What is read behind a later mark and not kept. -/
theorem innerSkip {n : Mark} {more : List (Part × Parts)} {p : Parse α} {k : α → Parse β}
    (hP : ∀ scope s, P scope s → behind m read n more scope s) (hp : Reads p)
    (hk : ∀ a, Builds m read (behind m read n more) (k a)) : Builds m read P (p >>= k) :=
  innerBind hP hp fun a => (hk a).weaken fun _ _ h => ⟨h.1.drop (subperm_append_self ..), h.2⟩

/-- What was read behind a later mark comes after what was read before it. -/
theorem leave {n : Mark} {more : List (Part × Parts)} {p : Parse α}
    (hP : ∀ scope s, P scope s → behind m read n more scope s) (hp : Builds m (read ++ more) P p) :
    Builds m read P p := by
  intro r scope hr hb s a t _ hs he
  obtain ⟨hn, s₀, hm, rfl⟩ := hP scope s hs
  exact hp hr hb (hm.trans hn) hs he

/-- What runs behind an error, nothing of which is kept. -/
theorem complain {p : Parse α} {k : α → Parse β} (hp : Reads p) (hc : Complains p)
    (hk : ∀ a, Builds m read (erred m) (k a)) : Builds m read P (p >>= k) := by
  intro r scope hr hb s b u hs hP he
  obtain ⟨a, t, ha, hb'⟩ := bind_eq_some.mp he
  have hn := hp any _ hr hb (Since.refl hs.inside hs.consistent) trivial ha
  have ht := (hs.trans hn).drop (List.sublist_append_left ..).subperm
  exact hk a hr hb ht (Nat.lt_of_le_of_lt hs.errors (hc _ _ _ _ _ ha)) hb'

/-- What is skipped behind an error takes none back. -/
theorem skipBehind {p : Parse α} {k : α → Parse β} (hp : Reads p)
    (hk : ∀ a, Builds m read (erred m) (k a)) : Builds m read (erred m) (p >>= k) := by
  intro r scope hr hb s b u hs hP he
  obtain ⟨a, t, ha, hb'⟩ := bind_eq_some.mp he
  have hn := hp any _ hr hb (Since.refl hs.inside hs.consistent) trivial ha
  have ht := (hs.trans hn).drop (List.sublist_append_left ..).subperm
  exact hk a hr hb ht (Nat.lt_of_lt_of_le hP hn.errors) hb'

theorem rounds {turn : β → Parse (Parse.Turn β γ)} (h : ∀ b, Builds m (pieces b) any (turn b)) :
    ∀ n b, Builds m (pieces b) any (Parse.rounds turn n b)
  | 0, _ => fun _ _ _ _ _ _ _ _ _ he => by cases he
  | n + 1, b => by
    refine andThen (h b) fun x => ?_
    cases x with
    | again b => exact rounds h n b
    | stop c => exact done (.refl _)

/-- A loop keeps the contract if each round does, whatever was read before it. -/
theorem loop {turn : β → Parse (Parse.Turn β γ)} {b : β}
    (h : ∀ b, Builds m (pieces b) any (turn b)) (hb : (pieces b).Subperm read) :
    Builds m read P (Parse.loop turn b) :=
  fun r _ hr he _ _ _ hs _ ht => rounds h r.steps b hr he (hs.drop hb) trivial ht

end Builds

namespace Reads

theorem of {p : Parse α} (h : ∀ m, Builds m [] any p) : Reads p :=
  fun _ m => (h m).weaken fun _ _ _ => trivial

/-- A production that sets a mark first. -/
theorem marked {k : Mark → Parse α} (h : ∀ m, Builds m [] any (k m)) : Reads (Parse.mark >>= k) :=
  .of fun _ => .mark h

theorem nothing {a : α} (h : pieces a = []) : Reads (pure a : Parse α) :=
  fun _ _ => .done (by simp [h])

theorem ite {c : Prop} [Decidable c] {p q : Parse α} (hp : Reads p) (hq : Reads q) :
    Reads (if c then p else q) :=
  fun P m => .ite (fun _ => hp P m) fun _ => hq P m

theorem within {f : Scope → Scope} {p : Parse α} (hf : ∀ scope, (f scope).buffer = scope.buffer)
    (hp : Reads p) : Reads (Parse.within f p) := by
  intro P m r scope hr hb s a t hs _ he
  have := @hp any m r (f scope) hr (by rwa [hf]) s a t (by rwa [hf]) trivial he
  rwa [hf] at this

theorem many {item : Parse (Option α)} (h : Reads item) : Reads (Parse.many item) := by
  refine .of fun m => .andThen (.loop (fun items => ?_) ?_) fun items => .done ?_
  · refine .bind h fun a => ?_
    cases a with
    | some a => exact .done (by simp)
    | none => exact .done (by simp)
  · exact List.nil_subperm
  · exact .refl _

theorem call {c : Category} (goal : Goal c) : Reads (Parse.call goal) :=
  fun _ m _ scope hr hb _ _ _ hs _ he => hr.call goal scope m hb hs trivial he

theorem look {p : Parse α} {f : Scope → State → α} (h : Looks p f) (hf : ∀ a : α, pieces a = []) :
    Reads p := by
  intro P m r scope _ _ s a t hs _ he
  rw [h r scope s] at he
  cases he
  rwa [hf]

end Reads

end Rules

end BallerinaSyntax
