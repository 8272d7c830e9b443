import BallerinaSyntax.Proofs.Recovery
import BallerinaSyntax.Relabel

/-!
Two runs of one production over two units that look alike. Kinds of tokens steer a production,
and the one thing about their places that does is whether a name, a colon and a name touch. So
what a run over one unit reads, a run over the other one reads too, at the places that correspond.
The second run may have more steps, may begin elsewhere and behind other errors, and may have other
symbols for the names.
-/

namespace BallerinaSyntax

open Parse

variable {α β γ : Type}

/-- Whether a name with a package stands at an index. -/
def Buffer.qualified (b : Buffer) (index : Nat) : Bool :=
  (b.get index).kind == .identifier && (b.get (index + 1)).kind == .colonToken &&
    (b.get (index + 2)).kind == .identifier &&
    (b.get index).range.stop == (b.get (index + 1)).range.start &&
    (b.get (index + 1)).range.stop == (b.get (index + 2)).range.start

/-- What a diagnostic tells apart from its words and its place. -/
def Diagnostic.outline (d : Diagnostic) : Nat × Severity × Nat :=
  (d.code, d.severity, d.related.length)

/-- A diagnostic of this severity that has a place. -/
structure Diagnostic.Placed (severity : Severity) (d : Diagnostic) : Prop where
  severity : d.severity = severity
  span : d.span.isSome = true

/-- Two diagnostics of one outline; they are the same where words and places count. -/
structure Diagnostic.Alike (verbatim : Bool) (d e : Diagnostic) : Prop where
  outline : d.outline = e.outline
  same : verbatim = true → d = e

/-- Two units, the tokens of the second one from `shift` on looking like those of the first from
`start` on. -/
structure Likeness where
  first : Scope
  second : Scope
  start : Nat := 0
  shift : Nat := 0
  /-- The errors counted in the second unit before its tokens look like those of the first. -/
  errors : Nat := 0
  /-- The tokens are the same ones; else only their kinds are. -/
  verbatim : Bool
  /-- How the names of both units are compared. -/
  rename : Symbol → Symbol := id
  rename' : Symbol → Symbol := id
  nesting : second.options.maxNestingDepth = first.options.maxNestingDepth
  names : second.options.allowAnyIdentifierNames = first.options.allowAnyIdentifierNames
  size : second.buffer.size + start = first.buffer.size + shift
  kinds : ∀ i, (second.buffer.get (i + shift)).kind = (first.buffer.get (i + start)).kind
  qualified : ∀ i, second.buffer.qualified (i + shift) = first.buffer.qualified (i + start)
  /-- Byte ranges count only if nothing in the first unit is left out: a node may begin anywhere. -/
  same : verbatim = true → start = 0 ∧
    second.file = first.file ∧ ∀ i, second.buffer.get (i + shift) = first.buffer.get i
  /-- How the diagnostics compare when so many errors are counted in the first unit. -/
  recorded : Nat → Diagnostics → Diagnostics → Prop
  count : ∀ n ds es, recorded n ds es → recorded (n + 1) ds es
  /-- Nothing but errors that have places is recorded. -/
  record : ∀ n ds es d e, recorded n ds es → d.Placed .error → d.Alike verbatim e →
    recorded (n + 1) (ds.record first.file first.options.maxDiagnostics d)
      (es.record second.file second.options.maxDiagnostics e)

namespace Likeness

variable (L : Likeness)

/-- How results in the first unit read in the second one. -/
def moved : Relabelling := ⟨L.shift, L.errors, L.verbatim, L.rename⟩

/-- How results in the second unit read, so that they can be compared with those. -/
def stayed : Relabelling := ⟨L.start, 0, L.verbatim, L.rename'⟩

/-- Two results are alike. -/
abbrev Alike [Relabels α] (a b : α) : Prop := relabel L.moved a = relabel L.stayed b

/-- Two indices that correspond. -/
def Opposite (i j : Nat) : Prop := i + L.shift = j + L.start

/-- The states of two runs at places that correspond. -/
structure States (s t : State) : Prop where
  position : L.Opposite s.position t.position
  inside : L.start ≤ s.position
  errorCount : t.errorCount = s.errorCount + L.errors
  unwinding : t.unwinding = s.unwinding
  depthReported : t.depthReported = s.depthReported
  lastErrorAt : ∀ i j, L.Opposite i j → (t.lastErrorAt = some j ↔ s.lastErrorAt = some i)
  recorded : L.recorded s.errorCount s.diagnostics t.diagnostics

/-- The scope of the first run inside some constructs. -/
def firstIn (recovery : List (List Kind)) (depth : Nat) : Scope :=
  { L.first with recovery := recovery, depth := depth }

/-- The scope of the second run inside some constructs. -/
def secondIn (recovery : List (List Kind)) (depth : Nat) : Scope :=
  { L.second with recovery := recovery, depth := depth }

/-- Where the first run has a result, the second one has a result that is alike. -/
def Agree [Relabels α] (run other : Scope → State → Option (α × State)) : Prop :=
  ∀ recovery depth ⦃s t⦄, L.States s t → ∀ ⦃a s'⦄, run (L.firstIn recovery depth) s = some (a, s') →
    ∃ b t', other (L.secondIn recovery depth) t = some (b, t') ∧ L.Alike a b ∧ L.States s' t'

/-- Texts that correspond become names that are alike. -/
def Names (symbol symbol' : String → Symbol) : Prop :=
  ∀ text text', (L.verbatim = true → text = text') → L.Alike (symbol text) (symbol' text')

/-- The second recursion reads what the first one does, in no fewer steps. -/
structure Recursions (r r' : Recursion) : Prop where
  steps : r.steps ≤ r'.steps
  call : ∀ {c : Category} (goal : Goal c), L.Agree (r.call goal) (r'.call goal)
  symbol : L.Names r.symbol r'.symbol

end Likeness

/-- The second production reads what the first one does. -/
def Follows [Relabels α] (L : Likeness) (p q : Parse α) : Prop :=
  ∀ ⦃r r'⦄, L.Recursions r r' → L.Agree (p r) (q r')

/-- Two results that are alike. -/
structure Twins (L : Likeness) (α : Type) [Relabels α] where
  first : α
  second : α
  alike : L.Alike first second

/-- A production that gives the same in both units and changes nothing. -/
def Sees (L : Likeness) (p : Parse α) : Prop :=
  ∀ r r' recovery depth ⦃s t⦄, L.States s t → ∃ a,
    p r (L.firstIn recovery depth) s = some (a, s) ∧ p r' (L.secondIn recovery depth) t = some (a, t)

section Rules

variable [Relabels α] [Relabels β] {L : Likeness}

/-! ## Results that are alike -/

namespace Likeness

theorem alike_plain [Plain γ] (a : γ) : L.Alike a a :=
  (Plain.relabel_eq _ a).trans (Plain.relabel_eq _ a).symm

theorem Alike.eq [Plain γ] {a b : γ} (h : L.Alike a b) : a = b := by
  rwa [Alike, Plain.relabel_eq, Plain.relabel_eq] at h

/-- Ranges are alike if they are the same where they count. -/
theorem alike_range {x y : ByteRange} (h : L.verbatim = true → x = y) : L.Alike x y := by
  change (if L.verbatim then x else .empty 0) = if L.verbatim then y else .empty 0
  split
  · exact h ‹_›
  · rfl

theorem alike_empty : L.Alike (#[] : Array α) #[] := relabel_empty.trans relabel_empty.symm

/-- Names of the same texts, compared in the same way. -/
theorem names_same (hv : L.verbatim = true) (h : L.rename = L.rename') (symbol : String → Symbol) :
    L.Names symbol symbol := by
  intro text text' ht
  obtain rfl := ht hv
  exact congrFun h (symbol text)

/-- Names that are left out of the comparison. -/
theorem names_hidden (h : ∀ x y, L.rename x = L.rename' y) (symbol symbol' : String → Symbol) :
    L.Names symbol symbol' :=
  fun text text' _ => h (symbol text) (symbol' text')

end Likeness

namespace Twins

variable {c : Category}

protected def none : Twins L (Option α) := ⟨none, none, rfl⟩

protected def some (x : Twins L α) : Twins L (Option α) :=
  ⟨some x.first, some x.second, congr(some $(x.alike))⟩

def cons (x : Twins L α) (xs : Twins L (List α)) : Twins L (List α) :=
  ⟨x.first :: xs.first, x.second :: xs.second, congr($(x.alike) :: $(xs.alike))⟩

def append (xs ys : Twins L (List α)) : Twins L (List α) :=
  ⟨xs.first ++ ys.first, xs.second ++ ys.second,
    (relabel_append _ _).trans (congr($(xs.alike) ++ $(ys.alike)).trans (relabel_append _ _).symm)⟩

def push (xs : Twins L (Array α)) (x : Twins L α) : Twins L (Array α) :=
  ⟨xs.first.push x.first, xs.second.push x.second,
    (relabel_push _ _).trans (congr(Array.push $(xs.alike) $(x.alike)).trans (relabel_push _ _).symm)⟩

/-- Values made of results that are alike, in a way that relabelling does not touch. -/
def map (f : α → β) (h : ∀ ρ a, relabel ρ (f a) = f (relabel ρ a)) (x : Twins L α) : Twins L β :=
  ⟨f x.first, f x.second, (h _ _).trans ((congrArg f x.alike).trans (h _ _).symm)⟩

def toList : Twins L (Array α) → Twins L (List α) := map Array.toList fun _ _ => relabel_toList _

def first? : Twins L (Array α) → Twins L (Option α) :=
  map (fun xs => xs[0]?) fun _ _ => by exact relabel_getElem? ..

def ofList : Twins L (List (Tree c)) → Twins L (Tree (.list c)) :=
  map Tree.ofList fun _ _ => relabel_ofList _

def ofOption : Twins L (Option (Tree c)) → Twins L (Tree (.option c)) :=
  map Tree.ofOption fun _ _ => relabel_ofOption _

def toOption : Twins L (Tree (.option c)) → Twins L (Option (Tree c)) :=
  map Tree.toOption fun _ _ => relabel_toOption _

theorem isSome_eq (x : Twins L (Option α)) : x.first.isSome = x.second.isSome := by
  obtain ⟨_ | a, _ | b, h⟩ := x
  · rfl
  · cases h
  · cases h
  · rfl

theorem isNone_eq (x : Twins L (Option α)) : x.first.isNone = x.second.isNone := by
  rw [← Option.not_isSome, ← Option.not_isSome, x.isSome_eq]

theorem isEmpty_eq (xs : Twins L (List α)) : xs.first.isEmpty = xs.second.isEmpty := by
  obtain ⟨_ | ⟨a, as⟩, _ | ⟨b, bs⟩, h⟩ := xs
  · rfl
  · cases h
  · cases h
  · rfl

/-- The halves of two pairs that are alike. -/
@[elab_as_elim]
theorem pair {P : α × β → α × β → Prop} (x : Twins L (α × β))
    (both : ∀ (y : Twins L α) (z : Twins L β), P (y.first, z.first) (y.second, z.second)) :
    P x.first x.second := by
  obtain ⟨⟨a, b⟩, ⟨a', b'⟩, h⟩ := x
  exact both ⟨a, a', congrArg Prod.fst h⟩ ⟨b, b', congrArg Prod.snd h⟩

/-- What relabelling keeps of results is the same in both. -/
theorem keep {δ : Type} {f : α → δ} (x : Twins L α) (h : ∀ ρ (a : α), f (relabel ρ a) = f a) :
    f x.first = f x.second :=
  (h _ _).symm.trans ((congrArg f x.alike).trans (h _ _))

theorem missing_eq (x : Twins L Leaf) : x.first.missing = x.second.missing :=
  x.keep fun _ _ => rfl

theorem kind_eq (x : Twins L Leaf) : x.first.kind = x.second.kind := x.keep fun _ _ => rfl

end Twins

/-- Two optional results that are alike are both absent or both there. -/
@[elab_as_elim]
theorem Likeness.Alike.optional {P : Option α → Option α → Prop} {x y : Option α} (h : L.Alike x y)
    (absent : P none none) (present : ∀ z : Twins L α, P (some z.first) (some z.second)) : P x y := by
  obtain _ | a := x <;> obtain _ | b := y
  · exact absent
  · cases h
  · cases h
  · exact present ⟨a, b, Option.some_inj.mp h⟩

/-! ## Productions one after another -/

namespace Follows

theorem done {a b : α} (h : L.Alike a b) : Follows L (pure a) (pure b) := by
  intro r r' _ _ _ s t hs c s' he
  obtain ⟨rfl, rfl⟩ := pure_eq_some.mp he
  exact ⟨b, t, rfl, h, hs⟩

theorem bind {p q : Parse α} {k l : α → Parse β} (hp : Follows L p q)
    (hk : ∀ x : Twins L α, Follows L (k x.first) (l x.second)) : Follows L (p >>= k) (q >>= l) := by
  intro r r' hr recovery depth s t hs b s'' he
  obtain ⟨a, s', ha, hb⟩ := bind_eq_some.mp he
  obtain ⟨a', t', ha', hx, ht⟩ := hp hr recovery depth hs ha
  obtain ⟨b', t'', hb', hy, hu⟩ := hk ⟨a, a', hx⟩ hr recovery depth ht hb
  exact ⟨b', t'', bind_eq_some.mpr ⟨a', t', ha', hb'⟩, hy, hu⟩

/-- What follows a production whose result is the same in both units. -/
theorem give [Plain γ] {p q : Parse γ} {k l : γ → Parse β} (hp : Follows L p q)
    (hk : ∀ a, Follows L (k a) (l a)) : Follows L (p >>= k) (q >>= l) :=
  .bind hp fun x => x.alike.eq ▸ hk x.first

/-- What follows a look at the input. -/
theorem see {p : Parse γ} {k l : γ → Parse β} (hp : Sees L p) (hk : ∀ a, Follows L (k a) (l a)) :
    Follows L (p >>= k) (p >>= l) := by
  intro r r' hr recovery depth s t hs b s'' he
  obtain ⟨a, hp, hq⟩ := hp r r' recovery depth hs
  obtain ⟨a', s', ha, hb⟩ := bind_eq_some.mp he
  rw [hp] at ha
  cases ha
  obtain ⟨b', t', hb', h⟩ := hk a hr recovery depth hs hb
  exact ⟨b', t', bind_eq_some.mpr ⟨a, t, hq, hb'⟩, h⟩

theorem ite {c : Prop} [Decidable c] {p p' q q' : Parse α} (hp : Follows L p q)
    (hq : Follows L p' q') : Follows L (if c then p else p') (if c then q else q') := by
  split
  · exact hp
  · exact hq

/-- A choice by something that is the same in both units. -/
theorem iteOf {x y : Bool} {p p' q q' : Parse α} (h : x = y) (hp : Follows L p q)
    (hq : Follows L p' q') : Follows L (if x then p else p') (if y then q else q') :=
  h ▸ .ite hp hq

/-- A production that reads a goal. -/
theorem call {c : Category} (goal : Goal c) : Follows L (Parse.call goal) (Parse.call goal) :=
  fun _ _ hr => hr.call goal

/-- The same construct around both productions. -/
theorem withRecovery {sync : List Kind} {p q : Parse α} (hp : Follows L p q) :
    Follows L (Parse.withRecovery sync p) (Parse.withRecovery sync q) :=
  fun _ _ hr recovery depth _ _ hs _ _ he => hp hr (sync :: recovery) depth hs he

/-! ## Loops -/

theorem rounds {turn turn' : α → Parse (Turn α β)}
    (h : ∀ x : Twins L α, Follows L (turn x.first) (turn' x.second)) :
    ∀ {n n'}, n ≤ n' → ∀ x : Twins L α,
      Follows L (Parse.rounds turn n x.first) (Parse.rounds turn' n' x.second)
  | 0, _, _, _ => fun _ _ _ _ _ _ _ _ _ _ he => by cases he
  | n + 1, 0, hn, _ => absurd hn (by omega)
  | n + 1, n' + 1, hn, x => by
    refine .bind (h x) fun y => ?_
    obtain ⟨a | b, a' | b', hy⟩ := y
    · exact rounds h (Nat.le_of_succ_le_succ hn) ⟨a, a', Turn.again.inj hy⟩
    · cases hy
    · cases hy
    · exact .done (Turn.stop.inj hy)

theorem loop {turn turn' : α → Parse (Turn α β)} {a b : α} (hb : L.Alike a b)
    (h : ∀ x : Twins L α, Follows L (turn x.first) (turn' x.second)) :
    Follows L (Parse.loop turn a) (Parse.loop turn' b) :=
  fun _ _ hr => rounds h hr.steps ⟨a, b, hb⟩ hr

/-- An item that there is. -/
theorem item {p q : Parse α} (h : Follows L p q) :
    Follows L (p >>= fun a => pure (some a)) (q >>= fun a => pure (some a)) :=
  .bind h fun a => .done a.some.alike

theorem many {item item' : Parse (Option α)} (h : Follows L item item') :
    Follows L (Parse.many item) (Parse.many item') :=
  .bind (.loop Likeness.alike_empty fun items => .bind h fun item => item.alike.optional
    (.done congr(Turn.stop $(items.alike))) fun a => .done congr(Turn.again $((items.push a).alike)))
    fun items => .done items.toList.alike

end Follows

/-! ## Looks -/

namespace Sees

theorem of {p : Parse γ} {f : Scope → State → γ} (hp : Looks p f)
    (h : ∀ recovery depth s t, L.States s t →
      f (L.firstIn recovery depth) s = f (L.secondIn recovery depth) t) : Sees L p :=
  fun r r' recovery depth s t hs => ⟨f (L.firstIn recovery depth) s, hp r _ _,
    (h recovery depth s t hs) ▸ hp r' _ _⟩

theorem done (a : γ) : Sees L (pure a) := .of (f := fun _ _ => a) (fun _ _ _ => rfl) fun _ _ _ _ _ => rfl

theorem bind {δ : Type} {p : Parse γ} {k : γ → Parse δ} (hp : Sees L p) (hk : ∀ a, Sees L (k a)) :
    Sees L (p >>= k) := by
  intro r r' recovery depth s t hs
  obtain ⟨a, hp, hq⟩ := hp r r' recovery depth hs
  obtain ⟨b, hb, hb'⟩ := hk a r r' recovery depth hs
  exact ⟨b, bind_eq_some.mpr ⟨a, s, hp, hb⟩, bind_eq_some.mpr ⟨a, t, hq, hb'⟩⟩

theorem follows [Plain γ] {p : Parse γ} (hp : Sees L p) : Follows L p p := by
  intro r r' _ recovery depth s t hs a s' he
  obtain ⟨b, hb, hb'⟩ := hp r r' recovery depth hs
  rw [hb] at he
  cases he
  exact ⟨_, t, hb', Likeness.alike_plain _, hs⟩

end Sees

end Rules

end BallerinaSyntax
