import BallerinaSyntax.Pool
import BallerinaSyntax.Proofs.Renaming
import Mathlib.Data.List.Forall2
import Mathlib.Data.List.Nodup

/-!
Units that share a table of names. Workers read the units, one each, and enter names into the table
while they do, in any order in which their turns may come; or a session reads one unit after the
other. A handle that is given for a name is the one that the table in the end has for it. So all the
dialogues are answered as by a function, known only afterwards, and every unit is read as if it were
alone; and handles tell names apart across units.
-/

namespace BallerinaSyntax

/-! ## The table -/

namespace Interner

variable {t u : Interner} {name : String} {handle : Nat}

/-- Names are only added, and keep their handles. -/
def Extends (u t : Interner) : Prop := t.names <+: u.names

theorem Extends.refl (t : Interner) : t.Extends t := List.prefix_refl _

theorem Extends.trans {v : Interner} (h : u.Extends t) (k : v.Extends u) : v.Extends t :=
  List.IsPrefix.trans h k

theorem extends_insert (t : Interner) (name : String) : (t.insert name).Extends t := by
  unfold insert
  split
  · exact .refl t
  · exact List.prefix_append ..

theorem Extends.resolve? (h : u.Extends t) (ht : t.resolve? handle = some name) :
    u.resolve? handle = some name := by
  obtain ⟨more, hm⟩ := h
  have hl : handle < t.names.length := (List.getElem?_eq_some_iff.mp ht).1
  rw [Interner.resolve?, ← hm, List.getElem?_append_left hl]
  exact ht

/-- Behind different handles there are different names. -/
theorem resolve?_inj {k : Nat} (hh : t.resolve? handle = some name)
    (hk : t.resolve? k = some name) : handle = k := by
  obtain ⟨hl, hn⟩ := List.getElem?_eq_some_iff.mp hh
  obtain ⟨kl, kn⟩ := List.getElem?_eq_some_iff.mp hk
  exact (List.Nodup.getElem_inj_iff t.nodup).mp (hn.trans kn.symm)

theorem mem_insert (t : Interner) (name : String) : name ∈ (t.insert name).names := by
  unfold insert
  split
  · assumption
  · simp

theorem resolve?_idxOf (h : name ∈ t.names) : t.resolve? (t.names.idxOf name) = some name := by
  have hl := List.idxOf_lt_length_iff.mpr h
  rw [Interner.resolve?, List.getElem?_eq_getElem hl, List.getElem_idxOf]

/-- The handle that is given for a name is that of the name. -/
theorem resolve?_intern (t : Interner) (name : String) :
    (t.intern name).2.resolve? (t.intern name).1 = some name := by
  have hi : (t.insert name).names.idxOf name = t.names.idxOf name := by
    unfold insert
    split
    · rfl
    · rename_i hn
      rw [List.idxOf_append_of_notMem hn]
      simp [List.idxOf_eq_length hn]
  rw [intern, ← hi]
  exact resolve?_idxOf (mem_insert t name)

theorem resolve?_eq_some : t.resolve? handle = some name ↔
    name ∈ t.names ∧ t.names.idxOf name = handle := by
  constructor
  · intro h
    have member : name ∈ t.names := List.mem_of_getElem? h
    exact ⟨member, resolve?_inj (resolve?_idxOf member) h⟩
  · rintro ⟨member, rfl⟩
    exact resolve?_idxOf member

/-! ## Answers from a table -/

/-- A function that gives the handles of a table, for the texts in it. -/
def Answers (t : Interner) (symbol : String → Symbol) : Prop :=
  ∀ handle name, t.resolve? handle = some name → symbol name = .handle handle

/-- The handle of a text, if it has one; else the text stands for itself. -/
def symbol (t : Interner) (name : String) : Symbol :=
  if name ∈ t.names then .handle (t.names.idxOf name) else .text name

theorem answers_symbol (t : Interner) : t.Answers t.symbol := by
  intro handle name h
  obtain ⟨member, rfl⟩ := resolve?_eq_some.mp h
  exact if_pos member

/-- What is given for a text that has no handle does not matter. -/
theorem answers_idxOf (t : Interner) : t.Answers fun name => .handle (t.names.idxOf name) := by
  intro handle name h
  exact congrArg Symbol.handle (resolve?_eq_some.mp h).2

/-- The name of the symbol for a text is the text. -/
theorem naming_symbol (t : Interner) (name : String) : t.naming (t.symbol name) = .text name := by
  unfold symbol
  split
  · rename_i member
    rw [naming, resolve?_idxOf member]
    rfl
  · rfl

variable {symbol : String → Symbol}

/-- A later table gives every handle that was given before. -/
theorem Answers.intern (h : u.Answers symbol) (name : String)
    (hu : u.Extends (t.intern name).2) : symbol name = .handle (t.intern name).1 :=
  h _ _ (hu.resolve? (t.resolve?_intern name))

end Interner

namespace Asking

variable {α : Type}

theorem run_extends (d : Asking α) (t : Interner) : (d.run t).2.Extends t := by
  induction d generalizing t with
  | done a => exact .refl t
  | ask text resume ih => exact (t.extends_insert text).trans (ih _ _)

/-- With a table a dialogue comes to what it does with the answers of any later table. -/
theorem run_answered (d : Asking α) {t u : Interner} (hu : u.Extends (d.run t).2)
    {symbol : String → Symbol} (h : u.Answers symbol) : d.answered symbol = (d.run t).1 := by
  induction d generalizing t with
  | done a => rfl
  | ask text resume ih =>
    have grown : u.Extends (t.intern text).2 := (run_extends _ _).trans hu
    change (resume (symbol text)).answered symbol = _
    rw [h.intern text grown]
    exact ih _ hu

end Asking

theorem Asking.answered_eq {α : Type} {d : Asking α} {a : α} (h : d.value? = some a)
    (symbol : String → Symbol) : d.answered symbol = a := by
  cases d with
  | done b => exact Option.some.inj h
  | ask text resume => cases h

/-- What a unit gives if it is read with the answers of a table. -/
def SourceUnit.Gives (u : SourceUnit) (options : Options) (t : Interner)
    (r : Option (Except ParseError ParseTree)) : Prop :=
  ∀ symbol, t.Answers symbol → r = u.parseWith? symbol options

namespace SourceUnit

variable {u : SourceUnit} {options : Options} {t : Interner}
  {r : Option (Except ParseError ParseTree)}

/-- With the texts of the names it is what is read with these texts. -/
theorem Gives.resolved (h : u.Gives options t r) : t.resolved r = u.parse? options := by
  rw [h _ t.answers_symbol]
  exact parseWith?_traced t.naming_symbol

theorem gives_run (u : SourceUnit) (options : Options) {prior : Interner}
    (ht : t.Extends ((u.dialogue options).run prior).2) :
    u.Gives options t ((u.dialogue options).run prior).1 :=
  fun symbol h => (Asking.run_answered _ ht h).symm.trans (u.dialogue_answered symbol options)

/-- By itself, with a table of its own, a unit is read as it is with the texts of its names. -/
theorem alone_eq (u : SourceUnit) (options : Options) : u.alone options = u.parse? options :=
  (u.gives_run options (.refl _)).resolved

end SourceUnit

/-! ## Pairs of lists -/

section Forall₂

variable {α β γ : Type} {R : α → β → Prop} {as : List α} {bs : List β}

theorem forall₂_set (h : List.Forall₂ R as bs) {i : Nat} {a' : α}
    (ha : ∀ a b, as[i]? = some a → R a b → R a' b) : List.Forall₂ R (as.set i a') bs := by
  induction h generalizing i with
  | nil => exact .nil
  | cons hab _ ih =>
    cases i with
    | zero => exact .cons (ha _ _ rfl hab) ‹_›
    | succ i => exact .cons hab (ih fun a b hi => ha a b hi)

theorem forall₂_getElem? (h : List.Forall₂ R as bs) {i : Nat} {b : β} (hb : bs[i]? = some b) :
    ∃ a, as[i]? = some a ∧ R a b := by
  induction h generalizing i with
  | nil => cases hb
  | cons hab _ ih =>
    cases i with
    | zero => cases hb; exact ⟨_, rfl, hab⟩
    | succ i => exact ih hb

theorem forall₂_of_mem (h : List.Forall₂ R as bs) {a : α} (ha : a ∈ as) : ∃ b ∈ bs, R a b := by
  induction h with
  | nil => cases ha
  | cons hab _ ih =>
    rcases List.mem_cons.mp ha with rfl | ha
    · exact ⟨_, List.mem_cons_self, hab⟩
    · obtain ⟨b, hb, hr⟩ := ih ha
      exact ⟨b, List.mem_cons_of_mem _ hb, hr⟩

theorem forall₂_map_eq {f : α → γ} {g : β → γ} (h : List.Forall₂ R as bs)
    (hf : ∀ a ∈ as, ∀ b, R a b → f a = g b) : as.map f = bs.map g := by
  induction h with
  | nil => rfl
  | cons hab _ ih =>
    exact congrArg₂ List.cons (hf _ List.mem_cons_self _ hab)
      (ih fun a ha => hf a (List.mem_cons_of_mem _ ha))

end Forall₂

/-! ## Workers -/

/-- A worker that will have read a unit if a table answers what it still has to ask. -/
structure Worker.Does (w : Worker) (u : SourceUnit) (options : Options) (t : Interner) : Prop where
  file : w.file = u.file
  reading : ∀ symbol, t.Answers symbol → w.reading.answered symbol = u.parseWith? symbol options

namespace Worker.Does

variable {w : Worker} {u : SourceUnit} {options : Options} {t : Interner}

theorem start (u : SourceUnit) (options : Options) (t : Interner) :
    Worker.Does ⟨u.file, u.dialogue options⟩ u options t :=
  ⟨rfl, fun symbol _ => u.dialogue_answered symbol options⟩

/-- An answer that is also that of the table in the end changes nothing. -/
theorem answer {file text : String} {resume : Symbol → Asking _} {k : Nat}
    (h : Worker.Does ⟨file, .ask text resume⟩ u options t) (hk : t.resolve? k = some text) :
    Worker.Does ⟨file, resume (.handle k)⟩ u options t := by
  refine ⟨h.file, fun symbol hs => ?_⟩
  have asked := h.reading symbol hs
  rw [Asking.answered, hs k text hk] at asked
  exact asked

theorem gives (h : w.Does u options t) {r : Option (Except ParseError ParseTree)}
    (hr : w.reading.value? = some r) : u.Gives options t r :=
  fun symbol hs => (Asking.answered_eq hr symbol).symm.trans (h.reading symbol hs)

end Worker.Does

namespace Pool

variable {p : Pool}

theorem turn_extends (p : Pool) (i : Nat) : (p.turn i).names.Extends p.names := by
  unfold turn
  split
  · exact p.names.extends_insert _
  · exact .refl _

theorem run_extends (p : Pool) (schedule : List Nat) : (p.run schedule).names.Extends p.names := by
  induction schedule generalizing p with
  | nil => exact .refl _
  | cons i schedule ih => exact (p.turn_extends i).trans (ih (p.turn i))

/-- The workers of a pool do the units, in their order. -/
def Does (p : Pool) (units : List SourceUnit) (options : Options) (t : Interner) : Prop :=
  List.Forall₂ (fun w u => w.Does u options t) p.workers units

variable {options : Options} {prior t : Interner} {units : List SourceUnit}

theorem does_start (t : Interner) : (start options prior units).Does units options t :=
  List.forall₂_map_left_iff.mpr (List.forall₂_same.mpr fun u _ => .start u options t)

/-- A turn keeps all workers at what they do, under any later table. -/
theorem Does.turn (h : p.Does units options t) {i : Nat} (ht : t.Extends (p.turn i).names) :
    (p.turn i).Does units options t := by
  unfold Pool.turn at ht ⊢
  split
  · rename_i file text resume hi
    rw [hi] at ht
    have given : t.resolve? (p.names.intern text).1 = some text :=
      ht.resolve? (p.names.resolve?_intern text)
    refine forall₂_set h fun w u hw does => ?_
    obtain rfl := Option.some.inj (hi.symm.trans hw)
    exact does.answer given
  · exact h

theorem Does.run (h : p.Does units options t) {schedule : List Nat}
    (ht : t.Extends (p.run schedule).names) : (p.run schedule).Does units options t := by
  induction schedule generalizing p with
  | nil => exact h
  | cons i schedule ih => exact ih (h.turn ((run_extends (p.turn i) schedule).trans ht)) ht

/-! ### Every pool can finish -/

/-- The worker at an index, if there is one, has nothing left to ask. -/
def DoneAt (p : Pool) (i : Nat) : Prop :=
  ∀ w, p.workers[i]? = some w → w.reading.value?.isSome = true

theorem DoneAt.turn {i : Nat} (h : p.DoneAt i) (j : Nat) : (p.turn j).DoneAt i := by
  unfold Pool.turn
  split
  · rename_i file text resume hj
    intro w hw
    by_cases he : j = i
    · subst he
      cases h _ hj
    · exact h w (by rwa [List.getElem?_set_ne he] at hw)
  · exact h

theorem DoneAt.run {i : Nat} (h : p.DoneAt i) (schedule : List Nat) : (p.run schedule).DoneAt i := by
  induction schedule generalizing p with
  | nil => exact h
  | cons j schedule ih => exact ih (h.turn j)

/-- With turns enough a worker is done. -/
theorem exists_doneAt (p : Pool) (i : Nat) : ∃ more, (p.run more).DoneAt i := by
  cases hi : p.workers[i]? with
  | none =>
    refine ⟨[], fun w hw => ?_⟩
    rw [show p.workers[i]? = some w from hw] at hi
    cases hi
  | some w =>
    obtain ⟨file, reading⟩ := w
    induction reading generalizing p with
    | done r =>
      refine ⟨[], fun w hw => ?_⟩
      obtain rfl := Option.some.inj (hi.symm.trans hw)
      rfl
    | ask text resume ih =>
      have next : (p.turn i).workers[i]? =
          some ⟨file, resume (.handle (p.names.intern text).1)⟩ := by
        have hl := (List.getElem?_eq_some_iff.mp hi).1
        unfold Pool.turn
        rw [hi]
        simp [hl]
      obtain ⟨more, hm⟩ := ih _ (p.turn i) next
      exact ⟨i :: more, hm⟩

theorem run_length (p : Pool) (schedule : List Nat) :
    (p.run schedule).workers.length = p.workers.length := by
  induction schedule generalizing p with
  | nil => rfl
  | cons i schedule ih =>
    refine (ih (p.turn i)).trans ?_
    unfold Pool.turn
    split
    · exact List.length_set
    · rfl

/-- Whatever has happened, all workers can come to an end. -/
theorem exists_finished (p : Pool) : ∃ more, (p.run more).Finished := by
  have upTo (n : Nat) : ∃ more, ∀ i < n, (p.run more).DoneAt i := by
    induction n with
    | zero => exact ⟨[], fun i hi => absurd hi (Nat.not_lt_zero i)⟩
    | succ n ih =>
      obtain ⟨more, hm⟩ := ih
      obtain ⟨last, hl⟩ := (p.run more).exists_doneAt n
      refine ⟨more ++ last, fun i hi => ?_⟩
      rw [Pool.run, List.foldl_append]
      rcases Nat.lt_succ_iff_lt_or_eq.mp hi with hi | rfl
      · exact (hm i hi).run last
      · exact hl
  obtain ⟨more, hm⟩ := upTo p.workers.length
  refine ⟨more, fun w hw => ?_⟩
  obtain ⟨i, hi, rfl⟩ := List.mem_iff_getElem.mp hw
  exact hm i (p.run_length more ▸ hi) _ (List.getElem?_eq_getElem hi)

end Pool

/-! ## Sessions -/

namespace Session

theorem readAll_extends (s : Session) (units : List SourceUnit) :
    (s.readAll units).2.names.Extends s.names := by
  induction units generalizing s with
  | nil => exact .refl _
  | cons u units ih => exact ((u.dialogue s.options).run_extends s.names).trans (ih (s.parse? u).2)

/-- A session reads every unit with the answers of any later table. -/
theorem readAll_gives (s : Session) (units : List SourceUnit) {t : Interner}
    (ht : t.Extends (s.readAll units).2.names) :
    List.Forall₂ (fun r u => u.Gives s.options t r) (s.readAll units).1 units := by
  induction units generalizing s with
  | nil => exact .nil
  | cons u units ih =>
    have later : t.Extends ((u.dialogue s.options).run s.names).2 :=
      (readAll_extends (s.parse? u).2 units).trans ht
    exact .cons (u.gives_run s.options later) (ih (s.parse? u).2 ht)

/-- With the texts of the names, the results of a session are those of its units alone. -/
theorem readAll_alone (s : Session) (units : List SourceUnit) :
    (s.readAll units).1.map (s.readAll units).2.names.resolved = units.map (·.alone s.options) :=
  forall₂_map_eq (readAll_gives s units (.refl _)) fun _ _ u h =>
    h.resolved.trans (u.alone_eq s.options).symm

end Session

/-! ## Handles -/

/-- The names in some trees are handles of a table, which has for each the text of its token; so
handles are the same exactly if the texts of the tokens are. -/
structure Interner.TellsApart (t : Interner) (trees : ParseTree → Prop) : Prop where
  resolve? : ∀ tree x, trees tree → tree.Holds x →
    ∃ handle, x.symbol = .handle handle ∧ t.resolve? handle = some (tree.tokenText x.token)
  iff : ∀ tree x tree' y, trees tree → tree.Holds x → trees tree' → tree'.Holds y →
    (x.symbol = y.symbol ↔ tree.tokenText x.token = tree'.tokenText y.token)

/-- A name that is read with the answers of a table is the handle of the text of its token. Whatever
a text without a handle might stand for, the name would be the same; so there is a handle. -/
theorem ParseTree.Holds.handle {u : SourceUnit} {options : Options} {t : Interner}
    {tree : ParseTree} (h : u.Gives options t (some (.ok tree))) {x : Identifier}
    (hx : tree.Holds x) : tree.tokenText x.token ∈ t.names ∧
      x.symbol = .handle (t.names.idxOf (tree.tokenText x.token)) := by
  have given := hx.symbol_of_parseWith? (h _ t.answers_symbol).symm
  have handle := hx.symbol_of_parseWith? (h _ t.answers_idxOf).symm
  refine ⟨?_, handle⟩
  by_contra missing
  rw [handle, Interner.symbol, if_neg missing] at given
  cases given

theorem Interner.TellsApart.of_gives {t : Interner} (options : Options)
    {trees : ParseTree → Prop}
    (h : ∀ tree, trees tree → ∃ u : SourceUnit, u.Gives options t (some (.ok tree))) :
    t.TellsApart trees where
  resolve? tree x ht hx := by
    obtain ⟨u, hu⟩ := h tree ht
    obtain ⟨member, handle⟩ := hx.handle hu
    exact ⟨_, handle, resolve?_idxOf member⟩
  iff tree x tree' y ht hx ht' hy := by
    obtain ⟨u, hu⟩ := h tree ht
    obtain ⟨v, hv⟩ := h tree' ht'
    obtain ⟨member, handle⟩ := hx.handle hu
    obtain ⟨-, handle'⟩ := hy.handle hv
    rw [handle, handle', Symbol.handle.injEq]
    exact List.idxOf_inj member

/-- A tree that a worker has read. -/
def Pool.Gives (p : Pool) (t : ParseTree) : Prop :=
  ∃ w ∈ p.workers, w.reading.value? = some (some (.ok t))

/-- A file with a name and no end. -/
def SourceUnit.cutName : SourceUnit := ⟨"cut.bal", { tokens := [.place .identifier "b" 0] }⟩

/-- A file with a variable that has no name: `int = 1;`. -/
def SourceUnit.nameless : SourceUnit :=
  ⟨"nameless.bal", { tokens := [.fixed .intKeyword 0, .fixed .equalsToken 4,
    .place .decimalIntegerLiteral "1" 6, .fixed .semicolonToken 7, .endOfFile 8] }⟩

end BallerinaSyntax
