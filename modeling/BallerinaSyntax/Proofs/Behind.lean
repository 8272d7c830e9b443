import BallerinaSyntax.Proofs.Phrase.Standalone
import BallerinaSyntax.Proofs.Unclosed

/-!
Units behind other tokens. A unit of definitions that is read without an error is read the same
where other items stand in front of it, whatever errors there are in these: all that goes from one
item to the next is where it ends.
-/

namespace BallerinaSyntax

open Grammar Parse

/-! ## How many errors there were -/

/-- Trees do not tell how many errors were counted in front of them. -/
theorem Tree.relabelled_errors {c : Category} (ρ : Relabelling) (e : Nat) (t : Tree c) :
    t.relabelled { ρ with errors := e } = t.relabelled ρ := by
  induction t <;> first | rfl | (dsimp only [Tree.relabelled]; congr 1)

theorem Definition.relabel_errors (ρ : Relabelling) (e : Nat) (d : Definition) :
    relabel { ρ with errors := e } d = relabel ρ d := by
  have h : ∀ c : Category, @Tree.relabelled c { ρ with errors := e } = Tree.relabelled ρ :=
    fun c => funext (Tree.relabelled_errors ρ e)
  cases d with
  | missing => rfl
  | _ => simp only [relabel, h]

/-- The same definition, read from tokens that stand this much further behind. -/
def Definition.shifted (k : Nat) (d : Definition) : Definition := relabel { shift := k } d

/-! ## Reading behind errors -/

/-- Nothing unwinds, and whatever errors there are, they were found in front of this index. -/
structure State.Calm (s : State) (k : Nat) : Prop where
  running : s.unwinding = false
  unreported : s.depthReported = false
  errors : ∀ i, s.lastErrorAt = some i → i < k

theorem State.calm_initial (k : Nat) : ({} : State).Calm k := ⟨rfl, rfl, nofun⟩

section Behind

variable {b c : Buffer} {before ts : List Token} {options : Options} {file : String} {s : State}
  {recovery : List (List Kind)} {depth n i j : Nat}

/-- What is read without an error is read the same behind other tokens in which there are errors. -/
theorem Straight.behind {α : Type} [Relabels α] [Unmoved α] {p : Parse α} [Programmed p] {a : α}
    (hp : ∀ L : Likeness, Follows L p p) (hb : b.tokens.toList = before ++ ts)
    (hc : c.tokens.toList = ts) (hs : s.Calm before.length)
    (h : Straight (recursion n)
      { buffer := c, options := options, file := file, recovery := recovery, depth := depth }
      (State.goTo {} i) p a j) :
    Straight (recursion n)
      { buffer := b, options := options, file := file, recovery := recovery, depth := depth }
      (s.goTo (i + before.length)) p (relabel { shift := before.length, errors := s.errorCount } a)
      (j + before.length) := by
  let L : Likeness := { Likeness.placed options file hb hc with errors := s.errorCount }
  have hstates : L.States (State.goTo {} i) (s.goTo (i + before.length)) :=
    { position := rfl
      inside := Nat.zero_le i
      errorCount := (Nat.zero_add s.errorCount).symm
      unwinding := hs.running
      depthReported := hs.unreported
      lastErrorAt := fun k l hkl => by
        have hkl : k + before.length = l := hkl
        refine iff_of_false (fun he => ?_) nofun
        have hl := hs.errors l he
        omega
      recorded := trivial }
  obtain ⟨a', t, ha', halike, ht⟩ := hp L
    (L.recursions (Likeness.names_same rfl rfl .text) (Nat.le_refl n)) recovery depth hstates h
  have hclean : t.errorCount = s.errorCount := ht.errorCount.trans (Nat.zero_add _)
  have hread := Leads.straight (Programmed.onward p n _) ha' hclean
  have hplace : j + before.length = t.position := ht.position
  have hsame : relabel { shift := before.length, errors := s.errorCount } a = relabel {} a' := halike
  rw [relabel_self] at hsame
  rw [hplace, hsame]
  exact hread

theorem ReadsDefinition.behind {d : Definition} (hb : b.tokens.toList = before ++ ts)
    (hc : c.tokens.toList = ts) (hs : s.Calm before.length)
    (h : ReadsDefinition n { buffer := c, options := options, file := file } i d j) :
    Straight (recursion n) { buffer := b, options := options, file := file }
      (s.goTo (i + before.length)) definition (d.shifted before.length) (j + before.length) := by
  have hread := h.reads.behind (fun _ => follows_definition) hb hc hs
  have hsame := Definition.relabel_errors { shift := before.length } s.errorCount d
  rwa [hsame] at hread

end Behind

/-! ## From one round to a later one -/

variable {scope : Scope} {s t u : State} {items read more : UnitItems} {n : Nat}

/-- With levels enough the loop over the items of a unit comes from one round to a later one. -/
def UnitReaches (scope : Scope) (s : State) (items : UnitItems) (t : State) (read : UnitItems) :
    Prop :=
  ∃ rounds least, ∀ levels, least ≤ levels → ∀ n,
    Parse.rounds unitTurn (rounds + n) items (recursion levels) scope s =
      Parse.rounds unitTurn n read (recursion levels) scope t

namespace UnitReaches

theorem refl (scope : Scope) (s : State) (items : UnitItems) : UnitReaches scope s items s items :=
  ⟨0, 0, fun _ _ n => by rw [Nat.zero_add]⟩

theorem trans (h : UnitReaches scope s items t read) (h' : UnitReaches scope t read u more) :
    UnitReaches scope s items u more := by
  obtain ⟨k, m, h⟩ := h
  obtain ⟨l, m', h'⟩ := h'
  refine ⟨k + l, max m m', fun levels hl n => ?_⟩
  rw [Nat.add_assoc, h levels (by omega), h' levels (by omega)]

/-- One round that reads an item. -/
theorem round (h : ∀ levels, n ≤ levels →
    Leads (recursion levels) scope s (unitTurn items) (.again read) t) :
    UnitReaches scope s items t read := by
  refine ⟨1, n, fun levels hl m => ?_⟩
  rw [Nat.add_comm]
  exact (h levels hl).bind_eq _

/-- A round in which nothing unwinds reads an item, if it is not the end of the file. -/
theorem item (hu : s.unwinding = false) (hk : scope.kindAt s 0 ≠ .endOfFileToken)
    (ht : t.position ≠ s.position) (h : ∀ levels, n ≤ levels →
      Leads (recursion levels) scope s (unitItem items) read t) :
    UnitReaches scope s items t read := by
  refine round fun levels hl => .look looks_isUnwinding (.ite_neg (ne_true_of_eq_false hu)
    (.look looks_atEnd (.ite_neg ?_ (.bind (.progressing _ (h levels hl) ht) (.pure _)))))
  rwa [beq_iff_eq]

/-- A round that reads a definition. -/
theorem definition {d : Definition} (hu : s.unwinding = false)
    (hk : scope.kindAt s 0 ∉ noDefinition) (ht : t.position ≠ s.position)
    (h : ∀ levels, n ≤ levels → Leads (recursion levels) scope s Grammar.definition d t) :
    UnitReaches scope s items t { items with definitions := items.definitions.push d } := by
  refine item (n := n) hu (fun he => hk (he ▸ .head _)) ht fun levels hl => .look (looks_kind 0) ?_
  split
  · rename_i he
    exact absurd (he ▸ .tail _ (.head _)) hk
  · rename_i he
    exact absurd (he ▸ .tail _ (.tail _ (.head _))) hk
  · exact .bind (h levels hl) (.pure _)

end UnitReaches

section Rows

variable {b c : Buffer} {before ts : List Token} {options : Options} {file : String} {i j : Nat}

/-- Definitions in a row are read the same behind other tokens in which there are errors. -/
theorem UnitReaches.definitions (items : UnitItems) {ds : List Definition}
    (hb : b.tokens.toList = before ++ ts) (hc : c.tokens.toList = ts) (hs : s.Calm before.length)
    (h : Row (ReadsDefinition n { buffer := c, options := options, file := file }) i ds j) :
    UnitReaches { buffer := b, options := options, file := file } (s.goTo (i + before.length)) items
      (s.goTo (j + before.length))
      { items with definitions :=
          items.definitions ++ (ds.map (Definition.shifted before.length)).toArray } := by
  induction h generalizing items with
  | nil =>
    have hnone : items.definitions ++ ([] : List Definition).toArray = items.definitions :=
      Array.append_empty
    rw [List.map_nil, hnone]
    exact .refl _ _ _
  | @cons i j k d ds hd _ ih =>
    have hpush : items.definitions ++ ((d :: ds).map (Definition.shifted before.length)).toArray =
        items.definitions.push (d.shifted before.length) ++
          (ds.map (Definition.shifted before.length)).toArray := by simp
    have hmoved : j + before.length ≠ i + before.length := fun he => hd.moves (by omega)
    have hkind : (b.get (i + before.length)).kind ∉ noDefinition := by
      rw [Buffer.get_behind hb hc]
      exact hd.begins
    rw [hpush]
    refine .trans (.definition (t := s.goTo (j + before.length)) (n := n) hs.running hkind hmoved
      fun levels hl => ?_) (ih _)
    exact follows_definition.levels hl (hd.behind hb hc hs)

end Rows

/-- What unwound an item ends where the next one may begin. -/
theorem UnitReaches.resume {ts : List Token} {last : Token} (hu : s.unwinding = true)
    (hs : scope.buffer.Shows s.position (ts ++ [last]))
    (hp : ∀ t ∈ ts, t.kind ≠ .endOfFileToken ∧ t.kind ∉ topLevelStart)
    (hl : last.kind = .endOfFileToken ∨ last.kind ∈ topLevelStart) :
    UnitReaches scope s items
      { s with position := s.position + ts.length, unwinding := false, depthReported := false }
      items := by
  refine ⟨0, 0, fun levels _ n => ?_⟩
  rw [Nat.zero_add]
  cases n with
  | zero => rfl
  | succ n =>
    have hresume : Leads (recursion levels) scope s (resynchronize topLevelStart) () _ :=
      leads_resynchronize hs hp hl
    -- The round in which reading resumes is the first one behind what unwound.
    have hturn : unitTurn items (recursion levels) scope s =
        unitTurn items (recursion levels) scope
          { s with
            position := s.position + ts.length, unwinding := false, depthReported := false } := by
      unfold unitTurn
      rw [looks_isUnwinding.bind_eq, looks_isUnwinding.bind_eq, run_if_pos hu,
        run_if_neg Bool.false_ne_true, hresume.bind_eq]
    change Parse.bind _ _ _ scope s = Parse.bind _ _ _ scope _
    rw [Parse.bind, Parse.bind, hturn]

/-- Where the loop over the items reaches the end of the file, the unit has been read. -/
theorem SourceUnit.parse?_of_reaches {u : SourceUnit} {options : Options}
    (hd : 1 ≤ options.maxNestingDepth) (hf : (Buffer.ofSource u.source).fatal = none)
    (h : UnitReaches (u.scope options) {} {} t read) (hu : t.unwinding = false)
    (hk : (u.scope options).kindAt t 0 = .endOfFileToken) :
    ∃ tree, u.parse? options = some (.ok tree) ∧ tree.root.imports = read.imports.toList ∧
      tree.root.definitions = read.definitions.toList ∧
      tree.diagnostics = t.diagnostics.toList := by
  obtain ⟨rounds, least, h⟩ := h
  have hsteps : (recursion (least + rounds + 2)).steps = rounds + (least + 1) := by
    rw [steps_recursion]
    omega
  have hlast : Leads (recursion (least + rounds + 2)) (u.scope options) t (unitTurn read)
      (.stop read) t :=
    .look looks_isUnwinding (.ite_neg (ne_true_of_eq_false hu) (.look looks_atEnd
      (.ite_pos (beq_iff_eq.mpr hk) (.pure _))))
  have hitems : Leads (recursion (least + rounds + 2)) (u.scope options) {} unitItems read t := by
    change Parse.rounds unitTurn _ {} _ (u.scope options) {} = _
    rw [hsteps, h _ (by omega) (least + 1)]
    exact Leads.bind hlast (.pure _)
  obtain ⟨leaf, hleaf⟩ :=
    straight_bumpEndOfFile (r := recursion (least + rounds + 2)) (s := t) rfl hk
  have hunit : Leads (recursion (least + rounds + 2)) (u.scope options) {} compilationUnit
      { info := _, imports := read.imports.toList, definitions := read.definitions.toList,
        endOfFile := leaf } (t.goTo (t.position + 1)) :=
    .look looks_mark (.bind hitems (.bind hleaf (.look (finish_eq _ _) (.pure _))))
  have hparse := Buffer.parse?_of_levels (Buffer.closed_ofSource u.source).ends hd hunit
  exact ⟨_, SourceUnit.parse?_eq_ok.mpr ⟨_, _, hparse, hf, rfl⟩, rfl, rfl, rfl⟩

/-! ## Definitions by themselves -/

/-- By themselves these tokens are definitions that are read without an error; the first of them
begins one in such a way that reading resumes there. -/
structure CleanDefinitions (file : String) (options : Options) (ts : List Token) (last : Token)
    (ds : List Definition) : Prop where
  inside : ∀ t ∈ ts, t.isEndOfFile = false
  ends : last.isEndOfFile = true
  read : ∃ t, (⟨file, { tokens := ts ++ [last] }⟩ : SourceUnit).parse? options = some (.ok t) ∧
    t.diagnostics = [] ∧ t.root.imports = [] ∧ t.root.definitions = ds
  begins : ∀ t ∈ ts.head?, t.kind ∈ topLevelStart

namespace CleanDefinitions

variable {file : String} {options : Options} {before ts : List Token} {last : Token}
  {ds : List Definition} {b : Buffer}

/-- The first token of the definitions, or the end of the file. -/
theorem first (h : CleanDefinitions file options ts last ds) :
    ∃ t rest, ts ++ [last] = t :: rest ∧ (t.kind = .endOfFileToken ∨ t.kind ∈ topLevelStart) := by
  cases ts with
  | nil => exact ⟨last, [], rfl, .inl (beq_iff_eq.mp h.ends)⟩
  | cons t rest => exact ⟨t, rest ++ [last], rfl, .inr (h.begins t rfl)⟩

/-- Behind other items they are read the same. -/
theorem reaches (h : CleanDefinitions file options ts last ds)
    (hb : b.tokens.toList = before ++ (ts ++ [last])) (hs : s.Calm before.length) :
    UnitReaches { buffer := b, options := options, file := file } (s.goTo before.length) items
      (s.goTo (before ++ ts).length)
      { items with definitions :=
          items.definitions ++ (ds.map (Definition.shifted before.length)).toArray } := by
  obtain ⟨t, hread, hclean, himports, rfl⟩ := h.read
  obtain ⟨u, ⟨⟨k, himportRow, hrow⟩, -, -⟩, hend⟩ := SourceUnit.rest_of_parse? hread hclean
  rw [himports] at himportRow
  obtain ⟨-⟩ := himportRow
  have hsource : ({ tokens := ts ++ [last] } : TokenSource).tokens = ts ++ last :: [] := rfl
  obtain ⟨hc, -⟩ := Buffer.ofSource_ended hsource h.inside h.ends
  have hlength : u.position = ts.length := by
    have hsize := Buffer.size_of_toList hc
    rw [List.length_append, List.length_singleton] at hsize
    exact Nat.succ.inj (hend.trans hsize)
  have hreach := UnitReaches.definitions items hb hc hs hrow
  rw [Nat.zero_add, hlength] at hreach
  rwa [List.length_append, Nat.add_comm]

/-- A unit that goes on with them is read to its end as soon as they are reached, and nothing else
is reported. -/
theorem parse? (h : CleanDefinitions file options ts last ds) {u : SourceUnit}
    (hu : u = ⟨file, { tokens := before ++ (ts ++ [last]) }⟩)
    (hb : ∀ t ∈ before, t.isEndOfFile = false) (hd : 1 ≤ options.maxNestingDepth)
    (hs : s.Calm before.length)
    (hreach : UnitReaches (u.scope options) {} {} (s.goTo before.length) items) :
    ∃ t, u.parse? options = some (.ok t) ∧ t.root.imports = items.imports.toList ∧
      t.root.definitions =
        items.definitions.toList ++ ds.map (Definition.shifted before.length) ∧
      t.diagnostics = s.diagnostics.toList := by
  subst hu
  have hsource : ({ tokens := before ++ (ts ++ [last]) } : TokenSource).tokens =
      (before ++ ts) ++ last :: [] := (List.append_assoc _ _ _).symm
  have hinside : ∀ t ∈ before ++ ts, t.isEndOfFile = false := fun t ht =>
    (List.mem_append.mp ht).elim (hb t) (h.inside t)
  obtain ⟨hlist, hfatal⟩ := Buffer.ofSource_ended hsource hinside h.ends
  have hend : (Buffer.ofSource { tokens := before ++ (ts ++ [last]) }).get (before ++ ts).length =
      last := Buffer.Shows.get (Buffer.shows_tokens hlist).1
  rw [List.append_assoc] at hlist
  obtain ⟨t, hparse, himports, hdefinitions, hdiagnostics⟩ := SourceUnit.parse?_of_reaches hd hfatal
    (hreach.trans (h.reaches hlist hs)) hs.running (by
      rw [Scope.kindAt_zero hend]
      exact beq_iff_eq.mp h.ends)
  exact ⟨t, hparse, himports, by rw [hdefinitions, Array.toList_append], hdiagnostics⟩

end CleanDefinitions

end BallerinaSyntax
