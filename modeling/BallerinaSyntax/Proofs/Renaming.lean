import BallerinaSyntax.Proofs.Dialogue
import BallerinaSyntax.Proofs.Enough
import BallerinaSyntax.Proofs.PartsRelabelled
import BallerinaSyntax.Proofs.StoredTokens
import BallerinaSyntax.Session

/-!
Readings with different symbols for the names. No production looks at the symbol of a name, so two
readings of a unit differ in these symbols and in nothing else: if both are renamed so that each text
has one symbol, they are the same.
-/

namespace BallerinaSyntax

/-! ## Results -/

theorem renameResult_id (r : Option (Except ParseError ParseTree)) : renameResult id r = r := by
  obtain _ | _ | t := r
  · rfl
  · rfl
  · dsimp only [renameResult, Option.map_some, Except.map, ParseTree.renamed]
    rw [show relabel { rename := id } t.root = t.root from relabel_self t.root]

theorem renameResult_eq_ok {rename : Symbol → Symbol} {r : Option (Except ParseError ParseTree)}
    {t : ParseTree} (h : renameResult rename r = some (.ok t)) :
    ∃ t₀, r = some (.ok t₀) ∧ t₀.renamed rename = t := by
  obtain _ | _ | t₀ := r
  · cases h
  · cases h
  · exact ⟨t₀, rfl, Except.ok.inj (Option.some.inj h)⟩

/-- The symbol that a function gives for a text; a handle stays as it is. -/
def Symbol.through (symbol : String → Symbol) : Symbol → Symbol
  | .text name => symbol name
  | .handle k => .handle k

/-! ## Two readings of one unit -/

/-- A unit and itself, with names that are renamed before they are compared. -/
def Likeness.renaming (scope : Scope) (rename rename' : Symbol → Symbol) : Likeness :=
  { Likeness.self scope with rename := rename, rename' := rename' }

namespace SourceUnit

variable {u : SourceUnit} {options : Options} {symbol symbol' : String → Symbol}
  {rename rename' : Symbol → Symbol}

theorem parseWith?_follows (h : ∀ text, rename (symbol text) = rename' (symbol' text))
    {r : Except ParseError ParseTree} (hr : u.parseWith? symbol options = some r) :
    renameResult rename' (u.parseWith? symbol' options) = renameResult rename (some r) := by
  let scope : Scope := { buffer := .ofSource u.source, options := options, file := u.file }
  let L := Likeness.renaming scope rename rename'
  obtain ⟨⟨root, s⟩, hp, rfl⟩ := Option.map_eq_some_iff.mp hr
  have names : L.Names symbol symbol' := by
    intro text text' ht
    obtain rfl := ht rfl
    exact h text
  have start : L.States {} {} :=
    ⟨rfl, Nat.le_refl _, rfl, rfl, rfl, fun _ _ _ => iff_of_false nofun nofun, rfl⟩
  obtain ⟨root', s', hp', hroot, hs'⟩ :=
    follows_compilationUnit (L.recursionsWith names (Nat.le_refl _)) [] 0 start hp
  have hdiagnostics : s.diagnostics = s'.diagnostics := hs'.recorded
  have hread : u.parseWith? symbol' options = some (u.outcome (root', s')) :=
    Option.map_eq_some_iff.mpr ⟨_, hp', rfl⟩
  have hrenamed : relabel { rename := rename } root = relabel { rename := rename' } root' := hroot
  rw [hread]
  dsimp only [renameResult, Option.map_some, outcome]
  cases (Buffer.ofSource u.source).fatal with
  | some e => rfl
  | none =>
    dsimp only [Except.map, ParseTree.renamed]
    rw [hrenamed, hdiagnostics]

/-- Renamed in such a way that every text has one symbol, two readings are the same. -/
theorem parseWith?_renamed (h : ∀ text, rename (symbol text) = rename' (symbol' text)) :
    renameResult rename (u.parseWith? symbol options) =
      renameResult rename' (u.parseWith? symbol' options) := by
  cases hr : u.parseWith? symbol options with
  | some r => exact (parseWith?_follows h hr).symm
  | none =>
    cases hr' : u.parseWith? symbol' options with
    | none => rfl
    | some r' =>
      have := parseWith?_follows (fun text => (h text).symm) hr'
      rw [hr] at this
      cases this

/-- If each symbol can be traced back to its text, what is read is what is read with the texts. -/
theorem parseWith?_traced (h : ∀ text, rename (symbol text) = .text text) :
    renameResult rename (u.parseWith? symbol options) = u.parse? options :=
  (parseWith?_renamed h).trans (renameResult_id _)

end SourceUnit

/-! ## Names in trees -/

/-- A name in a tree that was not made up. -/
def ParseTree.Holds (t : ParseTree) (x : Identifier) : Prop :=
  x.token.missing = false ∧ ∃ inside, (Part.name x, inside) ∈ (parts t.root).subtrees

theorem Forest.mem_subtrees_map {α β : Type} {f : α → β} {g : Forest α} {x : β × Forest β}
    (h : x ∈ (g.map f).subtrees) : ∃ y ∈ g.subtrees, x = (f y.1, y.2.map f) := by
  induction g with
  | nil => cases h
  | cons label children rest ihc ihr =>
    rcases List.mem_cons.mp h with rfl | h
    · exact ⟨(label, children), List.mem_cons_self, rfl⟩
    · rcases List.mem_append.mp h with h | h
      · obtain ⟨y, hy, he⟩ := ihc h
        exact ⟨y, List.mem_cons_of_mem _ (List.mem_append_left _ hy), he⟩
      · obtain ⟨y, hy, he⟩ := ihr h
        exact ⟨y, List.mem_cons_of_mem _ (List.mem_append_right _ hy), he⟩

/-- A name of a renamed tree is a name of the tree, renamed. -/
theorem ParseTree.Holds.of_renamed {t : ParseTree} {rename : Symbol → Symbol} {x : Identifier}
    (h : (t.renamed rename).Holds x) :
    ∃ y, t.Holds y ∧ x.token = y.token ∧ x.symbol = rename y.symbol := by
  obtain ⟨present, inside, hm⟩ := h
  rw [ParseTree.renamed, parts_relabel] at hm
  obtain ⟨⟨p, below⟩, hp, he⟩ := Forest.mem_subtrees_map hm
  cases p with
  | node info => cases he
  | token leaf => cases he
  | name y =>
    obtain rfl := Part.name.inj (congrArg Prod.fst he)
    exact ⟨y, ⟨present, below, hp⟩, rfl, rfl⟩

/-- A name that was read has the text of its token. -/
theorem ParseTree.Holds.symbol_eq {u : SourceUnit} {options : Options} {t : ParseTree}
    (h : u.parse? options = some (.ok t)) {x : Identifier} (hx : t.Holds x) :
    x.symbol = .text (t.tokenText x.token) := by
  obtain ⟨present, inside, hm⟩ := hx
  have sound := SourceUnit.parse?_sound h
  have stored := (sound.parts _ hm).stored
  rw [Part.Stored, present, ← sound.tokens] at stored
  obtain ⟨token, at_, -, -, -, name⟩ := stored
  rw [name, ParseTree.tokenText, ParseTree.token?, present]
  simp [at_]

/-- A name that was read with other symbols has the symbol for the text of its token. -/
theorem ParseTree.Holds.symbol_of_parseWith? {u : SourceUnit} {options : Options} {t : ParseTree}
    {symbol : String → Symbol} (h : u.parseWith? symbol options = some (.ok t)) {x : Identifier}
    (hx : t.Holds x) : x.symbol = symbol (t.tokenText x.token) := by
  have same : renameResult id (u.parseWith? symbol options) =
      renameResult (Symbol.through symbol) (u.parseWith? .text options) :=
    SourceUnit.parseWith?_renamed fun _ => rfl
  rw [renameResult_id, h] at same
  obtain ⟨t₀, ht₀, rfl⟩ := renameResult_eq_ok same.symm
  obtain ⟨y, hy, token, name⟩ := hx.of_renamed
  rw [name, hy.symbol_eq ht₀, token]
  rfl

end BallerinaSyntax
