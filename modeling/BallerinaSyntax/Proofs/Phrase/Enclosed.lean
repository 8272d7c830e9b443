import BallerinaSyntax.Proofs.Cursor
import BallerinaSyntax.Proofs.Enough
import BallerinaSyntax.Proofs.Phrase.Descent

/-!
Units of one function with one statement in its body. Such a unit is read without an error exactly
if the statement is, there where its first token stands.
-/

namespace BallerinaSyntax

open Grammar Parse

namespace Tree

variable {c : Category}

def isNil : Tree (.list c) → Bool
  | .nil => true
  | .cons _ _ => false

/-- The item of a list of one. -/
def only? : Tree (.list c) → Option (Tree c)
  | .nil => none
  | .cons t ts => if ts.isNil then some t else none

/-- The statement of a body in which there is nothing else. -/
def onlyStatement? : Tree .callableBody → Option Statement
  | .callableBody _ endpoints statements workers =>
    if endpoints.isNil && workers.isNil then statements.only? else none

theorem only?_ofList {ts : List (Tree c)} {t : Tree c} : (ofList ts).only? = some t ↔ ts = [t] := by
  cases ts with
  | nil => exact iff_of_false nofun nofun
  | cons u us =>
    cases us with
    | nil => exact Option.some_inj.trans (by rw [List.cons.injEq, and_iff_left rfl])
    | cons v vs => exact iff_of_false nofun nofun

end Tree

/-- The statement in a unit of one function in whose body there is nothing else. -/
def CompilationUnit.onlyStatement? (u : CompilationUnit) : Option Statement :=
  match u.imports, u.definitions with
  | [], [.function f] => f.body.bind Tree.onlyStatement?
  | _, _ => none

theorem CompilationUnit.onlyStatement?_eq_some {u : CompilationUnit} {x : Statement} :
    u.onlyStatement? = some x ↔ u.imports = [] ∧ ∃ f body, u.definitions = [.function f] ∧
      f.body = some body ∧ body.onlyStatement? = some x := by
  constructor
  · intro h
    unfold onlyStatement? at h
    split at h
    · rename_i f hi hd
      obtain ⟨body, hb, hx⟩ := Option.bind_eq_some_iff.mp h
      exact ⟨hi, f, body, hd, hb, hx⟩
    · cases h
  · rintro ⟨hi, f, body, hd, hb, hx⟩
    unfold onlyStatement?
    rw [hi, hd]
    exact Option.bind_eq_some_iff.mpr ⟨body, hb, hx⟩

/-- The scope in which a unit is read. -/
def SourceUnit.scope (u : SourceUnit) (options : Options) : Scope where
  buffer := .ofSource u.source
  options := options
  file := u.file

/-- The kinds of the tokens in front of the body of a function without parameters, and its brace. -/
def bodyHead : List Kind :=
  [.functionKeyword, .identifier, .openParenToken, .closeParenToken, .openBraceToken]

section Unit

variable {u : SourceUnit} {options : Options} {t : ParseTree} {head ts rest : List Token}
  {first closing last : Token} {x : Statement} {levels : Nat}

/-- A unit without an error is imports in a row and definitions in a row, up to the end of the
file. -/
theorem SourceUnit.rest_of_parse? (h : u.parse? options = some (.ok t)) (hd : t.diagnostics = []) :
    ∃ s, RestOfUnit (Buffer.ofSource u.source).steps (u.scope options) 0 t.root.imports
      t.root.definitions s ∧ s.position + 1 = (Buffer.ofSource u.source).size := by
  obtain ⟨root, s, hread, -, rfl⟩ := parse?_eq_ok.mp h
  have herrors := (compilationUnit_sound (Buffer.closed_ofSource u.source) hread).2.2
  have hend := Buffer.parse?_position hread
  obtain ⟨items, v, hitems, rfl, rfl⟩ := compilationUnit_eq hread
  have hclean : v.errorCount = 0 := by
    by_contra hpositive
    have hflag : decide (0 < v.past.errorCount) = true :=
      decide_eq_true (Nat.pos_of_ne_zero hpositive)
    exact herrors.mp hflag hd
  rw [unitItems_eq] at hitems
  obtain ⟨imports, definitions, himports, hdefinitions, -, hrest⟩ :=
    RestOfUnit.of_rounds (i := 0) hitems hclean
  obtain rfl : items.imports.toList = imports := himports
  obtain rfl : items.definitions.toList = definitions := hdefinitions
  exact ⟨v, hrest, hend⟩

/-- The tokens of a unit up to its first end of the file stand at the beginning of the buffer. -/
theorem Buffer.shows_ofSource {s : TokenSource} (h : s.tokens = ts ++ rest)
    (hts : ∀ t ∈ ts, t.isEndOfFile = false) : (Buffer.ofSource s).Shows 0 ts := by
  obtain ⟨last, -, htokens⟩ := Buffer.tokens_ofSource s
  have hlist : (Buffer.ofSource s).tokens.toList =
      [] ++ (ts ++ ((Buffer.splitEnd rest).1 ++ [last])) := by
    rw [htokens, h, Buffer.splitEnd_append hts, List.append_assoc]
    rfl
  exact (Buffer.Shows.append.mp (Buffer.shows_tokens hlist)).1

/-- Five tokens, by their kinds. -/
theorem exists_of_bodyHead (h : head.map Token.kind = bodyHead) :
    ∃ keyword name opening closing brace : Token, head = [keyword, name, opening, closing, brace] ∧
      keyword.kind = .functionKeyword ∧ name.kind = .identifier ∧
      opening.kind = .openParenToken ∧ closing.kind = .closeParenToken ∧
      brace.kind = .openBraceToken := by
  obtain ⟨keyword, _, rfl, hk, h⟩ := List.map_eq_cons_iff.mp h
  obtain ⟨name, _, rfl, hn, h⟩ := List.map_eq_cons_iff.mp h
  obtain ⟨opening, _, rfl, ho, h⟩ := List.map_eq_cons_iff.mp h
  obtain ⟨closing, _, rfl, hc, h⟩ := List.map_eq_cons_iff.mp h
  obtain ⟨brace, _, rfl, hb, h⟩ := List.map_eq_cons_iff.mp h
  obtain rfl := List.map_eq_nil_iff.mp h
  exact ⟨keyword, name, opening, closing, brace, rfl, hk, hn, ho, hc, hb⟩

theorem isEndOfFile_of_mem {kinds : List Kind} (h : ts.map Token.kind = kinds)
    (hk : .endOfFileToken ∉ kinds) : ∀ t ∈ ts, t.isEndOfFile = false := by
  intro t ht
  rw [← h] at hk
  refine Bool.eq_false_iff.mpr fun hend => hk (List.mem_map.mpr ⟨t, ht, beq_iff_eq.mp hend⟩)

/-- The only statement of a unit without an error is read straight on behind the brace. -/
theorem SourceUnit.statement_of_parse? (htokens : u.source.tokens = head ++ first :: rest)
    (hhead : head.map Token.kind = bodyHead) (hf : startsStatement first.kind = true)
    (h : u.parse? options = some (.ok t)) (hd : t.diagnostics = [])
    (hx : t.root.onlyStatement? = some x) :
    ∃ levels j, Straight (recursion levels) (u.scope options).deeper.inList (State.goTo {} 5)
      statement x j := by
  obtain ⟨hi, f, body, hdefinitions, hbody, hx⟩ := CompilationUnit.onlyStatement?_eq_some.mp hx
  obtain ⟨_, ⟨⟨k, himports, hrow⟩, -, -⟩, -⟩ := SourceUnit.rest_of_parse? h hd
  rw [hi] at himports
  rw [hdefinitions] at hrow
  obtain ⟨-⟩ := himports
  obtain ⟨-⟩ | ⟨⟨-, hdefinition, -⟩, -⟩ := hrow
  have hinside : ∀ t ∈ head ++ [first], t.isEndOfFile = false := by
    intro t ht
    rcases List.mem_append.mp ht with ht | ht
    · exact isEndOfFile_of_mem hhead (by decide) t ht
    · obtain rfl := List.mem_singleton.mp ht
      exact beq_of_startsStatement hf (by decide)
  have hsource : u.source.tokens = (head ++ [first]) ++ rest := by
    rw [htokens, List.append_assoc]
    rfl
  have hshows : (Buffer.ofSource u.source).Shows 0 (head ++ [first]) :=
    Buffer.shows_ofSource hsource hinside
  obtain ⟨keyword, name, opening, closing, brace, rfl, hk, hn, ho, hc, hb⟩ :=
    exists_of_bodyHead hhead
  obtain ⟨hkeyword, hname, hopening, hclosing, hbrace, hfirst, -⟩ := hshows
  have hsteps : 4 ≤ (Buffer.ofSource u.source).steps := by
    rw [Buffer.steps]
    omega
  have hrounds : 1 ≤ (recursion (Buffer.ofSource u.source).steps).steps := by
    rw [steps_recursion]
    omega
  obtain ⟨f', hf', hfunction⟩ := Straight.of_definition (s := {}) ⟨hkeyword, hname, trivial⟩ hk hn
    hrounds hdefinition
  obtain rfl := Definition.function.inj hf'
  obtain ⟨body', k, hbody', hread⟩ := Straight.of_function (s := {})
    ⟨hkeyword, hname, hopening, hclosing, hbrace, trivial⟩ hk hn ho hc hb hfunction
  obtain rfl := Option.some.inj (hbody.symm.trans hbody')
  obtain ⟨levels, info, xs, l, -, rfl, hstatements⟩ := Straight.of_body
    (s := State.goTo {} 4) (Buffer.Shows.get hbrace) hb (Buffer.Shows.get hfirst) hf rfl
    (Nat.le_of_succ_le hsteps) hread
  obtain rfl := Tree.only?_ofList.mp hx
  obtain ⟨-⟩ | ⟨hstatement, -⟩ := hstatements
  exact ⟨levels, _, hstatement⟩

/-- A statement that is read straight on up to the closing brace is the only one of a unit without
an error. -/
theorem SourceUnit.parse?_of_statement
    (htokens : u.source.tokens = head ++ (ts ++ [closing, last]))
    (hhead : head.map Token.kind = bodyHead) (hts : ts = first :: rest)
    (hinside : ∀ t ∈ ts, t.isEndOfFile = false) (hf : startsStatement first.kind = true)
    (hc : closing.kind = .closeBraceToken) (hl : last.kind = .endOfFileToken)
    (hd : 1 ≤ options.maxNestingDepth)
    (h : Straight (recursion levels) (u.scope options).deeper.inList (State.goTo {} 5) statement x
      (5 + ts.length)) :
    ∃ t, u.parse? options = some (.ok t) ∧ t.diagnostics = [] ∧
      t.root.onlyStatement? = some x := by
  have hbefore : ∀ t ∈ head ++ (ts ++ [closing]), t.isEndOfFile = false := by
    intro t ht
    rcases List.mem_append.mp ht with ht | ht
    · exact isEndOfFile_of_mem hhead (by decide) t ht
    · rcases List.mem_append.mp ht with ht | ht
      · exact hinside t ht
      · obtain rfl := List.mem_singleton.mp ht
        exact (Bool.eq_false_iff.mpr fun he => by rw [beq_iff_eq.mp he] at hc; cases hc)
  have hsource : u.source.tokens = (head ++ (ts ++ [closing])) ++ last :: [] := by
    rw [htokens, List.append_assoc, List.append_assoc]
    rfl
  obtain ⟨hlist, hfatal⟩ := Buffer.ofSource_ended hsource hbefore (beq_iff_eq.mpr hl)
  have hshows : (Buffer.ofSource u.source).Shows ([] : List Token).length
      ((head ++ (ts ++ [closing])) ++ [last]) := Buffer.shows_tokens hlist
  obtain ⟨hshows, hlast, -⟩ := Buffer.Shows.append.mp hshows
  obtain ⟨keyword, name, opening, close, brace, rfl, hk, hn, ho, hcl, hb⟩ :=
    exists_of_bodyHead hhead
  obtain ⟨hkeyword, hname, hopening, hclosing, hbody⟩ := hshows
  have hmore : Straight (recursion (levels + 3)) (u.scope options).deeper.inList (State.goTo {} 5)
      statement x (5 + ts.length) :=
    Follows.levels (.call _) (Nat.le_add_right levels 3) h
  have hroom : (u.scope options).depth < (u.scope options).options.maxNestingDepth := hd
  obtain ⟨info, hread⟩ := straight_body (s := State.goTo {} 4) hts hbody hb hc hf rfl
    (Nat.le_add_left 3 levels) hroom hmore
  have hsteps : 2 ≤ (recursion (levels + 3 + 1)).steps := Nat.le_add_left 2 (levels + 1)
  obtain ⟨info', info'', info₃, hfunction⟩ := leads_function (s := {})
    (h := ⟨State.mark {}, .metadata [] [] .nil, {}⟩)
    ⟨hkeyword, hname, hopening, hclosing, hbody.1, trivial⟩ hk hn ho hcl hb hread
  have hdefinition := leads_definition (s := {}) ⟨hkeyword, hname, trivial⟩ hk hn
    (Nat.le_of_lt hsteps) hfunction
  have hend : 4 + 1 + ts.length + 1 =
      ([] : List Token).length + ([keyword, name, opening, close, brace] ++ (ts ++ [closing])).length := by
    simp only [List.length_append, List.length_cons, List.length_nil]
    omega
  have hat : (Buffer.ofSource u.source).get (4 + 1 + ts.length + 1) = last := by
    rw [hend]
    exact Buffer.Shows.get hlast
  have hitems := straight_unitItems (s := {}) (Buffer.Shows.get hkeyword) hk hat hl rfl
    (Nat.succ_ne_zero _) hsteps hdefinition
  obtain ⟨info₄, leaf, hunit⟩ := straight_compilationUnit (s := {}) hat hl hitems
  have hparse := Buffer.parse?_of_levels (Buffer.closed_ofSource u.source).ends hd hunit
  exact ⟨_, SourceUnit.parse?_eq_ok.mpr ⟨_, _, hparse, hfatal, rfl⟩, rfl, rfl⟩

end Unit

end BallerinaSyntax
