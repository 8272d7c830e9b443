import BallerinaSyntax.Proofs.Cursor
import BallerinaSyntax.Proofs.Enough
import BallerinaSyntax.Proofs.Phrase.Inversion

/-!
The same tokens at the end of two units. What is read at the beginning of these tokens depends on
nothing in front of them, so both units give the same there, at indices that differ by as much as
the numbers of tokens in front do.
-/

namespace BallerinaSyntax

open Grammar Parse

/-- Tokens of which the last one is the end of the file, and no other. -/
def Token.Ended (ts : List Token) : Prop :=
  ∃ before last, ts = before ++ [last] ∧ (∀ t ∈ before, t.isEndOfFile = false) ∧
    last.isEndOfFile = true

namespace Token.Ended

variable {before ts : List Token}

theorem append (hb : ∀ t ∈ before, t.isEndOfFile = false) (h : Token.Ended ts) :
    Token.Ended (before ++ ts) := by
  obtain ⟨more, last, rfl, hmore, hlast⟩ := h
  refine ⟨before ++ more, last, (List.append_assoc _ _ _).symm, fun t ht => ?_, hlast⟩
  rcases List.mem_append.mp ht with ht | ht
  · exact hb t ht
  · exact hmore t ht

/-- A buffer holds all of them. -/
theorem buffer (h : Token.Ended ts) :
    (Buffer.ofSource { tokens := ts }).tokens.toList = ts ∧
      (Buffer.ofSource { tokens := ts }).fatal = none := by
  obtain ⟨before, last, rfl, hb, hl⟩ := h
  exact Buffer.ofSource_ended rfl hb hl

end Token.Ended

namespace Buffer

variable {b c : Buffer} {before ts : List Token}

theorem size_of_toList (h : b.tokens.toList = ts) : b.size = ts.length := by
  rw [← h, Array.length_toList]
  rfl

/-- Behind other tokens a buffer goes on as one that begins there. -/
theorem get_behind (hb : b.tokens.toList = before ++ ts) (hc : c.tokens.toList = ts) (i : Nat) :
    b.get (i + before.length) = c.get i := by
  have hbs : b.size = before.length + c.size := by
    rw [size_of_toList hb, size_of_toList hc, List.length_append]
  have hinside : ∀ i, i < c.size → b.get (i + before.length) = c.get i := by
    intro i hi
    have hbi : b.tokens[i + before.length]? = c.tokens[i]? := by
      rw [← Array.getElem?_toList, ← Array.getElem?_toList, hb, hc,
        List.getElem?_append_right (Nat.le_add_left _ _), Nat.add_sub_cancel]
    rw [getElem?_eq_get hi, getElem?_eq_get (by omega)] at hbi
    exact Option.some.inj hbi
  have hpos : 0 < c.size := c.nonempty
  rcases Nat.lt_or_ge i c.size with hi | hi
  · exact hinside i hi
  · have hlast := hinside (c.size - 1) (by omega)
    rw [get_of_le (b := b) (i := i + before.length) (by omega), get_of_le (b := c) (i := i) (by omega),
      ← hlast]
    congr 1
    omega

theorem qualified_behind (hb : b.tokens.toList = before ++ ts) (hc : c.tokens.toList = ts)
    (i : Nat) : b.qualified (i + before.length) = c.qualified i := by
  have hget := get_behind hb hc
  unfold qualified
  rw [Nat.add_right_comm i before.length 1, Nat.add_right_comm i before.length 2, hget, hget, hget]

end Buffer

/-! ## Two units that look alike there -/

section Alike

variable {b c : Buffer} {before ts : List Token} (options : Options) (file : String)
  (hb : b.tokens.toList = before ++ ts) (hc : c.tokens.toList = ts)

include hb hc

theorem Buffer.size_behind : b.size = c.size + before.length := by
  rw [size_of_toList hb, size_of_toList hc, List.length_append, Nat.add_comm]

/-- The tokens at the end of a unit and these tokens by themselves. -/
def Likeness.alone : Likeness where
  first := { buffer := b, options := options, file := file }
  second := { buffer := c, options := options, file := file }
  start := before.length
  shift := 0
  verbatim := false
  rename _ := ""
  rename' _ := ""
  nesting := rfl
  names := rfl
  size := (Buffer.size_behind hb hc).symm
  kinds i := congrArg Token.kind (Buffer.get_behind hb hc i).symm
  qualified i := (Buffer.qualified_behind hb hc i).symm
  same hv := by cases hv
  recorded _ _ _ := True
  count _ _ _ _ := trivial
  record _ _ _ _ _ _ _ _ := trivial

/-- Some tokens by themselves and the same tokens at the end of a unit. -/
def Likeness.placed : Likeness where
  first := { buffer := c, options := options, file := file }
  second := { buffer := b, options := options, file := file }
  start := 0
  shift := before.length
  verbatim := true
  nesting := rfl
  names := rfl
  size := Buffer.size_behind hb hc
  kinds i := congrArg Token.kind (Buffer.get_behind hb hc i)
  qualified i := Buffer.qualified_behind hb hc i
  same _ := ⟨rfl, rfl, Buffer.get_behind hb hc⟩
  recorded _ _ _ := True
  count _ _ _ _ := trivial
  record _ _ _ _ _ _ _ _ := trivial

end Alike

/-- Before any error the states at places that correspond do so too. -/
theorem Likeness.states_clean {L : Likeness} {i j : Nat} (hij : L.Opposite i j)
    (hi : L.start ≤ i) (he : L.errors = 0) (hr : L.recorded 0 .empty .empty) :
    L.States (State.goTo {} i) (State.goTo {} j) where
  position := hij
  inside := hi
  errorCount := by rw [he]; rfl
  unwinding := rfl
  depthReported := rfl
  lastErrorAt _ _ _ := iff_of_false nofun nofun
  recorded := hr

/-! ## Reading without an error -/

section Elsewhere

variable {options : Options} {file : String} {before before' ts : List Token} {b b' c : Buffer}
  {recovery : List (List Kind)} {depth n i j : Nat} {α : Type} {p : Parse α} {a : α}

/-- Reading straight on in one unit is reading straight on in another one that looks alike. -/
theorem Straight.opposite [Relabels α] [Programmed p] {L : Likeness} (hp : Follows L p p)
    (hn : L.Names .text .text) {k : Nat} (hij : L.Opposite i k) (hi : L.start ≤ i)
    (he : L.errors = 0) (hr : L.recorded 0 .empty .empty)
    (h : Straight (recursion n) (L.firstIn recovery depth) (State.goTo {} i) p a j) :
    ∃ a' j', L.Opposite j j' ∧ L.Alike a a' ∧
      Straight (recursion n) (L.secondIn recovery depth) (State.goTo {} k) p a' j' := by
  obtain ⟨a', t, ha', halike, hstates⟩ :=
    hp (L.recursions hn (Nat.le_refl n)) recovery depth (L.states_clean hij hi he hr) h
  have hclean : t.errorCount = 0 := hstates.errorCount.trans (by rw [he]; rfl)
  exact ⟨a', t.position, hstates.position, halike,
    Leads.straight (Programmed.onward p n _) ha' hclean⟩

variable [Relabels α] [Unmoved α] [Programmed p] (hp : ∀ L : Likeness, Follows L p p)

include hp

/-- What is read without an error reads the same behind other tokens, as far behind as these are
many. -/
theorem Straight.placed (hb : b.tokens.toList = before ++ ts) (hc : c.tokens.toList = ts)
    (h : Straight (recursion n)
      { buffer := c, options := options, file := file, recovery := recovery, depth := depth }
      (State.goTo {} i) p a j) :
    Straight (recursion n)
      { buffer := b, options := options, file := file, recovery := recovery, depth := depth }
      (State.goTo {} (i + before.length)) p (relabel { shift := before.length } a)
      (j + before.length) := by
  obtain ⟨a', j', hj, halike, ha'⟩ := Straight.opposite (hp (.placed options file hb hc))
    (Likeness.names_same rfl rfl .text) (k := i + before.length) rfl (Nat.zero_le i) rfl trivial h
  have hj : j + before.length = j' := hj
  have ha : relabel { shift := before.length } a = relabel {} a' := halike
  rw [relabel_self] at ha
  rw [hj, ha]
  exact ha'

/-- What is read without an error behind other tokens is read without these tokens as well. -/
theorem Straight.alone (hb : b.tokens.toList = before ++ ts) (hc : c.tokens.toList = ts)
    (h : Straight (recursion n)
      { buffer := b, options := options, file := file, recovery := recovery, depth := depth }
      (State.goTo {} (i + before.length)) p a (j + before.length)) :
    ∃ a₀, relabel { shift := before.length } a₀ = a ∧ Straight (recursion n)
      { buffer := c, options := options, file := file, recovery := recovery, depth := depth }
      (State.goTo {} i) p a₀ j := by
  obtain ⟨a₀, j', hj, -, h₀⟩ := Straight.opposite (hp (.alone options file hb hc))
    (Likeness.names_hidden (fun _ _ => rfl) .text .text) (k := i) rfl (Nat.le_add_left _ i) rfl trivial h
  obtain rfl : j = j' := Nat.add_right_cancel hj
  have hplaced := Straight.placed hp hb hc h₀
  have hsame : some (relabel { shift := before.length } a₀, _) = some (a, _) := hplaced.symm.trans h
  exact ⟨a₀, congrArg Prod.fst (Option.some.inj hsame), h₀⟩

/-- What is read without an error behind some tokens is read behind any others; both results are
what would be read behind none, moved by as many tokens. -/
theorem Straight.elsewhere (hb : b.tokens.toList = before ++ ts)
    (hb' : b'.tokens.toList = before' ++ ts) (hts : Token.Ended ts)
    (h : Straight (recursion n)
      { buffer := b, options := options, file := file, recovery := recovery, depth := depth }
      (State.goTo {} (i + before.length)) p a (j + before.length)) :
    ∃ a₀, relabel { shift := before.length } a₀ = a ∧ Straight (recursion n)
      { buffer := b', options := options, file := file, recovery := recovery, depth := depth }
      (State.goTo {} (i + before'.length)) p (relabel { shift := before'.length } a₀)
      (j + before'.length) := by
  obtain ⟨a₀, ha₀, h₀⟩ := Straight.alone hp hb hts.buffer.1 h
  exact ⟨a₀, ha₀, Straight.placed hp hb' hts.buffer.1 h₀⟩

end Elsewhere

end BallerinaSyntax
