import BallerinaSyntax.Proofs.Reading.Unit

/-!
What a parse gives. The buffer of a source ends with its one end-of-file token, so the unit that
is read from it fits all of its tokens.
-/

namespace BallerinaSyntax

namespace Buffer

theorem splitEnd_before {ts : List Token} {t : Token} (h : t ∈ (splitEnd ts).1) :
    t.isEndOfFile = false := by
  induction ts with
  | nil => cases h
  | cons first rest ih =>
    unfold splitEnd at h
    split at h
    · cases h
    · rename_i hf
      rcases List.mem_cons.mp h with rfl | h
      · simpa using hf
      · exact ih h

theorem splitEnd_isPrefix (ts : List Token) : (splitEnd ts).1 <+: ts := by
  induction ts with
  | nil => exact List.prefix_refl _
  | cons t ts ih =>
    unfold splitEnd
    split
    · exact List.nil_prefix
    · exact (List.prefix_cons_inj t).mpr ih

theorem splitEnd_last {ts : List Token} {t : Token} (h : (splitEnd ts).2 = some t) :
    t.isEndOfFile = true := by
  induction ts with
  | nil => cases h
  | cons first rest ih =>
    unfold splitEnd at h
    split at h
    · cases h
      assumption
    · exact ih h

/-- A buffer is closed by the one end-of-file token at its end. -/
theorem closed_of_tokens {b : Buffer} {before : List Token} {last : Token}
    (h : b.tokens = (before ++ [last]).toArray) (hl : last.isEndOfFile = true)
    (hb : ∀ t ∈ before, t.isEndOfFile = false) : b.Closed := by
  have hs : b.size = before.length + 1 := by simp [size, h]
  have hg : ∀ i, i < b.size → (before ++ [last])[i]? = some (b.get i) := fun i hi => by
    have := getElem?_eq_get hi
    rwa [h, List.getElem?_toArray] at this
  constructor
  · have := hg (b.size - 1) (by omega)
    rw [hs, Nat.add_sub_cancel, List.getElem?_concat_length] at this
    rw [Ends, hs, Nat.add_sub_cancel, ← Option.some_inj.mp this]
    exact hl
  · intro i hi
    have := hg i (by omega)
    rw [List.getElem?_append_left (by omega)] at this
    have := hb _ (List.mem_of_getElem? this)
    simpa [Token.isEndOfFile] using this

/-- A buffer holds what its source has before the end of the file, and one end-of-file token. -/
theorem tokens_ofSource (s : TokenSource) : ∃ last, last.isEndOfFile = true ∧
    (ofSource s).tokens = ((splitEnd s.tokens).1 ++ [last]).toArray := by
  have hl := @splitEnd_last s.tokens
  unfold ofSource
  cases h : splitEnd s.tokens with
  | mk before last =>
    rw [h] at hl
    cases last with
    | some t => exact ⟨t, hl rfl, rfl⟩
    | none =>
      refine ⟨_, ?_, rfl⟩
      cases s.ending <;> rfl

theorem closed_ofSource (s : TokenSource) : (ofSource s).Closed := by
  obtain ⟨last, hl, h⟩ := tokens_ofSource s
  exact closed_of_tokens h hl fun _ => splitEnd_before

/-- Behind its end a buffer goes on with its last token. -/
theorem get_of_le {b : Buffer} {i : Nat} (h : b.size ≤ i + 1) : b.get i = b.get (b.size - 1) := by
  have : min i (b.tokens.size - 1) = min (b.tokens.size - 1) (b.tokens.size - 1) := by
    unfold size at h
    omega
  simp only [get, size, this]

theorem get_before {b : Buffer} {before : List Token} {last : Token}
    (h : b.tokens = (before ++ [last]).toArray) {i : Nat} (hi : i < before.length) :
    b.get i = before[i] := by
  have hs : i < b.size := by simp [size, h]; omega
  have := getElem?_eq_get hs
  rw [h, List.getElem?_toArray, List.getElem?_append_left hi, List.getElem?_eq_getElem hi] at this
  exact (Option.some.inj this).symm

theorem kind_behind {b : Buffer} {before : List Token} {last : Token}
    (h : b.tokens = (before ++ [last]).toArray) (he : b.Ends) {i : Nat} (hi : before.length ≤ i) :
    (b.get i).kind = .endOfFileToken := by
  have hs : b.size = before.length + 1 := by simp [size, h]
  rw [get_of_le (by omega)]
  exact beq_iff_eq.mp he

end Buffer

/-- A parse tree that fits its tokens: every part of the unit fits what is in it, the unit covers
all tokens, and it has an error exactly if there are diagnostics. -/
structure ParseTree.Sound (t : ParseTree) (b : Buffer) : Prop where
  tokens : t.tokens = b.tokens
  parts : (parts t.root).Sound b
  whole : t.root.info.tokens = ⟨0, b.size⟩
  errors : t.root.info.flags.hasError = true ↔ t.diagnostics ≠ []

/-- A tree is read if the source reaches the end of the file. -/
theorem SourceUnit.parse?_eq_ok {u : SourceUnit} {options : Options} {t : ParseTree} :
    u.parse? options = some (.ok t) ↔
      ∃ root s, (Buffer.ofSource u.source).parse? u.file options = some (root, s) ∧
        (Buffer.ofSource u.source).fatal = none ∧
        t = ⟨u.file, root, (Buffer.ofSource u.source).tokens, s.diagnostics.toList⟩ := by
  constructor
  · intro h
    obtain ⟨⟨root, s⟩, hr, h⟩ := Option.map_eq_some_iff.mp h
    dsimp only [outcome] at h
    split at h
    · cases h
    · exact ⟨root, s, hr, ‹_›, (Except.ok.inj h).symm⟩
  · rintro ⟨root, s, hr, hf, rfl⟩
    refine Option.map_eq_some_iff.mpr ⟨(root, s), hr, ?_⟩
    dsimp only [outcome]
    rw [hf]

/-- Whatever the tokens are, the tree that is read fits them. -/
theorem SourceUnit.parse?_sound {u : SourceUnit} {options : Options} {t : ParseTree}
    (h : u.parse? options = some (.ok t)) : t.Sound (Buffer.ofSource u.source) := by
  obtain ⟨root, s, hr, -, rfl⟩ := parse?_eq_ok.mp h
  obtain ⟨hp, hw, he⟩ := compilationUnit_sound (Buffer.closed_ofSource u.source) hr
  exact ⟨rfl, hp, hw, he⟩

/-- An object and a service in which something is missing:
`type T object { function f() { a = ; } }; service<S> s { r() { b } }`. -/
def SourceUnit.halfWritten : SourceUnit :=
  ⟨"half.bal", { tokens := [
    .fixed .typeKeyword 0, .place .identifier "T" 5, .fixed .objectKeyword 7,
    .fixed .openBraceToken 14, .fixed .functionKeyword 16, .place .identifier "f" 25,
    .fixed .openParenToken 26, .fixed .closeParenToken 27, .fixed .openBraceToken 29,
    .place .identifier "a" 31, .fixed .equalsToken 33, .fixed .semicolonToken 35,
    .fixed .closeBraceToken 37, .fixed .closeBraceToken 39, .fixed .semicolonToken 40,
    .fixed .serviceKeyword 42, .fixed .lessThanToken 49, .place .identifier "S" 50,
    .fixed .greaterThanToken 51, .place .identifier "s" 53, .fixed .openBraceToken 55,
    .place .identifier "r" 57, .fixed .openParenToken 58, .fixed .closeParenToken 59,
    .fixed .openBraceToken 61, .place .identifier "b" 63, .fixed .closeBraceToken 65,
    .fixed .closeBraceToken 67, .endOfFile 68] }⟩

theorem SourceUnit.parse?_halfWritten : ∃ t, halfWritten.parse? {} = some (.ok t) ∧
    t.tokens.size = 29 ∧ t.diagnostics.length = 2 ∧ t.hasErrors = true := by
  have read : (halfWritten.parse? {}).map (fun r => r.toOption.map fun t =>
      (t.tokens.size, t.diagnostics.length, t.hasErrors)) = some (some (29, 2, true)) := by
    decide +kernel
  obtain ⟨_ | t, h, hr⟩ := Option.map_eq_some_iff.mp read
  · cases hr
  · simp only [Except.toOption, Option.map_some, Option.some.injEq, Prod.mk.injEq] at hr
    exact ⟨t, h, hr⟩

end BallerinaSyntax
