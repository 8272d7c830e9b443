import BallerinaSyntax.Proofs.Following.Rule
import BallerinaSyntax.Proofs.Outcome

/-!
What decides how a unit is read. Of its tokens only the kinds count, and whether the parts of a name
with a package touch. Everything else about them ends up in names, places and messages, and nothing
is ever decided by these.
-/

namespace BallerinaSyntax

/-! ## Sources that look alike -/

/-- A package, a colon and a name without anything between them. -/
def Token.Touching (package colon name : Token) : Prop :=
  package.range.stop = colon.range.start ∧ colon.range.stop = name.range.start

/-- Two sources whose tokens are of the same kinds. -/
structure TokenSource.LooksLike (s t : TokenSource) : Prop where
  kinds : s.tokens.map Token.kind = t.tokens.map Token.kind
  touching : ∀ i (hs : i + 2 < s.tokens.length) (ht : i + 2 < t.tokens.length),
    s.tokens[i].kind = .identifier → s.tokens[i + 1].kind = .colonToken →
      s.tokens[i + 2].kind = .identifier →
      (s.tokens[i].Touching s.tokens[i + 1] s.tokens[i + 2] ↔
        t.tokens[i].Touching t.tokens[i + 1] t.tokens[i + 2])
  ending : s.ending = .dry ↔ t.ending = .dry

namespace TokenSource.LooksLike

variable {s t : TokenSource}

theorem kind (h : s.LooksLike t) {i : Nat} (hs : i < s.tokens.length) (ht : i < t.tokens.length) :
    t.tokens[i].kind = s.tokens[i].kind := by
  have := congrArg (·[i]?) h.kinds
  simpa [hs, ht] using this.symm

theorem symm (h : s.LooksLike t) : t.LooksLike s where
  kinds := h.kinds.symm
  touching i ht hs hp hc hn := (h.touching i hs ht ((h.kind (by omega) (by omega)).symm.trans hp)
    ((h.kind (by omega) (by omega)).symm.trans hc) ((h.kind (by omega) (by omega)).symm.trans hn)).symm
  ending := h.ending.symm

end TokenSource.LooksLike

/-! ## Their buffers -/

namespace Buffer

theorem splitEnd_kinds {ss ts : List Token} (h : ss.map Token.kind = ts.map Token.kind) :
    (splitEnd ss).1.map Token.kind = (splitEnd ts).1.map Token.kind ∧
      (splitEnd ss).2.isSome = (splitEnd ts).2.isSome := by
  induction ss generalizing ts with
  | nil =>
    obtain rfl := List.map_eq_nil_iff.mp h.symm
    exact ⟨rfl, rfl⟩
  | cons s ss ih =>
    obtain _ | ⟨t, ts⟩ := ts
    · cases h
    obtain ⟨hk, ht⟩ := List.cons.inj h
    obtain ⟨hb, hl⟩ := ih ht
    unfold splitEnd Token.isEndOfFile
    rw [hk]
    split
    · exact ⟨rfl, rfl⟩
    · exact ⟨congrArg₂ List.cons hk hb, hl⟩

theorem size_ofSource (s : TokenSource) :
    (ofSource s).size = (splitEnd s.tokens).1.length + 1 := by
  obtain ⟨last, -, h⟩ := tokens_ofSource s
  simp [size, h]

theorem get_ofSource (s : TokenSource) {i : Nat} (hi : i < (splitEnd s.tokens).1.length) :
    ∃ hs : i < s.tokens.length, (ofSource s).get i = s.tokens[i] := by
  obtain ⟨last, -, h⟩ := tokens_ofSource s
  have hp := splitEnd_isPrefix s.tokens
  exact ⟨Nat.lt_of_lt_of_le hi hp.length_le, (get_before h hi).trans (hp.getElem hi)⟩

theorem kind_ofSource (s : TokenSource) {i : Nat} (hi : (splitEnd s.tokens).1.length ≤ i) :
    ((ofSource s).get i).kind = .endOfFileToken := by
  obtain ⟨last, -, h⟩ := tokens_ofSource s
  exact kind_behind h (closed_ofSource s).ends hi

theorem fatal_ofSource (s : TokenSource) : (ofSource s).fatal =
    if (splitEnd s.tokens).2.isSome then none
    else some (s.ending.error (lastStop (splitEnd s.tokens).1)) := by
  unfold ofSource
  cases splitEnd s.tokens with
  | mk before last => cases last <;> rfl

end Buffer

namespace TokenSource.LooksLike

variable {s t : TokenSource} (h : s.LooksLike t)

include h

theorem before : (Buffer.splitEnd s.tokens).1.length = (Buffer.splitEnd t.tokens).1.length := by
  simpa using congrArg List.length (Buffer.splitEnd_kinds h.kinds).1

theorem get_kind (i : Nat) :
    ((Buffer.ofSource t).get i).kind = ((Buffer.ofSource s).get i).kind := by
  by_cases hi : i < (Buffer.splitEnd s.tokens).1.length
  · obtain ⟨hs, he⟩ := Buffer.get_ofSource s hi
    obtain ⟨ht, he'⟩ := Buffer.get_ofSource t (h.before ▸ hi)
    rw [he, he']
    exact h.kind hs ht
  · rw [Buffer.kind_ofSource s (by omega), Buffer.kind_ofSource t (by rw [← h.before]; omega)]

theorem qualified (i : Nat) :
    (Buffer.ofSource t).qualified i = (Buffer.ofSource s).qualified i := by
  unfold Buffer.qualified
  rw [h.get_kind, h.get_kind, h.get_kind]
  by_cases hk : (((Buffer.ofSource s).get i).kind == .identifier &&
      ((Buffer.ofSource s).get (i + 1)).kind == .colonToken &&
      ((Buffer.ofSource s).get (i + 2)).kind == .identifier) = true
  · simp only [Bool.and_eq_true, beq_iff_eq] at hk
    obtain ⟨⟨hp, hc⟩, hn⟩ := hk
    have hi : i + 2 < (Buffer.splitEnd s.tokens).1.length := by
      by_contra hi
      rw [Buffer.kind_ofSource s (by omega)] at hn
      cases hn
    have hi' := h.before ▸ hi
    obtain ⟨_, hs⟩ := Buffer.get_ofSource s (Nat.lt_of_add_right_lt hi)
    obtain ⟨_, hs₁⟩ := Buffer.get_ofSource s (Nat.lt_of_succ_lt hi)
    obtain ⟨hl, hs₂⟩ := Buffer.get_ofSource s hi
    obtain ⟨_, ht⟩ := Buffer.get_ofSource t (Nat.lt_of_add_right_lt hi')
    obtain ⟨_, ht₁⟩ := Buffer.get_ofSource t (Nat.lt_of_succ_lt hi')
    obtain ⟨hl', ht₂⟩ := Buffer.get_ofSource t hi'
    have := h.touching i hl hl' (hs ▸ hp) (hs₁ ▸ hc) (hs₂ ▸ hn)
    rw [Bool.eq_iff_iff]
    simp only [hs, hs₁, hs₂, ht, ht₁, ht₂, Bool.and_eq_true, beq_iff_eq, and_assoc]
    exact and_congr_right fun _ => and_congr_right fun _ => and_congr_right fun _ => this.symm
  · rw [Bool.not_eq_true] at hk
    rw [hk]
    rfl

theorem size : (Buffer.ofSource t).size = (Buffer.ofSource s).size := by
  rw [Buffer.size_ofSource, Buffer.size_ofSource, h.before]

end TokenSource.LooksLike

/-! ## Trees -/

/-- The unit without byte ranges and without the texts of names. -/
def ParseTree.shape (t : ParseTree) : CompilationUnit :=
  relabel { verbatim := false, rename := fun _ => "" } t.root

/-- The same nodes over the same tokens, with the same flags, and diagnostics that are the same but
for their words and places. -/
structure ParseTree.Resembles (t u : ParseTree) : Prop where
  shape : t.shape = u.shape
  diagnostics : t.diagnostics.map Diagnostic.outline = u.diagnostics.map Diagnostic.outline

/-- Two results of reading, trees that resemble each other or errors of one kind. -/
inductive SameOutcome : Except ParseError ParseTree → Except ParseError ParseTree → Prop
  | tree {t u : ParseTree} (h : t.Resembles u) : SameOutcome (.ok t) (.ok u)
  | source (f g : SourceFailure) : SameOutcome (.error (.source f)) (.error (.source g))
  | missingEndOfInput (i j : Nat) :
      SameOutcome (.error (.missingEndOfInput i)) (.error (.missingEndOfInput j))

theorem Diagnostics.record_outline {ds es : Diagnostics} {d e : Diagnostic}
    (h : ds.toList.map Diagnostic.outline = es.toList.map Diagnostic.outline)
    (hd : d.outline = e.outline) (file file' : String) (limit : Nat) :
    (ds.record file limit d).toList.map Diagnostic.outline =
      (es.record file' limit e).toList.map Diagnostic.outline := by
  have hs : es.size = ds.size := by simpa [size] using (congrArg List.length h).symm
  unfold Diagnostics.record
  rw [hs]
  split
  · simp only [add, List.map_append, h, List.map_cons, hd]
  · split
    · simp only [add, List.map_append, h, List.map_cons]
      rfl
    · exact h

/-- The buffers of two units that look alike. -/
def Likeness.ofSources {u v : SourceUnit} (h : u.source.LooksLike v.source) (options : Options) :
    Likeness where
  first := { buffer := .ofSource u.source, options := options, file := u.file }
  second := { buffer := .ofSource v.source, options := options, file := v.file }
  start := 0
  shift := 0
  verbatim := false
  rename _ := ""
  rename' _ := ""
  nesting := rfl
  names := rfl
  size := h.size
  kinds := h.get_kind
  qualified := h.qualified
  same hv := by cases hv
  recorded _ ds es := ds.toList.map Diagnostic.outline = es.toList.map Diagnostic.outline
  count _ _ _ hr := hr
  record _ _ _ _ _ hr _ hd := Diagnostics.record_outline hr hd.outline _ _ _

/-- Reading the second unit gives what reading the first one does, but for texts and offsets. -/
theorem SourceUnit.parse?_of_looksLike {u v : SourceUnit} {options : Options}
    (h : u.source.LooksLike v.source) {r : Except ParseError ParseTree}
    (hr : u.parse? options = some r) : ∃ r', v.parse? options = some r' ∧ SameOutcome r r' := by
  let L := Likeness.ofSources h options
  obtain ⟨⟨root, s⟩, hp, rfl⟩ := Option.map_eq_some_iff.mp hr
  have hl : (Buffer.ofSource u.source).steps ≤ (Buffer.ofSource v.source).steps := by
    have := h.size
    unfold Buffer.steps
    omega
  have hs : L.States {} {} :=
    ⟨rfl, Nat.le_refl _, rfl, rfl, rfl, fun _ _ _ => iff_of_false nofun nofun, rfl⟩
  have hn : L.Names .text .text := L.names_hidden (fun _ _ => rfl) .text .text
  obtain ⟨root', s', hp', hroot, hs'⟩ :=
    follows_compilationUnit (L.recursions hn hl) [] 0 hs hp
  refine ⟨_, Option.map_eq_some_iff.mpr ⟨(root', s'), hp', rfl⟩, ?_⟩
  have he := (Buffer.splitEnd_kinds h.kinds).2
  dsimp only [outcome]
  rw [Buffer.fatal_ofSource, Buffer.fatal_ofSource, ← he]
  cases (Buffer.splitEnd u.source.tokens).2.isSome with
  | true => exact .tree ⟨hroot, hs'.recorded⟩
  | false =>
    have hd := h.ending
    cases hu : u.source.ending <;> cases hv : v.source.ending <;> simp only [hu, hv] at hd
    · exact .missingEndOfInput _ _
    · simp at hd
    · simp at hd
    · exact .source _ _

/-- Kinds of tokens, and whether the parts of names with packages touch, decide whether reading a
unit ends, whether it gives a tree, the shape of that tree, and which errors are found. -/
theorem parse?_structure {u v : SourceUnit} {options : Options} (h : u.source.LooksLike v.source) :
    Option.Rel SameOutcome (u.parse? options) (v.parse? options) := by
  cases hu : u.parse? options with
  | some r =>
    obtain ⟨r', hr', hs⟩ := SourceUnit.parse?_of_looksLike h hu
    exact hr' ▸ .some hs
  | none =>
    cases hv : v.parse? options with
    | none => exact .none
    | some r' =>
      obtain ⟨r, hr, -⟩ := SourceUnit.parse?_of_looksLike h.symm hv
      rw [hu] at hr
      cases hr

/-- A file that holds a name with a package and nothing else. -/
def SourceUnit.lonelyName (package name : String) : SourceUnit :=
  let colon := package.utf8ByteSize
  let stop := colon + 1 + name.utf8ByteSize
  ⟨"name.bal", { tokens := [.place .identifier package 0, .fixed .colonToken colon,
    .place .identifier name (colon + 1), .endOfFile stop] }⟩

theorem lonelyNames_structure :
    (SourceUnit.lonelyName "http" "Request").source.LooksLike
        (SourceUnit.lonelyName "io" "x").source ∧
      ∃ t u, (SourceUnit.lonelyName "http" "Request").parse? {} = some (.ok t) ∧
        (SourceUnit.lonelyName "io" "x").parse? {} = some (.ok u) ∧ t.Resembles u := by
  have h : (SourceUnit.lonelyName "http" "Request").source.LooksLike
      (SourceUnit.lonelyName "io" "x").source := by
    refine ⟨rfl, fun i hs _ hp hc hn => ?_, Iff.rfl⟩
    obtain _ | _ | i := i
    · exact iff_of_true ⟨rfl, rfl⟩ ⟨rfl, rfl⟩
    · cases hp
    · exact absurd (show i + 4 < 4 from hs) (by omega)
  refine ⟨h, ?_⟩
  have hr : Option.Rel SameOutcome (some (.ok _)) (some (.ok _)) := @parse?_structure _ _ {} h
  cases hr with
  | some hr =>
    cases hr with
    | tree hr => exact ⟨_, _, rfl, rfl, hr⟩

end BallerinaSyntax
