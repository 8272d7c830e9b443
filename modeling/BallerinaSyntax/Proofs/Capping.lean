import BallerinaSyntax.Proofs.Following.Rule
import BallerinaSyntax.Proofs.Outcome
import BallerinaSyntax.Proofs.Unmoved
import Mathlib.Data.List.Induction

/-!
What the limit of diagnostics decides. What is read never depends on what was recorded, and what
is recorded under a limit is a beginning of what would be recorded without one, with a notice where
the rest was dropped.
-/

namespace BallerinaSyntax

/-! ## Recording under a limit -/

/-- Tells that more than `limit` diagnostics were found, where the first of the others was. -/
def Diagnostic.notice (file : String) (limit : Nat) (dropped : Diagnostic) : Diagnostic :=
  .located file (dropped.span.getD (.empty 0)) .tooManyDiagnostics [toString limit]

namespace Diagnostics

/-- What is recorded of some diagnostics under a limit. -/
def recordAll (file : String) (limit : Nat) (found : List Diagnostic) : Diagnostics :=
  found.foldl (·.record file limit ·) .empty

variable {file : String} {limit : Nat} {found : List Diagnostic}

theorem recordAll_snoc (d : Diagnostic) :
    recordAll file limit (found ++ [d]) = (recordAll file limit found).record file limit d := by
  simp [recordAll]

/-- Up to the limit everything is recorded; the next diagnostic becomes a notice, and all that are
behind it are dropped. -/
theorem recordAll_toList : (recordAll file limit found).toList =
    found.take limit ++ (found[limit]?.map (·.notice file limit)).toList := by
  induction found using List.reverseRecOn with
  | nil => simp [recordAll, empty]
  | append_singleton found d ih =>
    have hs : (recordAll file limit found).size = min found.length (limit + 1) := by
      rw [size, ih, List.length_append, List.length_take]
      cases h : found[limit]? with
      | none =>
        have := List.getElem?_eq_none_iff.mp h
        simp
        omega
      | some e =>
        obtain ⟨hl, -⟩ := List.getElem?_eq_some_iff.mp h
        simp
        omega
    rw [recordAll_snoc, record, hs]
    rcases Nat.lt_trichotomy found.length limit with h | h | h
    · rw [if_pos (by omega), add, ih]
      rw [List.take_of_length_le (by omega), List.take_of_length_le (by simp; omega),
        List.getElem?_eq_none (by omega), List.getElem?_eq_none (by simp; omega)]
      simp
    · rw [if_neg (by omega), if_pos (by omega), add, ih]
      rw [List.take_of_length_le (by omega), List.getElem?_eq_none (by omega), ← h]
      simp [Diagnostic.notice]
    · rw [if_neg (by omega), if_neg (by omega), ih, List.take_append_of_le_length (by omega),
        List.getElem?_append_left h]

end Diagnostics

/-- What is left of diagnostics of a file when only so many are recorded: all of them if there is
room, else the first ones and a warning where the next one was. -/
structure Diagnostic.Capped (file : String) (limit : Nat) (found kept : List Diagnostic) :
    Prop where
  within : found.length ≤ limit → kept = found
  beyond : ∀ h : limit < found.length, ∃ notice : Diagnostic,
    kept = found.take limit ++ [notice] ∧ notice.severity = .warning ∧ notice.code = 1023 ∧
      notice.file = some file ∧ notice.span = found[limit].span
  length : kept.length ≤ limit + 1
  errors : ∀ d ∈ kept.take limit, d.severity = .error

theorem Diagnostics.capped_recordAll {file : String} {limit : Nat} {found : List Diagnostic}
    (hf : ∀ d ∈ found, d.Placed .error) :
    Diagnostic.Capped file limit found (recordAll file limit found).toList := by
  have he : ∀ d ∈ found.take limit, d.severity = .error :=
    fun d hd => (hf d (List.mem_of_mem_take hd)).severity
  rw [recordAll_toList]
  by_cases h : limit < found.length
  · rw [List.getElem?_eq_getElem h]
    have hl : (found.take limit).length = limit := List.length_take_of_le (Nat.le_of_lt h)
    have hd := (hf _ (List.getElem_mem h)).span
    constructor
    case within => exact fun hl => absurd h (Nat.not_lt_of_le hl)
    case beyond =>
      refine fun _ => ⟨_, rfl, rfl, rfl, rfl, ?_⟩
      obtain ⟨span, hs⟩ := Option.isSome_iff_exists.mp hd
      simp [Diagnostic.notice, Diagnostic.located, hs]
    case length => simp [hl]
    case errors =>
      rwa [List.take_append_of_le_length (Nat.le_of_eq hl.symm), List.take_take, Nat.min_self]
  · have hl : found.length ≤ limit := Nat.le_of_not_lt h
    rw [List.getElem?_eq_none hl, Option.map_none, Option.toList_none, List.append_nil,
      List.take_of_length_le hl]
    rw [List.take_of_length_le hl] at he
    exact ⟨fun _ => rfl, fun h' => absurd h' h, by omega, by rwa [List.take_of_length_le hl]⟩

/-! ## Runs under two limits -/

/-- Two runs over one unit that differ in the limit: both record what is left of the same errors. -/
def Likeness.limits (scope : Scope) (limit limit' : Nat) : Likeness where
  first := { scope with options := { scope.options with maxDiagnostics := limit } }
  second := { scope with options := { scope.options with maxDiagnostics := limit' } }
  verbatim := true
  nesting := rfl
  names := rfl
  size := rfl
  kinds i := congrArg (fun j => (scope.buffer.get j).kind) (Nat.add_zero i)
  qualified i := congrArg scope.buffer.qualified (Nat.add_zero i)
  same _ := ⟨rfl, rfl, fun i => congrArg scope.buffer.get (Nat.add_zero i)⟩
  recorded _ ds es := ∃ found : List Diagnostic, (∀ d ∈ found, d.Placed .error) ∧
    ds = .recordAll scope.file limit found ∧ es = .recordAll scope.file limit' found
  count _ _ _ h := h
  record := by
    rintro n _ _ d e ⟨found, hf, rfl, rfl⟩ hp hd
    obtain rfl := hd.same rfl
    refine ⟨found ++ [d], fun x hx => ?_, (Diagnostics.recordAll_snoc d).symm,
      (Diagnostics.recordAll_snoc d).symm⟩
    rcases List.mem_append.mp hx with hx | hx
    · exact hf x hx
    · exact List.mem_singleton.mp hx ▸ hp

/-- Under another limit the same is read, and what is recorded is left of the same errors. -/
theorem Buffer.parse?_limits {b : Buffer} {file : String} {options : Options} {limit : Nat}
    {root : CompilationUnit} {s : State}
    (h : b.parse? file { options with maxDiagnostics := limit } = some (root, s)) (limit' : Nat) :
    ∃ s' found, b.parse? file { options with maxDiagnostics := limit' } = some (root, s') ∧
      (∀ d ∈ found, d.Placed .error) ∧ s.diagnostics = .recordAll file limit found ∧
      s'.diagnostics = .recordAll file limit' found := by
  let L := Likeness.limits { buffer := b, options := options, file := file } limit limit'
  have hs : L.States {} {} :=
    ⟨rfl, Nat.le_refl _, rfl, rfl, rfl, fun _ _ _ => iff_of_false nofun nofun,
      [], fun _ hd => (List.not_mem_nil hd).elim, rfl, rfl⟩
  obtain ⟨root', s', h', hr, hs'⟩ :=
    follows_compilationUnit (L.recursions (L.names_same rfl rfl .text) (Nat.le_refl _)) [] 0 hs h
  have hr : relabel {} root = relabel {} root' := hr
  rw [relabel_self, relabel_self] at hr
  obtain ⟨found, hf, hd, hd'⟩ := hs'.recorded
  exact ⟨s', found, hr ▸ h', hf, hd, hd'⟩

/-! ## Trees under two limits -/

/-- The same tree over the same tokens, with what is left of the diagnostics. -/
structure ParseTree.Capped (limit : Nat) (t u : ParseTree) : Prop where
  file : u.file = t.file
  root : u.root = t.root
  tokens : u.tokens = t.tokens
  diagnostics : Diagnostic.Capped t.file limit t.diagnostics u.diagnostics

/-- The limit of diagnostics only limits what is reported: if `t` is read with a limit that it does
not exceed, then with any other limit the same tree is read. -/
theorem parse?_capped {u : SourceUnit} {options : Options} {enough : Nat} {t : ParseTree}
    (h : u.parse? { options with maxDiagnostics := enough } = some (.ok t))
    (ht : t.diagnostics.length ≤ enough) (limit : Nat) :
    ∃ t', u.parse? { options with maxDiagnostics := limit } = some (.ok t') ∧
      t.Capped limit t' := by
  obtain ⟨root, s, hr, hfatal, rfl⟩ := SourceUnit.parse?_eq_ok.mp h
  obtain ⟨s', found, hr', hf, hs, hs'⟩ := Buffer.parse?_limits hr limit
  have hc : Diagnostic.Capped u.file enough found
      (Diagnostics.recordAll u.file enough found).toList :=
    Diagnostics.capped_recordAll hf
  have hall : s.diagnostics.toList = found := by
    by_cases hl : found.length ≤ enough
    · rw [hs]
      exact hc.within hl
    · obtain ⟨notice, hn, -⟩ := hc.beyond (Nat.lt_of_not_le hl)
      rw [hs, hn, List.length_append, List.length_take] at ht
      simp at ht
      omega
  refine ⟨_, SourceUnit.parse?_eq_ok.mpr ⟨root, s', hr', hfatal, rfl⟩, rfl, rfl, rfl, ?_⟩
  rw [hall, hs']
  exact Diagnostics.capped_recordAll hf

theorem halfWritten_capped : ∃ t, SourceUnit.halfWritten.parse? {} = some (.ok t) ∧
    t.diagnostics.length = 2 ∧ t.diagnostics.length ≤ 100 ∧
      ∃ t', SourceUnit.halfWritten.parse? { maxDiagnostics := 1 } = some (.ok t') ∧
        t.Capped 1 t' := by
  obtain ⟨t, h, -, ht, -⟩ := SourceUnit.parse?_halfWritten
  have hl : t.diagnostics.length ≤ 100 := by omega
  exact ⟨t, h, ht, hl, @parse?_capped SourceUnit.halfWritten {} 100 t h hl 1⟩

end BallerinaSyntax
