import BallerinaSyntax.Proofs.Capping
import BallerinaSyntax.Proofs.Halting.Unit

/-!
The bound on steps decides nothing. More levels change nothing that is read with fewer, and what is
read with any number of levels at all is read with those that a buffer gets.
-/

namespace BallerinaSyntax

open Grammar Parse

/-! ## More levels -/

/-- A unit looks like itself: both runs have one limit, and record the same. -/
def Likeness.self (scope : Scope) : Likeness :=
  { limits scope scope.options.maxDiagnostics scope.options.maxDiagnostics with
    recorded := fun _ ds es => ds = es
    count := fun _ _ _ h => h
    record := by
      rintro n ds _ d e rfl - hd
      rw [hd.same rfl]
      rfl }

namespace Likeness

variable {scope : Scope} {s t : State}

theorem states_self (scope : Scope) (s : State) : (Likeness.self scope).States s s where
  position := rfl
  inside := Nat.zero_le _
  errorCount := rfl
  unwinding := rfl
  depthReported := rfl
  lastErrorAt i j h := by
    obtain rfl : i = j := h
    exact Iff.rfl
  recorded := rfl

/-- In a unit that looks like itself only a state itself corresponds to it. -/
theorem States.eq_self (h : (Likeness.self scope).States s t) : t = s := by
  obtain ⟨position, diagnostics, errorCount, lastErrorAt, unwinding, depthReported⟩ := s
  obtain ⟨position', diagnostics', errorCount', lastErrorAt', unwinding', depthReported'⟩ := t
  obtain ⟨hp, -, he, hu, hd, hl, hr⟩ := h
  obtain rfl : position = position' := hp
  obtain rfl : errorCount' = errorCount := he
  obtain rfl : unwinding' = unwinding := hu
  obtain rfl : depthReported' = depthReported := hd
  obtain rfl : diagnostics = diagnostics' := hr
  obtain rfl : lastErrorAt' = lastErrorAt := Option.ext fun i => hl i i rfl
  rfl

end Likeness

/-- A production that reads the same in a recursion of more levels. -/
theorem Follows.levels {α : Type} [Relabels α] [Unmoved α] {p : Parse α} {scope : Scope}
    (hp : Follows (Likeness.self scope) p p) {n m : Nat} (hnm : n ≤ m) {s t : State} {a : α}
    (h : p (recursion n) scope s = some (a, t)) : p (recursion m) scope s = some (a, t) := by
  have hrecursions := (Likeness.self scope).recursions (Likeness.names_same rfl rfl .text) hnm
  obtain ⟨b, t', hb, halike, hstates⟩ :=
    hp hrecursions scope.recovery scope.depth (Likeness.states_self scope s) h
  have hb' : p (recursion m) scope s = some (b, t') := hb
  have ha : relabel {} a = relabel {} b := halike
  rw [relabel_self, relabel_self] at ha
  rw [hb', ha, hstates.eq_self]

/-! ## Levels enough -/

/-- A unit that is read with some number of levels is read the same with any that are enough for its
buffer. -/
theorem Buffer.read_of_levels {b : Buffer} (hb : b.Ends) {file : String} {options : Options}
    (hd : 1 ≤ options.maxNestingDepth) {n m : Nat} {root : CompilationUnit} {s : State}
    (h : compilationUnit (recursion n) { buffer := b, options := options, file := file } {} =
      some (root, s)) (hm : 5 * b.size + 6 ≤ m) :
    compilationUnit (recursion m) { buffer := b, options := options, file := file } {} =
      some (root, s) := by
  have hmore : ∀ m, n ≤ m → compilationUnit (recursion m)
      { buffer := b, options := options, file := file } {} = some (root, s) := by
    intro m hm
    exact follows_compilationUnit.levels hm h
  have hs : Scope.Awaits { buffer := b, options := options, file := file } {}
      fun r => compilationUnit r { buffer := b, options := options, file := file } {} := by
    refine ⟨⟨hb, b.nonempty⟩, .inr ⟨n, fun m hm => ?_⟩⟩
    rw [hmore m hm]
    rfl
  obtain ⟨root', s', henough⟩ := compilationUnit_awaited hs hd
  have hlast := henough (max n m) (Nat.le_trans hm (Nat.le_max_right _ _))
  rw [hmore _ (Nat.le_max_left _ _)] at hlast
  rw [henough m hm, hlast]

/-- A unit that is read with some number of steps is read with those that its buffer gets. -/
theorem Buffer.parse?_of_levels {b : Buffer} (hb : b.Ends) {file : String} {options : Options}
    (hd : 1 ≤ options.maxNestingDepth) {n : Nat} {root : CompilationUnit} {s : State}
    (h : compilationUnit (recursion n) { buffer := b, options := options, file := file } {} =
      some (root, s)) : b.parse? file options = some (root, s) := by
  have hsteps : 5 * b.size + 6 ≤ b.steps := by
    unfold Buffer.steps
    omega
  exact read_of_levels hb hd h hsteps

/-- What is not read with levels enough for its buffer is not read at all. -/
theorem SourceUnit.parse?_eq_none_of_levels {u : SourceUnit} {options : Options}
    (hd : 1 ≤ options.maxNestingDepth) {n : Nat}
    (hn : 5 * (Buffer.ofSource u.source).size + 6 ≤ n)
    (h : compilationUnit (recursion n)
      { buffer := .ofSource u.source, options := options, file := u.file } {} = none) :
    u.parse? options = none := by
  refine Option.map_eq_none_iff.mpr ?_
  cases hread : (Buffer.ofSource u.source).parse? u.file options with
  | none => rfl
  | some x =>
    have hsame := Buffer.read_of_levels (Buffer.closed_ofSource u.source).ends hd hread hn
    cases h.symm.trans hsame

/-- Reading a unit has no result only if no number of steps gives it one. -/
theorem SourceUnit.parse?_eq_none_iff {u : SourceUnit} {options : Options}
    (hd : 1 ≤ options.maxNestingDepth) :
    u.parse? options = none ↔ ∀ n, compilationUnit (recursion n)
      { buffer := .ofSource u.source, options := options, file := u.file } {} = none := by
  have hends : (Buffer.ofSource u.source).Ends := (Buffer.closed_ofSource u.source).ends
  constructor
  · intro h n
    cases hn : compilationUnit (recursion n)
        { buffer := .ofSource u.source, options := options, file := u.file } {} with
    | none => rfl
    | some x =>
      have hread := Buffer.parse?_of_levels hends hd hn
      have hnone := Option.map_eq_none_iff.mp h
      rw [hread] at hnone
      cases hnone
  · intro h
    exact Option.map_eq_none_iff.mpr (h _)

end BallerinaSyntax
