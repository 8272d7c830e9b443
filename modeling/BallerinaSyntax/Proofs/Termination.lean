import BallerinaSyntax.Proofs.Halting.Unit
import BallerinaSyntax.Proofs.Outcome

/-!
Reading a unit comes to an end if no token makes a construct around a list of statements wait for
what the list does not take. A goal costs three levels for every token that is left, and its rank.
-/

namespace BallerinaSyntax

open Grammar

/-- Tokens without workers, and behind the first service or object without what only the members of
one begin with. -/
structure TokenSource.Tame (s : TokenSource) : Prop where
  noWorker : ∀ t ∈ s.tokens, t.kind ≠ .workerKeyword
  noMember : ∀ t ∈ (s.tokens.dropWhile fun t => !holdsMembers t.kind).tail, t.kind ∉ memberStart

namespace Buffer

/-- Behind any keyword whose construct has members, not only behind the first one. -/
theorem pairwise_members {ts : List Token}
    (h : ∀ t ∈ (ts.dropWhile fun t => !holdsMembers t.kind).tail, t.kind ∉ memberStart) :
    ts.Pairwise fun t t' => holdsMembers t.kind = true → t'.kind ∉ memberStart := by
  induction ts with
  | nil => exact .nil
  | cons t rest ih =>
    cases hk : holdsMembers t.kind with
    | true =>
      have h : ∀ t' ∈ rest, t'.kind ∉ memberStart := by simpa [hk] using h
      refine List.pairwise_cons.mpr ⟨fun t' ht _ => h t' ht, ?_⟩
      exact List.pairwise_of_forall_mem_list fun _ _ t' ht _ => h t' ht
    | false =>
      refine List.pairwise_cons.mpr ⟨fun _ _ h => absurd (hk.symm.trans h) nofun, ih ?_⟩
      simpa [hk] using h

theorem tame_of_tokens {b : Buffer} {before : List Token} {last : Token}
    (h : b.tokens = (before ++ [last]).toArray) (he : b.Ends)
    (hw : ∀ t ∈ before, t.kind ≠ .workerKeyword)
    (hm : before.Pairwise fun t t' => holdsMembers t.kind = true → t'.kind ∉ memberStart) :
    b.Tame := by
  refine ⟨he, fun i => ?_, fun i j hl hk => ?_⟩
  · by_cases hi : i < before.length
    · rw [get_before h hi]
      exact hw _ (List.getElem_mem hi)
    · rw [kind_behind h he (by omega)]
      decide
  · by_cases hj : j < before.length
    · rw [get_before h hj]
      rw [get_before h (Nat.lt_trans hl hj)] at hk
      exact List.pairwise_iff_getElem.mp hm i j (Nat.lt_trans hl hj) hj hl hk
    · rw [kind_behind h he (by omega)]
      decide

theorem tame_ofSource {s : TokenSource} (h : s.Tame) : (ofSource s).Tame := by
  obtain ⟨last, -, ht⟩ := tokens_ofSource s
  have hb := (splitEnd_isPrefix s.tokens).sublist
  exact tame_of_tokens ht (closed_ofSource s).ends (fun t h' => h.noWorker t (hb.subset h'))
    ((pairwise_members h.noMember).sublist hb)

end Buffer

/-- Reading a unit comes to an end. Recursions with levels enough read all goals, at whatever place
and of whatever cost, and all of them read the same unit. -/
theorem parse?_terminates {u : SourceUnit} {options : Options} (ht : u.source.Tame)
    (hd : 1 ≤ options.maxNestingDepth) :
    (∃ result, u.parse? options = some result) ∧
      (∀ cost levels, cost + (2 * (Buffer.ofSource u.source).size + 3) ≤ levels →
        Serves (Buffer.ofSource u.source) cost levels) ∧
      ∃ unit s, ∀ levels, 5 * (Buffer.ofSource u.source).size + 6 ≤ levels →
        compilationUnit (recursion levels)
          { buffer := Buffer.ofSource u.source, options := options, file := u.file } {} =
            some (unit, s) := by
  obtain ⟨unit, s, h⟩ := @compilationUnit_halts ⟨Buffer.ofSource u.source, options, u.file, [], 0⟩
    (Buffer.tame_ofSource ht) rfl hd
  refine ⟨?_, serves _, unit, s, h⟩
  have hl := h (Buffer.ofSource u.source).steps (by unfold Buffer.steps; simp; omega)
  exact ⟨_, Option.map_eq_some_iff.mpr ⟨_, hl, rfl⟩⟩

theorem halfWritten_terminates : SourceUnit.halfWritten.source.Tame ∧
    ∃ result, SourceUnit.halfWritten.parse? {} = some result :=
  have ht : SourceUnit.halfWritten.source.Tame := ⟨by decide, by decide⟩
  ⟨ht, (parse?_terminates ht (by decide)).1⟩

end BallerinaSyntax
