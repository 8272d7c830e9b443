import BallerinaSyntax.Proofs.Following.Primitive

/-!
Going on after an error in two units that look alike. What is skipped in one is skipped in the
other, and an attempt that fails in one fails in the other.
-/

namespace BallerinaSyntax

open Parse

variable {α β : Type} [Relabels α] [Relabels β] {L : Likeness}

/-! ## Skipping -/

theorem Likeness.seek_eq (stop : Kind → Bool) (count i : Nat) :
    L.Opposite (L.first.buffer.seek stop count (i + L.start))
      (L.second.buffer.seek stop count (i + L.shift)) := by
  induction count generalizing i with
  | zero => exact Nat.add_right_comm ..
  | succ count ih =>
    unfold Buffer.seek
    rw [L.kinds]
    split
    · exact Nat.add_right_comm ..
    · rw [Nat.add_right_comm i L.start, Nat.add_right_comm i L.shift]
      exact ih (i + 1)

theorem Likeness.found_eq (recovery : List (List Kind)) (depth : Nat) (stop : Kind → Bool)
    {s t : State} (h : L.States s t) :
    L.Opposite ((L.firstIn recovery depth).found stop s)
      ((L.secondIn recovery depth).found stop t) := by
  obtain ⟨i, hs, ht⟩ := h.index 0
  have hcount : L.second.buffer.size - t.position = L.first.buffer.size - s.position := by
    have := L.size
    omega
  change L.Opposite (L.first.buffer.seek _ (L.first.buffer.size - s.position) (s.position + 0))
    (L.second.buffer.seek _ (L.second.buffer.size - t.position) (t.position + 0))
  rw [hcount, hs, ht]
  exact L.seek_eq ..

theorem Follows.scope {k l : Scope → Parse α}
    (hk : ∀ recovery depth, Follows L (k (L.firstIn recovery depth)) (l (L.secondIn recovery depth))) :
    Follows L (Parse.scope >>= k) (Parse.scope >>= l) :=
  fun _ _ hr recovery depth _ _ hs => hk recovery depth hr recovery depth hs

theorem follows_skipTo (stop : Kind → Bool) : Follows L (skipTo stop) (skipTo stop) := by
  intro r r' _ recovery depth s t hs _ _ he
  rw [skipTo_eq] at he
  cases he
  have hf := L.found_eq recovery depth stop hs
  refine ⟨_, _, skipTo_eq .., ?_, hs.move hf (Scope.le_found _ stop s)⟩
  change _ - s.position = _ - t.position
  have hp := hs.position
  unfold Likeness.Opposite at hf hp
  omega

theorem follows_skipUntil (sync : Kind → Bool) (lookingFor : String) :
    Follows L (skipUntil sync lookingFor) (skipUntil sync lookingFor) := by
  refine .scope fun recovery depth => .place fun _ _ hi => .token fun x y ht =>
    .describe fun _ _ hd => .give (follows_skipTo _) fun n => .ite ?_ (.done rfl)
  exact .located ht.range (fun hv => by rw [hd hv]) fun _ _ hp hd =>
    .bind (follows_report hi hp hd) fun _ => .done rfl

theorem follows_bumpUnexpected (lookingFor : String) :
    Follows L (bumpUnexpected lookingFor) (bumpUnexpected lookingFor) :=
  .token fun _ _ ht => .describe fun _ _ hd => .place fun _ _ hi =>
    .located ht.range (fun hv => by rw [hd hv]) fun _ _ hp hd =>
      .bind (follows_report hi hp hd) fun _ => follows_advance

theorem follows_progressing (what : String) {p q : Parse α} (hp : Follows L p q) :
    Follows L (progressing what p) (progressing what q) := by
  refine .place fun i i' hi => .bind hp fun a => .place fun j j' hj =>
    .see sees_isUnwinding fun _ => ?_
  have hij : (j == i) = (j' == i') := by
    unfold Likeness.Opposite at hi hj
    rw [Bool.eq_iff_iff, beq_iff_eq, beq_iff_eq]
    omega
  exact .iteOf (congrArg (· && _) hij)
    (.bind (follows_bumpUnexpected what) fun _ => .done a.alike) (.done a.alike)

/-! ## Closing -/

theorem Twins.opposite (x : Twins L Leaf) : L.Opposite x.first.index x.second.index :=
  congrArg Leaf.index x.alike

theorem Twins.alike_range (x : Twins L Leaf) : L.Alike x.first.range x.second.range :=
  congrArg Leaf.range x.alike

theorem follows_reportUnterminated (opening : Twins L Leaf) (close : Kind) (construct : String) :
    Follows L (reportUnterminated opening.first close construct)
      (reportUnterminated opening.second close construct) :=
  .located opening.alike_range (fun _ => rfl) fun _ _ hp hd =>
    .bind (follows_report opening.opposite hp hd) fun _ => follows_startUnwinding

theorem follows_expectClosing (opening : Twins L Leaf) (close : Kind) (construct : String) :
    Follows L (expectClosing opening.first close construct)
      (expectClosing opening.second close construct) := by
  refine .see (sees_atKind _) fun _ => .ite follows_bump <| .iteOf opening.missing_eq
    (follows_expect _) <| .see sees_isUnwinding fun _ => .ite ?_ ?_
  · exact .bind follows_countError fun _ => follows_missingToken _
  · exact .bind (follows_skipUntil _ _) fun _ => .see (sees_atKind _) fun _ => .ite follows_bump <|
      .bind (follows_reportUnterminated opening _ _) fun _ => follows_missingToken _

theorem follows_resynchronize (sync : List Kind) :
    Follows L (resynchronize sync) (resynchronize sync) :=
  .bind (follows_modify fun _ _ hs => { hs with unwinding := rfl, depthReported := rfl }) fun _ =>
    .bind (follows_skipTo _) fun _ => .done rfl

/-! ## Nesting and attempts -/

theorem Likeness.States.tooDeep {s t : State} (h : L.States s t) (recovery : List (List Kind))
    (depth : Nat) :
    L.States (s.tooDeep (L.firstIn recovery depth)) (t.tooDeep (L.secondIn recovery depth)) := by
  have hd : Diagnostic.Alike L.verbatim
      (.located L.first.file (L.first.buffer.get s.position).range.toSpan .nestingTooDeep
        [toString L.first.options.maxNestingDepth])
      (.located L.second.file (L.second.buffer.get t.position).range.toSpan .nestingTooDeep
        [toString L.second.options.maxNestingDepth]) :=
    ⟨rfl, fun hv => by
      rw [(L.same hv).2.1, show L.second.buffer.get t.position = _ from (h.token 0).same hv, L.nesting]
      rfl⟩
  unfold State.tooDeep
  have hr : L.States { s with depthReported := true } { t with depthReported := true } :=
    { h with depthReported := rfl }
  by_cases hs : s.depthReported
  · rw [if_pos hs, if_pos (h.depthReported.trans hs)]
    exact h.counted.unwound
  · rw [if_neg hs, if_neg (h.depthReported ▸ hs)]
    exact (hr.reported h.position ⟨rfl, rfl⟩ hd).unwound

theorem follows_nested {p q fallback fallback' : Parse α} (hp : Follows L p q)
    (hf : Follows L fallback fallback') : Follows L (nested p fallback) (nested q fallback') := by
  intro r r' hr recovery depth s t hs a s' he
  rw [nested_eq] at he ⊢
  have hn : (L.secondIn recovery depth).options.maxNestingDepth =
    (L.firstIn recovery depth).options.maxNestingDepth := L.nesting
  rw [hn]
  change (if _ ≤ depth then _ else _) = _ at he
  change ∃ b t', (if _ ≤ depth then _ else _) = _ ∧ _
  split at he
  · rw [if_pos ‹_›]
    exact hf hr recovery depth (hs.tooDeep recovery depth) he
  · rw [if_neg ‹_›]
    exact hp hr recovery (depth + 1) hs he

/-- Errors are counted in both runs or in none. -/
theorem Likeness.States.counts_eq {s t s' t' : State} (h : L.States s t) (h' : L.States s' t') :
    (t'.errorCount == t.errorCount) = (s'.errorCount == s.errorCount) := by
  rw [h.errorCount, h'.errorCount, Bool.eq_iff_iff, beq_iff_eq, beq_iff_eq]
  omega

theorem follows_attempt {p q : Parse (Option α)} (hp : Follows L p q) :
    Follows L (attempt p) (attempt q) := by
  intro r r' hr recovery depth s t hs a s' he
  unfold attempt at he ⊢
  cases hrun : p r (L.firstIn recovery depth) s with
  | none => rw [hrun] at he; cases he
  | some x =>
    obtain ⟨x, u⟩ := x
    obtain ⟨y, v, hrun', hxy, huv⟩ := hp hr recovery depth hs hrun
    rw [hrun] at he
    rw [hrun']
    obtain _ | x := x <;> obtain _ | y := y
    · cases he
      exact ⟨none, t, rfl, rfl, hs⟩
    · cases hxy
    · cases hxy
    · dsimp only at he ⊢
      rw [hs.counts_eq huv]
      split at he
      · cases he
        exact ⟨some y, v, if_pos ‹_›, hxy, huv⟩
      · cases he
        exact ⟨none, t, if_neg ‹_›, rfl, hs⟩

theorem follows_foresee {p q : Parse Bool} (hp : Follows L p q) :
    Follows L (foresee p) (foresee q) := by
  intro r r' hr recovery depth s t hs a s' he
  unfold foresee at he ⊢
  cases hrun : p r (L.firstIn recovery depth) s with
  | none => rw [hrun] at he; cases he
  | some x =>
    obtain ⟨x, u⟩ := x
    obtain ⟨y, v, hrun', hxy, huv⟩ := hp hr recovery depth hs hrun
    rw [hrun] at he
    cases he
    rw [hrun']
    refine ⟨_, t, rfl, ?_, hs⟩
    rw [hs.counts_eq huv, hxy.eq]
    rfl

/-! ## Lists -/

theorem follows_moreBehind (separator : Kind) {item item' : Parse α} (h : Follows L item item') :
    Follows L (moreBehind separator item) (moreBehind separator item') := by
  refine .many <| .see sees_isUnwinding fun unwinding => .ite (.done rfl) ?_
  exact .give (follows_accept _) fun separated => .ite (.item h) (.done rfl)

theorem follows_separatedBy (separator : Kind) {item item' : Parse α} (h : Follows L item item') :
    Follows L (separatedBy separator item) (separatedBy separator item') :=
  .bind h fun a => .bind (follows_moreBehind _ h) fun as => .done (a.cons as).alike

theorem follows_commaList {item item' : Parse α} (h : Follows L item item') :
    Follows L (commaList item) (commaList item') := follows_separatedBy _ h

theorem follows_listUntil (close : Kind) {item item' : Parse α} (h : Follows L item item') :
    Follows L (listUntil close item) (listUntil close item') :=
  .see (sees_atListEnd _) fun _ => .ite (.done rfl) (follows_commaList h)

theorem follows_listAfter (opening : Twins L Leaf) (close : Kind) {item item' : Parse α}
    (h : Follows L item item') :
    Follows L (listAfter opening.first close item) (listAfter opening.second close item') :=
  .iteOf opening.missing_eq (.done rfl) (follows_listUntil _ h)

/-- Members up to the closing brace. -/
theorem Follows.members {what : String} {member : α → Parse α} {a : α}
    (ha : L.Alike a a) (h : ∀ members : Twins L α,
      Follows L (member members.first) (member members.second)) :
    Follows L (Parse.loop (fun members => do
        if ← atListEnd .closeBraceToken then return .stop members
        return .again (← progressing what (member members))) a : Parse α)
      (Parse.loop (fun members => do
        if ← atListEnd .closeBraceToken then return .stop members
        return .again (← progressing what (member members))) a) :=
  .loop ha fun members => .see (sees_atListEnd _) fun _ =>
    .ite (.done congr(Turn.stop $(members.alike))) <|
      .bind (follows_progressing _ (h members)) fun next => .done congr(Turn.again $(next.alike))

variable {c : Category}

theorem follows_behind (k : Kind) {p q : Parse (Tree c)} (hp : Follows L p q) :
    Follows L (Grammar.behind k p) (Grammar.behind k q) :=
  .give (follows_accept _) fun _ => .ite (.bind hp fun t => .done congr(Tree.present $(t.alike)))
    (.done rfl)

theorem follows_whenever {condition condition' : Parse Bool} {p q : Parse (Tree c)}
    (hc : Follows L condition condition') (hp : Follows L p q) :
    Follows L (Grammar.whenever condition p) (Grammar.whenever condition' q) :=
  .give hc fun _ => .ite (.bind hp fun t => .done congr(Tree.present $(t.alike))) (.done rfl)

end BallerinaSyntax
