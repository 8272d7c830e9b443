import BallerinaSyntax.Proofs.Reading.Definition
import BallerinaSyntax.ParseTree

/-!
The contract of the whole grammar. Every goal keeps it at every level of the recursion, and so
does a unit, which alone takes the end of the file.
-/

namespace BallerinaSyntax

open Parse Condition Grammar

/-! ## Goals -/

theorem builds_missingExpression (m : Mark) : Builds m [] (erred m) missingExpression :=
  (builds_placeholder m _).andThen fun _ => .done (.refl _)

theorem builds_missingType (m : Mark) : Builds m [] (erred m) missingType :=
  (builds_placeholder m _).andThen fun _ => .done (.refl _)

theorem builds_missingReference (m : Mark) : Builds m [] (erred m) missingReference :=
  (builds_placeholder m _).andThen fun _ => .done (.refl _)

theorem builds_missingBlock (m : Mark) : Builds m [] (erred m) missingBlock :=
  (builds_placeholder m _).andThen fun _ => .done (.refl _)

theorem builds_missingBody (m : Mark) : Builds m [] (erred m) missingBody :=
  (builds_placeholder m _).andThen fun _ => .done (.refl _)

/-- The one placeholder with another one in it. -/
theorem builds_missingPattern (m : Mark) : Builds m [] (erred m) missingPattern := by
  intro r scope hr hb s a t hs hP he
  have hm : Since scope.buffer ⟨s.position, m.errors⟩ [] s := by
    constructor <;> simp [hs.inside, hs.errors, hs.consistent]
  obtain ⟨info, u, hu, he⟩ := bind_eq_some.mp he
  cases (show some (NodeInfo.placeholder _ s.position (scope.buffer.get s.position).range.start, s)
    = some (info, u) from hu)
  obtain ⟨target, u, hu, he⟩ := bind_eq_some.mp he
  have ht := builds_missingReference ⟨s.position, m.errors⟩ hr hb hm hP hu
  cases (show some (Tree.missingReference _, s) = some (target, u) from hu)
  obtain ⟨rfl, rfl⟩ := pure_eq_some.mp he
  refine hs.append (n := ⟨s.position, m.errors⟩) rfl (Nat.le_refl _) (Nat.le_refl _) <|
    ht.node (by simp) rfl ?_ ?_ (fun _ => hP) fun _ => hP
  · simp [NodeInfo.placeholder, TokenRange.empty, Buffer.bytesOf]
  · exact ⟨fun _ => hP, fun _ => rfl⟩

theorem reads_rule {c : Category} (goal : Goal c) : Reads (rule goal) := by
  cases goal with
  | expression power => exact .nested (reads_climb sound_expressionRule power) builds_missingExpression
  | typeName power => exact .nested (reads_climb sound_typeRule power) builds_missingType
  | reference => exact .nested (reads_climb sound_referenceRule _) builds_missingReference
  | statement => exact reads_statementBody
  | block => exact .nested reads_blockBody builds_missingBlock
  | callableBody => exact .nested reads_callableBodyInner builds_missingBody
  | xmlElement => exact reads_xmlElementBody
  | pattern => exact .nested reads_patternBody builds_missingPattern

theorem sound_recursion (levels : Nat) : (recursion levels).Sound := by
  induction levels with
  | zero => exact ⟨fun _ _ _ _ _ _ _ _ _ _ he => (nomatch he), rfl⟩
  | succ levels ih =>
    refine ⟨fun _ goal _ m hb _ _ _ hs _ he => ?_, rfl⟩
    exact reads_rule goal any m ih hb hs trivial he

/-! ## Units -/

/-- Only the last token of the buffer is the end of the file. -/
structure Buffer.Closed (b : Buffer) : Prop where
  ends : b.Ends
  before : ∀ i, i + 1 < b.size → (b.get i).kind ≠ .endOfFileToken

theorem rounds_stop {β γ : Type} {turn : β → Parse (Parse.Turn β γ)} {Q : State → Prop}
    {r : Recursion} {scope : Scope}
    (h : ∀ b s c t, turn b r scope s = some (.stop c, t) → Q t) (n : Nat) {b : β} {s : State} {c : γ}
    {t : State} (he : Parse.rounds turn n b r scope s = some (c, t)) : Q t := by
  induction n generalizing b s with
  | zero => cases he
  | succ n ih =>
    obtain ⟨x, u, hx, he⟩ := bind_eq_some.mp he
    cases x with
    | again b => exact ih he
    | stop c =>
      obtain ⟨rfl, rfl⟩ := pure_eq_some.mp he
      exact h _ _ _ _ hx

/-- All items are read when the end of the file is next. -/
theorem unitItems_stop {r : Recursion} {scope : Scope} {s t : State} {items : UnitItems}
    (h : unitItems r scope s = some (items, t)) : scope.kindAt t 0 = .endOfFileToken := by
  refine rounds_stop (Q := fun t => scope.kindAt t 0 = .endOfFileToken) (fun items s c t h => ?_) _ h
  have round : ∀ s, (atEnd >>= fun stops => if stops = true then pure (.stop items) else
      Parse.progressing "a definition" (unitItem items) >>= fun items => pure (.again items) :
        Parse (Parse.Turn UnitItems UnitItems)) r scope s = some (.stop c, t) →
      scope.kindAt t 0 = .endOfFileToken := by
    intro s h
    obtain ⟨stops, u, hu, h⟩ := bind_eq_some.mp h
    cases hu
    split at h
    · rename_i hk
      obtain ⟨-, rfl⟩ := pure_eq_some.mp h
      exact beq_iff_eq.mp hk
    · obtain ⟨_, _, -, h⟩ := bind_eq_some.mp h
      cases h
  obtain ⟨unwinding, u, -, h⟩ := bind_eq_some.mp h
  split at h
  · obtain ⟨_, _, -, h⟩ := bind_eq_some.mp h
    exact round _ h
  · exact round _ h

/-- The last token of a unit. -/
def Buffer.lastLeaf (b : Buffer) (s : State) : Leaf where
  kind := .endOfFileToken
  index := s.position
  range := (b.get s.position).range

theorem pieces_lastLeaf (b : Buffer) (s : State) :
    pieces (b.lastLeaf s) = [(.token (b.lastLeaf s), .nil)] := rfl

/-- Past the end of the file. -/
def State.past (s : State) : State := { s with position := s.position + 1 }

theorem bumpEndOfFile_eq {scope : Scope} {s : State} (h : scope.kindAt s 0 = .endOfFileToken)
    (r : Recursion) : bumpEndOfFile r scope s = some (scope.buffer.lastLeaf s, s.past) := by
  have hk : (scope.buffer.get (s.position + 0)).isEndOfFile = true := beq_iff_eq.mpr h
  change (if _ then _ else _ : Parse Leaf) _ _ _ = _
  rw [if_pos hk]
  rfl

/-- A unit is its items and the end of the file, under a node over all of it. -/
theorem compilationUnit_eq {r : Recursion} {scope : Scope} {u : CompilationUnit} {t : State}
    (h : compilationUnit r scope {} = some (u, t)) :
    ∃ items s, unitItems r scope {} = some (items, s) ∧ t = s.past ∧
      u = ⟨scope.buffer.nodeOf ⟨0, 0⟩ s.past .compilationUnit, items.imports.toList,
        items.definitions.toList, scope.buffer.lastLeaf s⟩ := by
  obtain ⟨m, s₀, hm, h⟩ := bind_eq_some.mp h
  cases hm
  obtain ⟨items, s, hi, h⟩ := bind_eq_some.mp h
  obtain ⟨endOfFile, s', he, h⟩ := bind_eq_some.mp h
  rw [bumpEndOfFile_eq (unitItems_stop hi)] at he
  cases he
  cases h
  exact ⟨items, s, hi, rfl, rfl⟩

/-- The node over a whole buffer fits what was read up to its last token, and that token. -/
theorem Since.whole {b : Buffer} {read : List (Part × Parts)} {s : State}
    (h : Since b ⟨0, 0⟩ read s) (hp : s.position + 1 = b.size) :
    (b.nodeOf ⟨0, 0⟩ s.past .compilationUnit).Fits b
      (read ++ [(.token (b.lastLeaf s), .nil)]) := by
  have hl : (Part.token (b.lastLeaf s)).extent = ⟨s.position, b.size⟩ := by
    simp [Part.extent, Leaf.extent, Buffer.lastLeaf, hp]
  refine ⟨Nat.zero_le _, Nat.le_of_eq hp, b.nonempty, ?_, fun x hx => ?_, ?_, fun x hx e => ?_,
    by rintro ⟨⟩, by rintro ⟨⟩⟩
  · exact Buffer.rangeOf_getD (Nat.zero_le _) (Nat.le_of_eq hp)
  · change 0 ≤ _ ∧ _ ≤ s.position + 1
    rcases List.mem_append.mp hx with hx | hx
    · have := h.within x hx
      omega
    · obtain rfl := List.mem_singleton.mp hx
      simp [hl, hp]
  · refine List.pairwise_append.mpr ⟨h.apart, List.pairwise_singleton .., fun x hx y hy => .inl ?_⟩
    obtain rfl := List.mem_singleton.mp hy
    simpa [hl] using (h.within x hx).2
  · rcases List.mem_append.mp hx with hx | hx
    · exact decide_eq_true (h.noticed x hx e)
    · obtain rfl := List.mem_singleton.mp hx
      cases e

/-- What a unit is when it is read: a tree that fits the tokens, over all of them. -/
theorem compilationUnit_sound {levels : Nat} {scope : Scope} {u : CompilationUnit} {t : State}
    (hb : scope.buffer.Closed) (h : compilationUnit (recursion levels) scope {} = some (u, t)) :
    (parts u).Sound scope.buffer ∧ u.info.tokens = ⟨0, scope.buffer.size⟩ ∧
      (u.info.flags.hasError = true ↔ t.diagnostics.toList ≠ []) := by
  obtain ⟨items, s, hi, rfl, rfl⟩ := compilationUnit_eq h
  have hc : State.Consistent {} := by constructor <;> simp [Diagnostics.empty]
  have hs : Since scope.buffer ⟨0, 0⟩ (pieces items) s :=
    reads_unitItems any _ (sound_recursion levels) hb.ends (Since.refl scope.buffer.nonempty hc)
      trivial hi
  have hk := unitItems_stop hi
  have hp : s.position + 1 = scope.buffer.size := by
    have := hs.inside
    by_contra hn
    exact hb.before s.position (by omega) hk
  refine ⟨?_, ?_, ?_⟩
  · have hi := hs.whole hp
    refine Parts.sound_iff.mpr fun x hx => ?_
    obtain rfl := List.mem_singleton.mp hx
    refine ⟨?_, Parts.sound_iff.mpr fun y hy => ?_⟩
    · change NodeInfo.Fits _ _ _
      simpa [pieces_lastLeaf] using hi
    have hy : y ∈ pieces items ++ [(.token (scope.buffer.lastLeaf s), .nil)] := by
      simpa [pieces_lastLeaf] using hy
    rcases List.mem_append.mp hy with hy | hy
    · exact hs.fits y hy
    · obtain rfl := List.mem_singleton.mp hy
      exact ⟨⟨⟨hs.inside, hk.symm, rfl⟩, rfl⟩, by simp⟩
  · simp [Buffer.nodeOf, State.past, hp]
  · exact decide_eq_true_iff.trans hs.consistent.recorded

end BallerinaSyntax
