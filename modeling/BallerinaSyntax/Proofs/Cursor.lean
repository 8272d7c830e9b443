import BallerinaSyntax.Proofs.Outcome
import BallerinaSyntax.Token.Cursor

/-!
Reading a source only as far as somebody looks. However a cursor is moved, it shows the tokens that
a buffer of the whole source holds, and it takes nothing behind the first end-of-file token. A
source that runs dry or fails is noticed when its last token is asked for, and no way back makes
the cursor forget it. A run over a unit ends behind the last token, so it notices every failure.
-/

namespace BallerinaSyntax

/-! ## Sources with and without an end -/

namespace Buffer

variable {before rest : List Token} {last : Token}

theorem splitEnd_append (hb : ∀ t ∈ before, t.isEndOfFile = false) (rest : List Token) :
    splitEnd (before ++ rest) = (before ++ (splitEnd rest).1, (splitEnd rest).2) := by
  induction before with
  | nil => rfl
  | cons t before ih =>
    have ht := hb t List.mem_cons_self
    simp [splitEnd, ht, ih fun x hx => hb x (List.mem_cons_of_mem _ hx)]

theorem splitEnd_ended (hb : ∀ t ∈ before, t.isEndOfFile = false) (hl : last.isEndOfFile = true) :
    splitEnd (before ++ last :: rest) = (before, some last) := by
  simp [splitEnd_append hb, splitEnd, hl]

theorem splitEnd_endless (hb : ∀ t ∈ before, t.isEndOfFile = false) :
    splitEnd before = (before, none) := by
  simpa [splitEnd] using splitEnd_append hb []

variable {s : TokenSource}

/-- The buffer of a source with an end holds the tokens up to there. -/
theorem ofSource_ended (h : s.tokens = before ++ last :: rest)
    (hb : ∀ t ∈ before, t.isEndOfFile = false) (hl : last.isEndOfFile = true) :
    (ofSource s).tokens.toList = before ++ [last] ∧ (ofSource s).fatal = none := by
  unfold ofSource
  rw [h, splitEnd_ended hb hl]
  exact ⟨rfl, rfl⟩

/-- The buffer of a source without an end holds all tokens, an end that was made up, and why. -/
theorem ofSource_endless (hb : ∀ t ∈ s.tokens, t.isEndOfFile = false) :
    (ofSource s).tokens.toList = s.tokens ++ [s.ending.endOfFile (lastStop s.tokens)] ∧
      (ofSource s).fatal = some (s.ending.error (lastStop s.tokens)) := by
  unfold ofSource
  rw [splitEnd_endless hb]
  exact ⟨rfl, rfl⟩

theorem last_ofSource (s : TokenSource) :
    ((ofSource s).get ((ofSource s).size - 1)).isEndOfFile = true :=
  (closed_ofSource s).ends

end Buffer

namespace Cursor

variable {s : TokenSource} {c : Cursor}

/-! ## How far a cursor has come -/

/-- What a cursor has taken from a source, wherever it stands. -/
inductive Stage (s : TokenSource) : Cursor → Prop
  /-- Some tokens, none of which is the end of the file. -/
  | reading {taken rest : List Token} (position : Nat) (tokens : s.tokens = taken ++ rest)
      (inside : ∀ t ∈ taken, t.isEndOfFile = false) :
      Stage s { source := ⟨rest, s.ending⟩, taken := taken, position := position }
  /-- All tokens up to the end of the file, and no more. -/
  | ended {before rest : List Token} {last : Token} (position : Nat)
      (tokens : s.tokens = before ++ last :: rest) (inside : ∀ t ∈ before, t.isEndOfFile = false)
      (ends : last.isEndOfFile = true) :
      Stage s
        { source := ⟨rest, s.ending⟩, taken := before ++ [last], position := position,
          finished := true }
  /-- All tokens there are, and an end that was made up. -/
  | failed (position : Nat) (inside : ∀ t ∈ s.tokens, t.isEndOfFile = false) :
      Stage s
        { source := ⟨[], s.ending⟩, taken := s.tokens ++ [s.ending.endOfFile (lastStop s.tokens)],
          position := position, finished := true,
          fatal := some (s.ending.error (lastStop s.tokens)) }

namespace Stage

theorem start : Stage s (start s) := @reading s [] s.tokens 0 rfl (by simp)

theorem moved (h : Stage s c) (position : Nat) : Stage s { c with position := position } := by
  cases h with
  | reading _ tokens inside => exact .reading position tokens inside
  | ended _ tokens inside ends => exact .ended position tokens inside ends
  | failed _ inside => exact .failed position inside

/-- Taking one more token. -/
theorem pull (h : Stage s c) (hc : c.finished = false) : Stage s c.pull := by
  cases h with
  | ended => cases hc
  | failed => cases hc
  | @reading taken rest position tokens inside =>
    cases rest with
    | nil =>
      rw [List.append_nil] at tokens
      subst tokens
      exact .failed position inside
    | cons t rest =>
      by_cases ht : t.isEndOfFile = true
      · have := Stage.ended position tokens inside ht
        simpa only [Cursor.pull, ht] using this
      · have ht : t.isEndOfFile = false := by simpa using ht
        have hs : s.tokens = taken ++ [t] ++ rest := by simpa using tokens
        have hi : ∀ x ∈ taken ++ [t], x.isEndOfFile = false := by
          intro x hx
          rcases List.mem_append.mp hx with hx | hx
          · exact inside x hx
          · rwa [List.mem_singleton.mp hx]
        have := Stage.reading position hs hi
        simpa only [Cursor.pull, ht] using this

theorem pullTimes (h : Stage s c) (n : Nat) : Stage s (c.pullTimes n) := by
  induction n generalizing c with
  | zero => exact h
  | succ n ih =>
    unfold Cursor.pullTimes
    split
    · exact h
    · exact ih (h.pull (by simpa using ‹¬ c.finished = true›))

theorem fill (h : Stage s c) (index : Nat) : Stage s (c.fill index) := h.pullTimes _

end Stage

theorem pull_length (c : Cursor) : c.pull.taken.length = c.taken.length + 1 := by
  unfold pull
  split <;> simp

@[simp] theorem pull_position (c : Cursor) : c.pull.position = c.position := by
  unfold pull
  split <;> rfl

@[simp] theorem pullTimes_position (n : Nat) : (c.pullTimes n).position = c.position := by
  induction n generalizing c with
  | zero => rfl
  | succ n ih =>
    unfold pullTimes
    split
    · rfl
    · rw [ih, pull_position]

@[simp] theorem fill_position (index : Nat) : (c.fill index).position = c.position :=
  pullTimes_position _

/-- A cursor is asked for tokens until there are enough or there are no more. -/
theorem pullTimes_reaches (n : Nat) :
    (c.pullTimes n).finished = true ∨ c.taken.length + n ≤ (c.pullTimes n).taken.length := by
  induction n generalizing c with
  | zero => exact .inr (Nat.le_refl _)
  | succ n ih =>
    unfold pullTimes
    split
    · exact .inl ‹_›
    · rcases @ih c.pull with h | h
      · exact .inl h
      · rw [pull_length] at h
        exact .inr (by omega)

theorem pullTimes_keeps (n : Nat) : c.taken.length ≤ (c.pullTimes n).taken.length := by
  induction n generalizing c with
  | zero => exact Nat.le_refl _
  | succ n ih =>
    unfold pullTimes
    split
    · exact Nat.le_refl _
    · have := @ih c.pull
      rw [pull_length] at this
      omega

theorem fill_keeps (index : Nat) : c.taken.length ≤ (c.fill index).taken.length :=
  pullTimes_keeps _

theorem fill_reaches (index : Nat) :
    (c.fill index).finished = true ∨ index < (c.fill index).taken.length := by
  rcases pullTimes_reaches (c := c) (index + 1 - c.taken.length) with h | h
  · exact .inl h
  · exact .inr (by unfold fill; omega)

/-! ## What a cursor shows -/

namespace Stage

/-- A cursor that will ask for more has taken a beginning of the buffer, without its end. -/
theorem unfinished (h : Stage s c) (hc : c.finished = false) :
    c.taken <+: (Buffer.splitEnd s.tokens).1 := by
  cases h with
  | ended => cases hc
  | failed => cases hc
  | @reading taken rest position tokens inside =>
    rw [tokens, Buffer.splitEnd_append inside]
    exact List.prefix_append ..

/-- A cursor that will ask no more holds the buffer and knows whether its end was made up. -/
theorem finished (h : Stage s c) (hc : c.finished = true) :
    c.taken = (Buffer.ofSource s).tokens.toList ∧ c.fatal = (Buffer.ofSource s).fatal := by
  cases h with
  | reading => cases hc
  | ended position tokens inside ends =>
    obtain ⟨ht, hf⟩ := Buffer.ofSource_ended tokens inside ends
    exact ⟨ht.symm, hf.symm⟩
  | failed position inside =>
    obtain ⟨ht, hf⟩ := Buffer.ofSource_endless inside
    exact ⟨ht.symm, hf.symm⟩

/-- Nothing behind the first end-of-file token is ever taken. -/
theorem spared (h : Stage s c) {before rest : List Token} {last : Token}
    (tokens : s.tokens = before ++ last :: rest) (inside : ∀ t ∈ before, t.isEndOfFile = false)
    (ends : last.isEndOfFile = true) : rest <:+ c.source.tokens := by
  cases h with
  | @reading taken behind position hs open' =>
    rw [tokens] at hs
    change rest <:+ behind
    rcases List.append_eq_append_iff.mp hs with ⟨more, ht, hr⟩ | ⟨more, hb, hr⟩
    · cases more with
      | nil =>
        rw [List.nil_append] at hr
        exact hr ▸ List.suffix_cons ..
      | cons t more =>
        have hl : last = t := (List.cons.inj hr).1
        have := open' last (by simp [ht, hl])
        rw [this] at ends
        cases ends
    · rw [hr]
      exact (List.suffix_cons ..).trans (List.suffix_append ..)
  | @ended before' behind last' position hs open' ends' =>
    rw [tokens] at hs
    have he := (Buffer.splitEnd_ended inside ends).symm.trans
      ((congrArg Buffer.splitEnd hs).trans (Buffer.splitEnd_ended open' ends'))
    obtain rfl : before = before' := congrArg Prod.fst he
    have hr := List.append_cancel_left hs
    exact (List.cons.inj hr).2 ▸ List.suffix_refl _
  | failed position open' =>
    have := open' last (by simp [tokens])
    rw [this] at ends
    cases ends

/-- The token at an index that was asked for is that of the buffer. -/
theorem filled (h : Stage s c) (index : Nat) :
    (c.fill index).taken[index]? = (Buffer.ofSource s).tokens[index]? := by
  rw [← Array.getElem?_toList]
  have hs := h.fill index
  cases hf : (c.fill index).finished with
  | true => rw [(hs.finished hf).1]
  | false =>
    have hi : index < (c.fill index).taken.length := by
      simpa [hf] using fill_reaches (c := c) index
    obtain ⟨last, -, hb⟩ := Buffer.tokens_ofSource s
    have hp : (c.fill index).taken <+: (Buffer.ofSource s).tokens.toList := by
      rw [hb]
      exact (hs.unfinished hf).trans (List.prefix_append ..)
    rw [List.getElem?_eq_getElem hi]
    exact (List.prefix_iff_getElem?.mp hp index hi).symm

/-- A cursor shows the tokens of the buffer. -/
theorem peek (h : Stage s c) (ahead : Nat) :
    (c.peek ahead).1 = (Buffer.ofSource s).get (c.position + ahead) := by
  have hs := h.fill (c.position + ahead)
  have hi := h.filled (c.position + ahead)
  unfold Cursor.peek
  dsimp only
  rw [fill_position]
  cases hf : (c.fill (c.position + ahead)).finished with
  | true =>
    rw [(hs.finished hf).1, Array.length_toList, List.getD_eq_getElem?_getD, Array.getElem?_toList]
    rw [Array.getElem?_eq_getElem (by have := (Buffer.ofSource s).nonempty; omega)]
    rfl
  | false =>
    have hl : c.position + ahead < (c.fill (c.position + ahead)).taken.length := by
      simpa [hf] using fill_reaches (c := c) (c.position + ahead)
    rw [Nat.min_eq_left (by omega), List.getD_eq_getElem?_getD, hi]
    rw [List.getElem?_eq_getElem hl] at hi
    have := (Array.getElem?_eq_some_iff.mp hi.symm).1
    rw [Buffer.getElem?_eq_get this]
    rfl

/-- A cursor moves on as a reader of the buffer does. -/
theorem bump (h : Stage s c) : c.bump.position =
    if ((Buffer.ofSource s).get c.position).isEndOfFile then c.position else c.position + 1 := by
  have hi := h.filled c.position
  unfold Cursor.bump
  dsimp only
  rw [fill_position, hi]
  by_cases hp : c.position < (Buffer.ofSource s).size
  · rw [Buffer.getElem?_eq_get hp]
    dsimp only
    split <;> simp
  · have hg := Buffer.get_of_le (i := c.position) (Nat.le_succ_of_le (Nat.le_of_not_lt hp))
    rw [Array.getElem?_eq_none (Nat.le_of_not_lt hp), hg,
      if_pos (Buffer.last_ofSource s)]
    exact fill_position _

/-- A cursor moves past the end as a reader of the buffer does. -/
theorem bumpEndOfFile (h : Stage s c) (hp : c.position < (Buffer.ofSource s).size) :
    c.bumpEndOfFile.position =
      if ((Buffer.ofSource s).get c.position).isEndOfFile then c.position + 1 else c.position := by
  have hi := h.filled c.position
  unfold Cursor.bumpEndOfFile
  dsimp only
  rw [fill_position, hi, Buffer.getElem?_eq_get hp]
  dsimp only
  split <;> simp

/-- A cursor that has passed the last token hands over the buffer or its failure. -/
theorem handOver (h : Stage s c) (hc : (Buffer.ofSource s).size ≤ c.position)
    (hp : c.position ≤ c.taken.length) :
    c.handOver = match (Buffer.ofSource s).fatal with
      | some e => .error e
      | none => .ok (Buffer.ofSource s).tokens.toList := by
  have hf : c.finished = true := by
    cases hf : c.finished with
    | true => rfl
    | false =>
      obtain ⟨last, -, hb⟩ := Buffer.tokens_ofSource s
      have hl := (h.unfinished hf).length_le
      simp only [Buffer.size, hb, List.size_toArray, List.length_append,
        List.length_singleton] at hc
      omega
  obtain ⟨ht, he⟩ := h.finished hf
  cases hb : (Buffer.ofSource s).fatal with
  | none => simp only [Cursor.handOver, he, hb, ht]
  | some e => simp only [Cursor.handOver, he, hb]

end Stage

/-! ## All ways of using a cursor -/

/-- What can become of a cursor over a source. It goes back only to where it was. -/
inductive Reached (s : TokenSource) : Cursor → Prop
  | start : Reached s (start s)
  | peek {c : Cursor} (ahead : Nat) : Reached s c → Reached s (c.peek ahead).2
  | bump {c : Cursor} : Reached s c → Reached s c.bump
  | bumpEndOfFile {c : Cursor} : Reached s c → Reached s c.bumpEndOfFile
  | rewind {c : Cursor} {position : Nat} : position ≤ c.taken.length → Reached s c →
      Reached s (c.rewind position)

/-- Whatever a move past the current token asks of it, the cursor takes that token first, and
stays where it is or stands behind it. -/
theorem bump_cases (c : Cursor) : c.bump = c.fill c.position ∨
    c.position < (c.fill c.position).taken.length ∧
      c.bump = { c.fill c.position with position := c.position + 1 } := by
  unfold bump
  dsimp only
  rw [fill_position]
  split
  · rename_i t ht
    obtain ⟨hl, -⟩ := List.getElem?_eq_some_iff.mp ht
    split
    · exact .inl rfl
    · exact .inr ⟨hl, rfl⟩
  · exact .inl rfl

theorem bumpEndOfFile_cases (c : Cursor) : c.bumpEndOfFile = c.fill c.position ∨
    c.position < (c.fill c.position).taken.length ∧
      c.bumpEndOfFile = { c.fill c.position with position := c.position + 1 } := by
  unfold bumpEndOfFile
  dsimp only
  rw [fill_position]
  split
  · rename_i t ht
    obtain ⟨hl, -⟩ := List.getElem?_eq_some_iff.mp ht
    split
    · exact .inr ⟨hl, rfl⟩
    · exact .inl rfl
  · exact .inl rfl

namespace Reached

theorem stage (h : Reached s c) : Stage s c := by
  induction h with
  | start => exact .start
  | peek ahead _ ih => exact ih.fill _
  | @bump c _ ih =>
    have hs := ih.fill c.position
    rcases bump_cases c with hb | ⟨-, hb⟩
    · exact hb ▸ hs
    · exact hb ▸ hs.moved _
  | @bumpEndOfFile c _ ih =>
    have hs := ih.fill c.position
    rcases bumpEndOfFile_cases c with hb | ⟨-, hb⟩
    · exact hb ▸ hs
    · exact hb ▸ hs.moved _
  | @rewind c position _ _ ih => exact ih.moved position

/-- A cursor stands among the tokens that it has taken, or right behind them. -/
theorem position_le (h : Reached s c) : c.position ≤ c.taken.length := by
  have filled : ∀ {c : Cursor} (index : Nat), c.position ≤ c.taken.length →
      (c.fill index).position ≤ (c.fill index).taken.length := by
    intro c index h
    rw [fill_position]
    exact Nat.le_trans h (fill_keeps index)
  induction h with
  | start => exact Nat.zero_le _
  | peek ahead _ ih => exact filled _ ih
  | @bump c _ ih =>
    rcases bump_cases c with hb | ⟨hl, hb⟩
    · exact hb ▸ filled _ ih
    · exact hb ▸ hl
  | @bumpEndOfFile c _ ih =>
    rcases bumpEndOfFile_cases c with hb | ⟨hl, hb⟩
    · exact hb ▸ filled _ ih
    · exact hb ▸ hl
  | rewind hp _ _ => exact hp

/-- A cursor can be moved to every token. -/
theorem exists_at (s : TokenSource) : ∀ {i : Nat}, i < (Buffer.ofSource s).size →
    ∃ c, Reached s c ∧ c.position = i
  | 0, _ => ⟨_, .start, rfl⟩
  | i + 1, hi => by
    obtain ⟨c, hc, rfl⟩ := exists_at s (Nat.lt_of_succ_lt hi)
    have hk := (Buffer.closed_ofSource s).before c.position (by omega)
    refine ⟨c.bump, hc.bump, ?_⟩
    rw [hc.stage.bump, if_neg (by simpa [Token.isEndOfFile] using hk)]

/-- A cursor can be moved past the last token. -/
theorem exists_past (s : TokenSource) :
    ∃ c, Reached s c ∧ c.position = (Buffer.ofSource s).size := by
  have hs : 0 < (Buffer.ofSource s).size := (Buffer.ofSource s).nonempty
  obtain ⟨c, hc, hp⟩ := exists_at s (Nat.sub_one_lt_of_lt hs)
  refine ⟨c.bumpEndOfFile, hc.bumpEndOfFile, ?_⟩
  rw [hc.stage.bumpEndOfFile (by omega), hp, if_pos (Buffer.last_ofSource s)]
  omega

end Reached

end Cursor

/-! ## What reading a unit comes to -/

/-- A run over a unit ends behind the last token. -/
theorem Buffer.parse?_position {source : TokenSource} {file : String} {options : Options}
    {root : CompilationUnit} {s : State}
    (h : (ofSource source).parse? file options = some (root, s)) :
    s.position = (ofSource source).size := by
  obtain ⟨-, hw, -⟩ := compilationUnit_sound (closed_ofSource source) h
  obtain ⟨items, s, -, rfl, rfl⟩ := compilationUnit_eq h
  exact congrArg TokenRange.stop hw

/-- The result of reading a unit, as its source decides it. -/
structure SourceUnit.Ending (u : SourceUnit) (options : Options)
    (r : Except ParseError ParseTree) : Prop where
  /-- There is a tree exactly if the source gives an end-of-file token. -/
  tree : r.isOk = true ↔ ∃ t ∈ u.source.tokens, t.isEndOfFile = true
  /-- Then the tree has the tokens up to the first one, and nothing behind that is ever taken. -/
  tokens : ∀ before last rest, u.source.tokens = before ++ last :: rest →
    (∀ t ∈ before, t.isEndOfFile = false) → last.isEndOfFile = true →
      r.map (·.tokens.toList) = .ok (before ++ [last]) ∧
        ∀ c, Cursor.Reached u.source c → rest <:+ c.source.tokens
  /-- Else the result tells where the source ran dry, or how it failed. -/
  failure : (∀ t ∈ u.source.tokens, t.isEndOfFile = false) → r = .error (match u.source.ending with
    | .dry => .missingEndOfInput (lastStop u.source.tokens)
    | .failed f => .source f)
  /-- A cursor that was moved to where the run ends, in whatever way, hands over just that. -/
  handOver : ∃ root s, (Buffer.ofSource u.source).parse? u.file options = some (root, s) ∧
    (∃ c, Cursor.Reached u.source c ∧ c.position = s.position) ∧
      ∀ c, Cursor.Reached u.source c → c.position = s.position →
        c.handOver = r.map (·.tokens.toList)

/-- The first end-of-file token among some tokens, if there is one. -/
theorem Token.exists_first_end (tokens : List Token) :
    (∀ t ∈ tokens, t.isEndOfFile = false) ∨ ∃ before last rest, tokens = before ++ last :: rest ∧
      (∀ t ∈ before, t.isEndOfFile = false) ∧ last.isEndOfFile = true := by
  induction tokens with
  | nil => exact .inl (by simp)
  | cons t tokens ih =>
    cases ht : t.isEndOfFile with
    | true => exact .inr ⟨[], t, tokens, rfl, by simp, ht⟩
    | false =>
      rcases ih with ih | ⟨before, last, rest, rfl, hb, hl⟩
      · exact .inl (List.forall_mem_cons.mpr ⟨ht, ih⟩)
      · exact .inr ⟨t :: before, last, rest, rfl, List.forall_mem_cons.mpr ⟨ht, hb⟩, hl⟩

/-- Whether a unit has a tree, which tokens the tree has, and the error if there is none depend on
where the source ends and on nothing that happened while it was read. -/
theorem parse?_ending {u : SourceUnit} {options : Options} {r : Except ParseError ParseTree}
    (h : u.parse? options = some r) : u.Ending options r := by
  obtain ⟨⟨root, s⟩, hr, rfl⟩ := Option.map_eq_some_iff.mp h
  constructor
  case tree =>
    rcases Token.exists_first_end u.source.tokens with hn | ⟨before, last, rest, ht, hb, hl⟩
    · refine iff_of_false ?_ fun ⟨t, ht, he⟩ => ?_
      · dsimp only [SourceUnit.outcome]
        rw [(Buffer.ofSource_endless hn).2]
        exact Bool.false_ne_true
      · rw [hn t ht] at he
        cases he
    · refine iff_of_true ?_ ⟨last, by simp [ht], hl⟩
      dsimp only [SourceUnit.outcome]
      rw [(Buffer.ofSource_ended ht hb hl).2]
      rfl
  case tokens =>
    intro before last rest ht hb hl
    obtain ⟨hts, hf⟩ := Buffer.ofSource_ended ht hb hl
    refine ⟨?_, fun c hc => hc.stage.spared ht hb hl⟩
    dsimp only [SourceUnit.outcome]
    rw [hf]
    exact congrArg Except.ok hts
  case failure =>
    intro hn
    dsimp only [SourceUnit.outcome]
    rw [(Buffer.ofSource_endless hn).2]
    cases u.source.ending <;> rfl
  case handOver =>
    have hs := Buffer.parse?_position hr
    refine ⟨root, s, hr, hs ▸ Cursor.Reached.exists_past u.source, fun c hc hp => ?_⟩
    rw [hc.stage.handOver (by omega) hc.position_le]
    dsimp only [SourceUnit.outcome]
    cases (Buffer.ofSource u.source).fatal <;> rfl

theorem halfWritten_ending :
    ∃ t, SourceUnit.halfWritten.parse? {} = some (.ok t) ∧
      SourceUnit.halfWritten.Ending {} (.ok t) := by
  obtain ⟨t, h, -⟩ := SourceUnit.parse?_halfWritten
  exact ⟨t, h, parse?_ending h⟩

end BallerinaSyntax
