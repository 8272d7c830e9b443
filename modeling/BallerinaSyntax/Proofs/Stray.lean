import BallerinaSyntax.Proofs.Enough
import BallerinaSyntax.Proofs.Halting.Callable
import BallerinaSyntax.Proofs.Outcome

/-!
Tokens in a list of statements that begin none. A round of the list skips up to a token at which
this list or a construct around it resumes, and reports what it skipped as one. So a stray token is
passed unless a construct around the list resumes just there: the skip then has nothing to skip, the
round changes nothing, and the list never ends.
-/

namespace BallerinaSyntax

open Grammar Parse

/-- The scope of a list of statements in a construct. -/
def Scope.inStatements (scope : Scope) : Scope :=
  { scope with recovery := statementSync :: scope.recovery }

/-- A list of statements is at a token that begins no statement and does not end the list. A worker
is none either, but the list waits for it. -/
structure Scope.Stray (scope : Scope) (s : State) : Prop where
  running : s.unwinding = false
  notClose : scope.kindAt s 0 ≠ .closeBraceToken
  notEnd : scope.kindAt s 0 ≠ .endOfFileToken
  notWorker : scope.kindAt s 0 ≠ .workerKeyword
  beginsNone : startsStatement (scope.kindAt s 0) = false

/-- Whether a construct of this scope resumes at the current token. -/
def Scope.Resumes (scope : Scope) (s : State) : Prop :=
  ∃ sync ∈ scope.recovery, scope.kindAt s 0 ∈ sync

/-! ## One round -/

/-- The words that may name a function begin statements by themselves. -/
theorem startsStatement_of_isName {anyNames : Bool} {k : Kind}
    (h : Operator.isName anyNames k = true) : startsStatement k = true := by
  have words : ∀ k : Kind, k.isNameKeyword = true → startsStatement k = true := by
    intro k hk
    cases k <;> first | rfl | cases hk
  rw [Operator.isName, Bool.or_eq_true, beq_iff_eq, Bool.and_eq_true] at h
  obtain rfl | ⟨-, h⟩ := h
  · rfl
  · exact words k h

variable {r : Recursion} {scope : Scope} {s : State} {read : Array Statement}

/-- Of the tokens at which a list of statements resumes, a semicolon is the only stray one. -/
theorem Scope.Stray.not_sync (h : scope.Stray s) (hk : scope.kindAt s 0 ≠ .semicolonToken) :
    scope.kindAt s 0 ∉ statementSync := by
  intro hm
  rcases statementSync_settles _ hm with hw | hs
  · exact h.notWorker hw
  · simp only [settlesStatements, Bool.or_eq_true, beq_iff_eq] at hs
    rcases hs with (hs | hs) | hs
    · exact hk hs
    · exact h.notClose hs
    · exact Bool.false_ne_true (h.beginsNone.symm.trans hs)

/-- A skip from a stray token stops at once exactly if a construct around the list resumes there. -/
theorem Scope.Stray.resume_eq (h : scope.Stray s) (hk : scope.kindAt s 0 ≠ .semicolonToken) :
    scope.inStatements.resume resumesStatement (scope.kindAt s 0) = true ↔ scope.Resumes s := by
  have hs : statementSync.contains (scope.kindAt s 0) = false := by
    rw [List.contains_eq_mem, decide_eq_false_iff_not]
    exact h.not_sync hk
  rw [Scope.resume, resumesStatement, hs, h.beginsNone, Scope.inStatements, List.any_cons, hs]
  simp only [Bool.or_self, Bool.false_or, List.any_eq_true, List.contains_iff_mem]
  exact Iff.rfl

/-! ## Skipping -/

/-- A token that is not the end of the file is in the buffer. -/
theorem Buffer.Ends.lt_size {b : Buffer} (h : b.Ends) {i : Nat}
    (hk : (b.get i).kind ≠ .endOfFileToken) : i < b.size := by
  by_contra hi
  apply hk
  rw [Buffer.get_of_le (by omega)]
  exact beq_iff_eq.mp h

/-- A skip from a token at which nothing resumes passes that token and counts one error. -/
theorem skipUntil_of_not_resume (r : Recursion) {sync : Kind → Bool} (lookingFor : String)
    (hb : scope.buffer.Ends) (hk : scope.kindAt s 0 ≠ .endOfFileToken)
    (h : scope.resume sync (scope.kindAt s 0) = false) :
    ∃ n t, skipUntil sync lookingFor r scope s = some (n, t) ∧ s.position < t.position ∧
      t.errorCount = s.errorCount + 1 := by
  have hi : s.position < scope.buffer.size := hb.lt_size hk
  have hl : s.position < scope.found (scope.resume sync) s := by
    obtain ⟨n, hn⟩ : ∃ n, scope.buffer.size - s.position = n + 1 :=
      ⟨scope.buffer.size - s.position - 1, by omega⟩
    have hstop : ¬(((scope.buffer.get s.position).kind == .endOfFileToken ||
        scope.resume sync (scope.buffer.get s.position).kind) = true) := by
      simp only [Scope.kindAt, Nat.add_zero] at hk h
      simp [hk, h]
    rw [Scope.found, hn, Buffer.seek, if_neg hstop]
    exact (scope.buffer.seek_spec _ n (s.position + 1)).1
  refine ⟨_, _, skipUntil_eq sync lookingFor r scope s rfl, ?_⟩
  rw [if_pos (Nat.sub_pos_of_lt hl)]
  constructor
  · rw [State.reported_position]
    exact hl
  · rw [State.reported_errorCount]

/-- A token that nothing wants is passed, and counts as one error. -/
theorem bumpUnexpected_of_solid (r : Recursion) (lookingFor : String)
    (hk : scope.kindAt s 0 ≠ .endOfFileToken) :
    ∃ t, bumpUnexpected lookingFor r scope s = some ((), t) ∧ s.position < t.position ∧
      t.errorCount = s.errorCount + 1 := by
  unfold bumpUnexpected
  rw [(looks_token 0).bind_eq, looks_describeCurrent.bind_eq, looks_position.bind_eq,
    (looks_located _ _ _).bind_eq]
  refine ⟨_, bind_eq_some.mpr ⟨(), _, report_eq .., advance_position ..⟩, ?_⟩
  have hk' : ∀ d, ¬((scope.kindAt (s.reported scope s.position d) 0 == Kind.endOfFileToken) = true) := by
    intro d
    rw [Scope.kindAt, State.reported_position, beq_iff_eq]
    exact hk
  rw [if_neg (hk' _)]
  constructor
  · simp
  · simp

/-! ## Rounds of a list of statements -/

/-- At a stray token a list of statements takes a semicolon, and skips from anything else. -/
theorem statementsTurn_eq (h : scope.Stray s) {t : State}
    (ht : (scope.kindAt s 0 = .semicolonToken ∧
        bumpUnexpected "a statement" r scope.inStatements s = some ((), t)) ∨
      (scope.kindAt s 0 ≠ .semicolonToken ∧
        ∃ n, skipUntil resumesStatement "a statement" r scope.inStatements s = some (n, t))) :
    statementsTurn read r scope.inStatements s = some (.again read, t) := by
  have hend : (s.unwinding || scope.kindAt s 0 == .closeBraceToken ||
      scope.kindAt s 0 == .endOfFileToken) = false := by
    simp [h.running, h.notClose, h.notEnd]
  have hname : Operator.isName scope.options.allowAnyIdentifierNames (scope.kindAt s 0) = false := by
    by_contra hn
    rw [Bool.not_eq_false] at hn
    exact Bool.false_ne_true (h.beginsNone.symm.trans (startsStatement_of_isName hn))
  have hround : statementRound r scope.inStatements s = some (none, t) := by
    unfold statementRound
    rw [(looks_kind 0).bind_eq]
    rcases ht with ⟨hk, ht⟩ | ⟨hk, n, ht⟩
    · refine (congrArg (fun p : Parse (Option Statement) => p r scope.inStatements s)
        (if_pos (beq_iff_eq.mpr hk))).trans ?_
      exact bind_eq_some.mpr ⟨(), t, ht, rfl⟩
    · refine (congrArg (fun p : Parse (Option Statement) => p r scope.inStatements s)
        (if_neg fun he => hk (beq_iff_eq.mp he))).trans ?_
      have hs : (!startsStatement (scope.kindAt s 0) &&
          !Operator.isName scope.options.allowAnyIdentifierNames (scope.kindAt s 0)) = true := by
        rw [h.beginsNone, hname]
        rfl
      refine ((looks_isName _).bind_eq _ r scope.inStatements s).trans ?_
      refine (congrArg (fun p : Parse (Option Statement) => p r scope.inStatements s)
        (if_pos hs)).trans ?_
      exact bind_eq_some.mpr ⟨n, t, ht, rfl⟩
  unfold statementsTurn
  refine ((looks_atListEnd .closeBraceToken).bind_eq _ r scope.inStatements s).trans ?_
  refine (congrArg (fun p : Parse (Turn (Array Statement) (Array Statement)) =>
    p r scope.inStatements s) (if_neg (Bool.eq_false_iff.mp hend))).trans ?_
  exact bind_eq_some.mpr ⟨none, t, hround, rfl⟩

/-- A stray token is passed and reported where no construct around the list resumes at it. -/
theorem statementsTurn_passes (hb : scope.buffer.Ends) (h : scope.Stray s)
    (hr : scope.kindAt s 0 = .semicolonToken ∨ ¬scope.Resumes s) :
    ∃ t, statementsTurn read r scope.inStatements s = some (.again read, t) ∧
      s.position < t.position ∧ s.errorCount < t.errorCount := by
  by_cases hk : scope.kindAt s 0 = .semicolonToken
  · obtain ⟨t, ht, hp, he⟩ :=
      bumpUnexpected_of_solid r "a statement" (show scope.inStatements.kindAt s 0 ≠ _ from h.notEnd)
    exact ⟨t, statementsTurn_eq h (.inl ⟨hk, ht⟩), hp, by omega⟩
  · have hstop : scope.inStatements.resume resumesStatement (scope.kindAt s 0) = false := by
      rw [← Bool.not_eq_true, h.resume_eq hk]
      exact hr.resolve_left hk
    obtain ⟨n, t, ht, hp, he⟩ := skipUntil_of_not_resume r "a statement"
      (show scope.inStatements.buffer.Ends from hb) h.notEnd hstop
    exact ⟨t, statementsTurn_eq h (.inr ⟨hk, n, ht⟩), hp, by omega⟩

/-- Where a construct around the list resumes at a stray token, a round changes nothing. -/
theorem statementsTurn_waits (h : scope.Stray s) (hk : scope.kindAt s 0 ≠ .semicolonToken)
    (hr : scope.Resumes s) :
    statementsTurn read r scope.inStatements s = some (.again read, s) := by
  have hstop : scope.inStatements.resume resumesStatement (scope.kindAt s 0) = true :=
    (h.resume_eq hk).mpr hr
  exact statementsTurn_eq h (.inr ⟨hk, 0, skipUntil_of_resume hstop⟩)

/-- So the list never ends, however many rounds there are. -/
theorem statements_waits (h : scope.Stray s) (hk : scope.kindAt s 0 ≠ .semicolonToken)
    (hr : scope.Resumes s) : statements r scope s = none := by
  have rounds : ∀ n, Parse.rounds statementsTurn n #[] r scope.inStatements s = none :=
    rounds_waits (statementsTurn_waits h hk hr)
  rw [statements_eq]
  change Parse.bind _ _ r scope s = none
  rw [Parse.bind]
  have hloop : withRecovery statementSync (loop statementsTurn #[]) r scope s = none := rounds r.steps
  rw [hloop]

/-- A round of a list of statements passes a stray token and reports it exactly if that is a
semicolon or no construct around the list resumes at it. -/
theorem statementsTurn_passes_iff (hb : scope.buffer.Ends) (h : scope.Stray s) :
    (∃ t, statementsTurn read r scope.inStatements s = some (.again read, t) ∧
        s.position < t.position ∧ s.errorCount < t.errorCount) ↔
      scope.kindAt s 0 = .semicolonToken ∨ ¬scope.Resumes s := by
  constructor
  · rintro ⟨t, ht, hp, -⟩
    by_contra hn
    rw [not_or, not_not] at hn
    obtain ⟨hk, hr⟩ := hn
    rw [statementsTurn_waits h hk hr] at ht
    cases ht
    exact Nat.lt_irrefl _ hp
  · exact statementsTurn_passes hb h

/-- The constructs that resume at tokens of their own. -/
def resumingSets : List (List Kind) := [statementSync, objectMemberSync, serviceMemberSync, querySync]

/-- A list of statements waits only at what begins a member of a service or an object. -/
theorem Scope.Stray.mem_memberStart (h : scope.Stray s) (hk : scope.kindAt s 0 ≠ .semicolonToken)
    (hs : ∀ sync ∈ scope.recovery, sync ∈ resumingSets) (hr : scope.Resumes s) :
    scope.kindAt s 0 ∈ memberStart := by
  have cases : ∀ sync ∈ resumingSets, ∀ k ∈ sync,
      k = .workerKeyword ∨ settlesStatements k = true ∨ k ∈ memberStart := by decide
  obtain ⟨sync, hm, hr⟩ := hr
  rcases cases sync (hs sync hm) _ hr with hw | hset | hm
  · exact (h.notWorker hw).elim
  · simp only [settlesStatements, Bool.or_eq_true, beq_iff_eq] at hset
    rcases hset with (hset | hset) | hset
    · exact (hk hset).elim
    · exact (h.notClose hset).elim
    · exact (Bool.false_ne_true (h.beginsNone.symm.trans hset)).elim
  · exact hm

/-- An object with a function in whose body there is nothing but the word `public`. -/
def SourceUnit.strandedModifier : SourceUnit :=
  ⟨"stranded.bal", { tokens := [.fixed .typeKeyword 0, .place .identifier "T" 5,
    .fixed .objectKeyword 7, .fixed .openBraceToken 14, .fixed .functionKeyword 16,
    .place .identifier "f" 25, .fixed .openParenToken 26, .fixed .closeParenToken 27,
    .fixed .openBraceToken 29, .fixed .publicKeyword 31, .fixed .closeBraceToken 38,
    .fixed .closeBraceToken 40, .fixed .semicolonToken 41, .endOfFile 42] }⟩

/-- In the body of that function, at the word. -/
def Scope.stranded : Scope where
  buffer := .ofSource SourceUnit.strandedModifier.source
  options := {}
  file := "stranded.bal"
  recovery := [objectMemberSync]
  depth := 2

/-- The members of the object resume at the word, so the statements never pass it, and the unit is
never read. -/
theorem strandedModifier_waits :
    Scope.stranded.Stray { position := 9 } ∧
      (∀ r, statementsTurn #[] r Scope.stranded.inStatements { position := 9 } =
        some (.again #[], { position := 9 })) ∧
      SourceUnit.strandedModifier.parse? {} = none := by
  have h : Scope.stranded.Stray { position := 9 } :=
    ⟨rfl, by decide, by decide, by decide, by decide⟩
  have hr : Scope.stranded.Resumes { position := 9 } := ⟨objectMemberSync, by decide, by decide⟩
  refine ⟨h, fun r => statementsTurn_waits h (by decide) hr, ?_⟩
  -- The levels that are enough for the tokens are far fewer than those that a parse gets.
  have hn : (Grammar.compilationUnit (Grammar.recursion 76)
      { buffer := .ofSource SourceUnit.strandedModifier.source, options := {}
        file := SourceUnit.strandedModifier.file } {}).isNone = true := by decide +kernel
  exact SourceUnit.parse?_eq_none_of_levels (by decide) (by decide) (Option.isNone_iff_eq_none.mp hn)

/-- The same word is passed where the function is not in an object. -/
theorem stray_passed :
    ∃ t, statementsTurn #[] ⟨0, fun _ _ _ => none, .text⟩ { Scope.stranded with recovery := [] }.inStatements
        { position := 9 } = some (.again #[], t) ∧ 9 < t.position ∧ 0 < t.errorCount := by
  have stray : Scope.Stray { Scope.stranded with recovery := [] } { position := 9 } :=
    ⟨rfl, by decide, by decide, by decide, by decide⟩
  have resumes : ¬Scope.Resumes { Scope.stranded with recovery := [] } { position := 9 } := by
    rintro ⟨sync, hm, -⟩
    cases hm
  exact (statementsTurn_passes_iff (Buffer.closed_ofSource _).ends stray).mpr (.inr resumes)

end BallerinaSyntax
