import BallerinaSyntax.Proofs.Halting.Primitive

/-!
Expected tokens, names, lists and recovery come to an end. A skip takes tokens unless something
resumes at the current one; a round that takes none and does not unwind is made to take one.
-/

namespace BallerinaSyntax

open Grammar Parse
open Condition (any solid past onward gave turned)

variable {α β : Type} {rank : Nat} {P : Condition} {Q : β → Condition}

/-- The current token is of this kind. -/
def Condition.atKind (k : Kind) : Condition := fun scope s => scope.kindAt s 0 = k

theorem solid_of_eq {k : Kind} {scope : Scope} {s : State} (h : scope.kindAt s 0 = k)
    (hk : k ≠ .endOfFileToken) : solid scope s :=
  fun he => hk (h.symm.trans he)

/-! ## Expected tokens -/

theorem halts_expect (k : Kind) : Halts rank P (expect k) :=
  .ifAt halts_bump (.bind (halts_errorExpected _) fun _ => halts_missingToken k)

theorem halts_expectAny (wanted : Kind → Bool) (expected : String) :
    Halts rank P (expectAny wanted expected) :=
  .skim (looks_kind 0) fun _ => .ite (fun _ => halts_bump) fun _ =>
    .bind (halts_errorExpected _) fun _ => halts_missingToken _

theorem halts_optional (k : Kind) : Halts rank P (optional k) :=
  .ifAt (.bind halts_bump fun _ => .ended) .ended

theorem halts_accept (k : Kind) : Halts rank P (accept k) :=
  .bind (halts_optional k) fun _ => .ended

theorem halts_missingName : Halts rank P missingName :=
  .bind (halts_errorExpected _) fun _ => .bind (halts_missingToken _) fun _ =>
    .bind (halts_intern _) fun _ => .ended

theorem halts_identifier : Halts rank P identifier := .ifAt halts_bumpName halts_missingName

theorem halts_optionalIdentifier : Halts rank P optionalIdentifier :=
  .ifAt (.bind halts_bumpName fun _ => .ended) .ended

theorem halts_callableName : Halts rank P callableName :=
  .skim (looks_kind 0) fun k => .skim (looks_isName k) fun _ =>
    .ite (fun _ => halts_bumpName) fun _ => halts_missingName

/-- A token that is expected is taken where it is. -/
theorem takes_expect {k : Kind} (hk : k ≠ .endOfFileToken) :
    Takes (Condition.atKind k) (expect k) := by
  refine .look (looks_atKind k) fun b => ?_
  cases b with
  | true => exact takes_bump.weaken fun scope s h he => hk (h.1.symm.trans he)
  | false =>
    intro rank i _ _ scope s _ _ _ h
    simp [Condition.atKind] at h

theorem takes_identifier : Takes (Condition.atKind .identifier) identifier := by
  refine .look (looks_atKind .identifier) fun b => ?_
  cases b with
  | true => exact takes_bumpName.weaken fun scope s h he => by cases h.1.symm.trans he
  | false =>
    intro rank i _ _ scope s _ _ _ h
    simp [Condition.atKind] at h

theorem moves_optional {k : Kind} (hk : k ≠ .endOfFileToken) :
    Moves Option.isSome (optional k) := by
  intro rank i
  refine .ifAt ?_ (.done fun _ _ _ => nofun)
  refine .takePast (C := solid) (fun _ _ h => ⟨solid_of_eq h.2 hk, h.1⟩) takes_bump fun _ => ?_
  exact .done fun _ _ h _ => h

theorem moves_accept {k : Kind} (hk : k ≠ .endOfFileToken) : Moves id (accept k) := by
  intro rank i
  exact .thenAt (moves_optional hk rank i) fun _ => .done fun _ _ h => h

theorem moves_expect {k : Kind} (hk : k ≠ .endOfFileToken) :
    Moves (fun leaf => !leaf.missing) (expect k) := by
  intro rank i
  refine .ifAt ?_ (.bind (halts_errorExpected _) fun _ => ?_)
  · exact ((takes_bump rank i).weaken fun _ _ h => ⟨solid_of_eq h.2 hk, h.1⟩).post
      fun _ _ _ h _ => h
  · exact .plain (fun n => missingToken_eq k (recursion n)) fun _ _ hs _ => ⟨Nat.le_refl _, hs.inside, nofun⟩

/-- What is read behind a token of kind `k`, or where there is none. -/
theorem accept_bind (k : Kind) (f : Bool → Parse β) :
    accept k >>= f = atKind k >>= fun b => if b = true then bump >>= fun _ => f true
      else f false := by
  unfold accept Parse.optional
  rw [Parse.bind_assoc, Parse.bind_assoc]
  congr 1
  funext b
  cases b <;> rfl

/-! ## Skipping -/

/-- Where something resumes, be it here or in a construct around. -/
def Scope.resume (scope : Scope) (sync : Kind → Bool) : Kind → Bool := fun k =>
  sync k || scope.recovery.any (·.contains k)

@[simp] theorem State.reported_unwinding (s : State) (scope : Scope) (index : Nat)
    (d : Diagnostic) : (s.reported scope index d).unwinding = s.unwinding := by
  unfold reported; simp only; split <;> rfl

/-- A skip ends where something resumes, and unwinds nothing. -/
theorem settles_skipUntil (sync : Kind → Bool) (lookingFor : String) (s₀ : State) :
    Settles rank (Condition.here s₀) (skipUntil sync lookingFor) fun n scope s =>
      s.position = scope.found (scope.resume sync) s₀ ∧ s₀.position + n = s.position ∧
        s.unwinding = s₀.unwinding := by
  refine .look looks_scope fun scope => .skim looks_position fun start => .skim (looks_token 0)
    fun first => .skim looks_describeCurrent fun found => ?_
  refine .thenAt (R := fun n scope s => s.position = scope.found (scope.resume sync) s₀ ∧
    s₀.position + n = s.position ∧ s.unwinding = s₀.unwinding) ?_ fun n => .ite (fun _ => ?_)
    fun _ => .done fun _ _ h => h
  · refine .plain (fun n => skipTo_eq _ (recursion n)) fun scope s hs h => ?_
    obtain ⟨rfl, rfl⟩ := h
    have hl := Scope.le_found scope (scope.resume sync) s
    refine ⟨hl, Scope.found_lt hs.ends _ hs.inside, rfl, ?_, rfl⟩
    exact Nat.add_sub_cancel' hl
  · refine .skim (looks_located _ _ _) fun d => .thenAt (R := fun _ scope s =>
      s.position = scope.found (scope.resume sync) s₀ ∧ s₀.position + n = s.position ∧
        s.unwinding = s₀.unwinding) ?_ fun _ => .done fun _ _ h => h
    exact .plain (fun n scope s => report_eq (recursion n) scope s start d) fun scope s hs h =>
      ⟨by simp, by simpa using hs.inside, by simpa using h⟩

/-- The diagnostic of a skip that begins here. -/
def Scope.skipReport (scope : Scope) (s : State) (skipped : Nat) (lookingFor : String) :
    Diagnostic :=
  let t := scope.buffer.get s.position
  let found := if t.kind == .identifier then "identifier '" ++ t.text ++ "'" else t.kind.describe
  .located scope.file t.range.toSpan .unexpectedSkipped [found, toString skipped, lookingFor]

/-- A skip goes to the next token at which something resumes, and reports that it passed some. -/
theorem skipUntil_eq (sync : Kind → Bool) (lookingFor : String) (r : Recursion) (scope : Scope)
    (s : State) {n : Nat} (hn : n = scope.found (scope.resume sync) s - s.position) :
    skipUntil sync lookingFor r scope s = some (n,
      if 0 < n then State.reported { s with position := scope.found (scope.resume sync) s } scope
        s.position (scope.skipReport s n lookingFor)
      else { s with position := scope.found (scope.resume sync) s }) := by
  subst hn
  unfold skipUntil
  rw [looks_scope.bind_eq, looks_position.bind_eq, (looks_token 0).bind_eq,
    looks_describeCurrent.bind_eq]
  refine bind_eq_some.mpr ⟨_, _, skipTo_eq .., ?_⟩
  by_cases hn : 0 < scope.found (scope.resume sync) s - s.position
  · rw [if_pos hn]
    exact (congrArg (fun p : Parse Nat => p r scope _) (if_pos hn)).trans rfl
  · rw [if_neg hn]
    exact (congrArg (fun p : Parse Nat => p r scope _) (if_neg hn)).trans rfl

theorem Scope.found_of_stop {scope : Scope} {s : State} {stop : Kind → Bool}
    (h : stop (scope.kindAt s 0) = true) :
    scope.found stop s = s.position := by
  unfold Scope.found
  cases scope.buffer.size - s.position with
  | zero => rfl
  | succ n =>
    rw [Buffer.seek, if_pos]
    rw [Bool.or_eq_true]
    exact .inr h

/-- A skip from a token at which something resumes does nothing. -/
theorem skipUntil_of_resume {r : Recursion} {scope : Scope} {s : State} {sync : Kind → Bool}
    {lookingFor : String} (h : scope.resume sync (scope.kindAt s 0) = true) :
    skipUntil sync lookingFor r scope s = some (0, s) := by
  have hf : scope.found (scope.resume sync) s = s.position := Scope.found_of_stop h
  rw [skipUntil_eq sync lookingFor r scope s (n := 0) (by omega), if_neg (Nat.lt_irrefl 0), hf]

theorem halts_skipUntil (sync : Kind → Bool) (lookingFor : String) :
    Halts rank P (skipUntil sync lookingFor) := .ofHere (settles_skipUntil sync lookingFor)

/-- A skip takes a token if nothing resumes at the current one. -/
theorem Scope.lt_found {scope : Scope} {stop : Kind → Bool} {s : State} (hs : scope.Inside s)
    (hk : solid scope s) (hn : stop (scope.kindAt s 0) = false) :
    s.position < scope.found stop s := by
  have hi := hs.inside
  obtain ⟨n, hl⟩ : ∃ n, scope.buffer.size - s.position = n + 1 :=
    ⟨scope.buffer.size - s.position - 1, by omega⟩
  have he : (scope.buffer.get s.position).kind ≠ .endOfFileToken := hk
  have hf : stop (scope.buffer.get s.position).kind = false := hn
  rw [Scope.found, hl, Buffer.seek, if_neg (by simp [he, hf])]
  exact (scope.buffer.seek_spec _ n (s.position + 1)).1

theorem Settles.skip {sync : Kind → Bool} {lookingFor : String} {s₀ : State}
    (hP : ∀ scope s, P scope s →
      s = s₀ ∧ solid scope s ∧ scope.resume sync (scope.kindAt s 0) = false) :
    Settles rank P (skipUntil sync lookingFor) fun _ => past s₀.position := by
  intro cost levels scope s hv hs hc h
  obtain ⟨rfl, hk, hn⟩ := hP scope s h
  obtain ⟨n, t, hr, ht, -⟩ := settles_skipUntil sync lookingFor s hv hs hc rfl
  exact ⟨n, t, hr, Nat.lt_of_lt_of_eq (Scope.lt_found hs.toInside hk hn) ht.symm⟩

theorem takes_bumpUnexpected (lookingFor : String) : Takes solid (bumpUnexpected lookingFor) := by
  refine .look (looks_token 0) fun t => .look looks_describeCurrent fun _ =>
    .look looks_position fun index => .look (looks_located _ _ _) fun d => fun rank i => ?_
  refine .thenAt (R := fun _ scope s => solid scope s ∧ s.position = i) ?_ fun _ =>
    takes_advance rank i
  refine .plain (fun n scope s => report_eq (recursion n) scope s index d) fun scope s hs h => ?_
  refine ⟨by simp, by simpa using hs.inside, ?_, by simpa using h.2⟩
  simpa [solid, Scope.kindAt] using h.1.1.1.1.1

/-- A round that takes no token and does not unwind is made to take one. -/
theorem Settles.progressing {p : Parse β} {R : β → Condition} {what : String} {i : Nat}
    (hp : Settles rank P p R) (hP : ∀ scope s, P scope s → solid scope s ∧ i ≤ s.position)
    (hR : ∀ b scope s, R b scope s → past i scope s ∨ s.unwinding = true → Q b scope s)
    (hQ : ∀ b scope s, past i scope s → Q b scope s) :
    Settles rank P (Parse.progressing what p) Q := by
  intro cost levels scope s hv hs hc h
  obtain ⟨hk, hle⟩ := hP scope s h
  have hs' : scope.Awaits s fun r => p r scope s := hs.change hs.toInside id fun r hr => by
    obtain ⟨x, hx⟩ := Option.isSome_iff_exists.mp hr
    obtain ⟨i, u, hpos, hx⟩ := bind_eq_some.mp hx
    cases hpos
    obtain ⟨b, t, hp, -⟩ := bind_eq_some.mp hx
    exact Option.isSome_iff_exists.mpr ⟨(b, t), hp⟩
  obtain ⟨b, t, hr, ht⟩ := hp hv hs' hc h
  have hl := hr.onward
  have hi := hr.inside
  by_cases hm : t.position = s.position ∧ t.unwinding = false
  · have hk' : solid scope t := by simpa [solid, Scope.kindAt, hm.1] using hk
    have hs'' : scope.Awaits t fun r => bumpUnexpected what r scope t :=
      hs.change ⟨hs.ends, hi⟩ (fun hs => hs.move hl hi) fun r _ => rfl
    obtain ⟨_, u, hr', hu⟩ := takes_bumpUnexpected what rank s.position hv hs''
      (by unfold Scope.remaining at *; omega) ⟨hk', hm.1⟩
    refine ⟨b, u, ⟨fun n hn => ?_, Nat.le_trans hl hr'.onward, hr'.inside⟩,
      hQ b scope u (Nat.lt_of_le_of_lt hle hu)⟩
    refine bind_eq_some.mpr ⟨s.position, s, rfl, bind_eq_some.mpr ⟨b, t, hr.agree n hn, ?_⟩⟩
    refine bind_eq_some.mpr ⟨t.position, t, rfl, bind_eq_some.mpr ⟨t.unwinding, t, rfl, ?_⟩⟩
    rw [hm.1, hm.2]
    simpa using bind_eq_some.mpr ⟨(), u, hr'.agree n hn, rfl⟩
  · refine ⟨b, t, ⟨fun n hn => ?_, hl, hi⟩, hR b scope t ht ?_⟩
    · refine bind_eq_some.mpr ⟨s.position, s, rfl, bind_eq_some.mpr ⟨b, t, hr.agree n hn, ?_⟩⟩
      refine bind_eq_some.mpr ⟨t.position, t, rfl, bind_eq_some.mpr ⟨t.unwinding, t, rfl, ?_⟩⟩
      rw [if_neg (by simpa using fun h => by simpa using fun hu => hm ⟨h, hu⟩)]
      rfl
    · by_cases h : t.position = s.position
      · exact .inr (by simpa using fun hu => hm ⟨h, hu⟩)
      · exact .inl (Nat.lt_of_le_of_lt hle (Nat.lt_of_le_of_ne hl (Ne.symm h)))

/-- A round of a loop that neither unwinds nor is at the end. -/
theorem Settles.progress {p : Parse β} {what : String} {s₁ : State} (hp : Halts rank any p)
    (hP : ∀ scope s, P scope s → s = s₁ ∧ solid scope s ∧ s.unwinding = false) :
    Settles rank P (Parse.progressing what p) fun _ => onward s₁ := by
  refine .progressing (R := fun _ _ _ => s₁.unwinding = false) (i := s₁.position) ?_ ?_ ?_ ?_
  · intro _ _ scope s hv hs hc h
    obtain ⟨b, t, hr, -⟩ := hp hv hs hc trivial
    obtain ⟨rfl, -, hu⟩ := hP scope s h
    exact ⟨b, t, hr, hu⟩
  · intro scope s h
    obtain ⟨rfl, hk, -⟩ := hP scope s h
    exact ⟨hk, Nat.le_refl _⟩
  · exact fun _ _ _ hu h => h.imp_right fun h => ⟨hu, h⟩
  · exact fun _ _ _ h => .inl h

/-- What is read in a list that goes on, and where it ends. -/
theorem Settles.untilEnd {close : Kind} {p q : Parse β} (hq : Settles rank P q Q)
    (hp : Settles rank (fun scope s => P scope s ∧ s.unwinding = false ∧
      scope.kindAt s 0 ≠ close ∧ solid scope s) p Q) :
    Settles rank P (atListEnd close >>= fun b => if b = true then q else p) Q := by
  refine .look (looks_atListEnd close) fun b => .ite (fun _ => hq.weaken fun _ _ h => h.1)
    fun hb => hp.weaken fun scope s h => ⟨h.1, ?_⟩
  have := h.2.trans (Bool.not_eq_true _ ▸ hb)
  simpa [solid, and_assoc] using this

/-! ## Closing -/

theorem halts_startUnwinding : Halts rank P startUnwinding :=
  .plain (f := fun _ s => ((), { s with unwinding := true })) (fun _ _ _ => rfl)
    fun _ _ hs _ => ⟨Nat.le_refl _, hs.inside, trivial⟩

theorem halts_reportUnterminated (opening : Leaf) (close : Kind) (construct : String) :
    Halts rank P (reportUnterminated opening close construct) :=
  .skim (looks_located _ _ _) fun _ => .bind (halts_report _ _) fun _ => halts_startUnwinding

theorem halts_expectClosing (opening : Leaf) (close : Kind) (construct : String) :
    Halts rank P (expectClosing opening close construct) := by
  refine .ifAt halts_bump (.ite (fun _ => halts_expect _) fun _ => ?_)
  refine .skim looks_isUnwinding fun _ => .ite (fun _ => ?_) fun _ => ?_
  · exact .bind halts_countError fun _ => halts_missingToken _
  · refine .bind (halts_skipUntil _ _) fun _ => .ifAt halts_bump ?_
    exact .bind (halts_reportUnterminated _ _ _) fun _ => halts_missingToken _

/-! ## Nesting and attempts -/

theorem Scope.Awaits.nested {scope : Scope} {s : State} {p fallback : Parse β}
    (h : scope.Awaits s fun r => Parse.nested p fallback r scope s)
    (hd : ¬scope.options.maxNestingDepth ≤ scope.depth) :
    Scope.Awaits { scope with depth := scope.depth + 1 } s
      fun r => p r { scope with depth := scope.depth + 1 } s := by
  refine h.change ⟨h.ends, h.inside⟩ (fun hs => ⟨hs.tame, hs.inside, hs.resumes⟩) fun r hr => ?_
  rwa [nested_eq, if_neg hd] at hr

theorem Settles.nested {p fallback : Parse β} (hp : Halts rank any p)
    (hf : Halts rank any fallback) : Halts rank P (Parse.nested p fallback) := by
  intro cost levels scope s hv hs hc _
  by_cases hd : scope.options.maxNestingDepth ≤ scope.depth
  · have hi : (s.tooDeep scope).position < scope.buffer.size := by simpa using hs.inside
    have hs' : scope.Awaits (s.tooDeep scope) fun r => fallback r scope (s.tooDeep scope) :=
      hs.change ⟨hs.ends, hi⟩ (fun hs => hs.move (by simp) hi) fun r hr => by
        rwa [nested_eq, if_pos hd] at hr
    obtain ⟨b, t, hr, -⟩ := hf hv hs' (by unfold Scope.remaining at *; simpa using hc) trivial
    refine ⟨b, t, ⟨fun n hn => ?_, by simpa using hr.onward, hr.inside⟩, trivial⟩
    rw [nested_eq, if_pos hd]
    exact hr.agree n hn
  · obtain ⟨b, t, hr, -⟩ :=
      @hp cost levels { scope with depth := scope.depth + 1 } s hv (hs.nested hd) hc trivial
    refine ⟨b, t, ⟨fun n hn => ?_, hr.onward, hr.inside⟩, trivial⟩
    rw [nested_eq, if_neg hd]
    exact hr.agree n hn

/-- A nested construct that takes a token does so unless it nests too deep and unwinds. -/
theorem Settles.nestedPast {p fallback : Parse β} {g : Scope → State → β} {i : Nat}
    (hp : Settles rank P p fun _ => past i)
    (hP : ∀ scope s, P scope s → P { scope with depth := scope.depth + 1 } s)
    (hf : Looks fallback g) :
    Settles rank P (Parse.nested p fallback) fun _ scope s => past i scope s ∨
      (scope.options.maxNestingDepth ≤ scope.depth ∧ s.unwinding = true) := by
  intro cost levels scope s hv hs hc h
  by_cases hd : scope.options.maxNestingDepth ≤ scope.depth
  · refine ⟨g scope (s.tooDeep scope), s.tooDeep scope, ⟨fun n _ => ?_, ?_, ?_⟩, .inr ⟨hd, ?_⟩⟩
    · rw [nested_eq, if_pos hd]
      exact hf _ _ _
    · simp
    · simpa using hs.inside
    · rfl
  · obtain ⟨b, t, hr, ht⟩ := @hp cost levels { scope with depth := scope.depth + 1 } s hv
      (hs.nested hd) hc (hP scope s h)
    refine ⟨b, t, ⟨fun n hn => ?_, hr.onward, hr.inside⟩, .inl ht⟩
    rw [nested_eq, if_neg hd]
    exact hr.agree n hn

/-- An attempt that gives nothing leaves everything as it was. -/
theorem Settles.attempt {p : Parse (Option α)} (hp : Halts rank P p) :
    Settles rank P (Parse.attempt p) fun a => if a.isSome = true then any else P := by
  intro cost levels scope s hv hs hc h
  have hs' : scope.Awaits s fun r => p r scope s := hs.change hs.toInside id fun r hr => by
    unfold Parse.attempt at hr
    cases hp : p r scope s with
    | none =>
      rw [hp] at hr
      exact hr
    | some x => rfl
  obtain ⟨a, t, hr, -⟩ := hp hv hs' hc h
  have hback : Run levels scope s (fun _ => some ((none : Option α), s)) none s :=
    ⟨fun _ _ => rfl, Nat.le_refl _, hs.inside⟩
  cases a with
  | none =>
    refine ⟨none, s, ⟨fun n hn => ?_, hback.onward, hback.inside⟩, h⟩
    simp only [Parse.attempt, hr.agree n hn]
  | some a =>
    by_cases he : t.errorCount = s.errorCount
    · refine ⟨some a, t, ⟨fun n hn => ?_, hr.onward, hr.inside⟩, trivial⟩
      simp only [Parse.attempt, hr.agree n hn, he, beq_self_eq_true, if_true]
    · refine ⟨none, s, ⟨fun n hn => ?_, hback.onward, hback.inside⟩, h⟩
      simp only [Parse.attempt, hr.agree n hn]
      rw [if_neg (by simpa using he)]

theorem Settles.foresee {p : Parse Bool} (hp : Halts rank P p) :
    Settles rank P (Parse.foresee p) fun _ => P := by
  intro cost levels scope s hv hs hc h
  have hs' : scope.Awaits s fun r => p r scope s := hs.change hs.toInside id fun r hr => by
    unfold Parse.foresee at hr
    cases hp : p r scope s with
    | none =>
      rw [hp] at hr
      exact hr
    | some x => rfl
  obtain ⟨a, t, hr, -⟩ := hp hv hs' hc h
  refine ⟨a && t.errorCount == s.errorCount, s, ⟨fun n hn => ?_, Nat.le_refl _, hs.inside⟩, h⟩
  simp only [Parse.foresee, hr.agree n hn]

/-- Inside a construct that resumes only where statements go on as well. -/
theorem Settles.withRecovery {sync : List Kind} {p : Parse β} (hp : Halts rank any p)
    (hk : ∀ scope s, scope.Sane s → P scope s → ∀ i, s.position ≤ i →
      (scope.buffer.get i).kind ∈ sync → settlesStatements (scope.buffer.get i).kind = true) :
    Halts rank P (Parse.withRecovery sync p) := by
  intro cost levels scope s hv hs hc h
  have hs' : Scope.Awaits { scope with recovery := sync :: scope.recovery } s
      fun r => p r { scope with recovery := sync :: scope.recovery } s := by
    refine hs.change ⟨hs.ends, hs.inside⟩ (fun hs => ?_) fun _ hr => hr
    refine ⟨hs.tame, hs.inside, fun i hi other ho hm => ?_⟩
    rcases List.mem_cons.mp ho with he | ho
    · exact hk scope s hs h i hi (he ▸ hm)
    · exact hs.resumes i hi other ho hm
  obtain ⟨b, t, hr, -⟩ := @hp cost levels { scope with recovery := sync :: scope.recovery }
    s hv hs' hc trivial
  exact ⟨b, t, ⟨fun n hn => hr.agree n hn, hr.onward, hr.inside⟩, trivial⟩

/-! ## Loops -/

/-- A loop of which a round changes nothing never ends, however many rounds there are. -/
theorem rounds_waits {γ δ : Type} {turn : γ → Parse (Turn γ δ)} {a : γ} {r : Recursion}
    {scope : Scope} {s : State} (h : turn a r scope s = some (.again a, s)) (n : Nat) :
    rounds turn n a r scope s = none := by
  induction n with
  | zero => rfl
  | succ n ih =>
    change Parse.bind _ _ r scope s = none
    rw [Parse.bind, h]
    exact ih

/-- Behind a state, or still in it. -/
def Condition.since (s₀ : State) : Condition := fun scope s => past s₀.position scope s ∨ s = s₀

/-- What takes a token in a round of a loop: behind where the round began and behind where the loop
began. -/
theorem Settles.takeSince {C : Condition} {p : Parse α} {f : α → Parse β} {s₀ s₁ : State}
    (hC : ∀ scope s, P scope s → C scope s ∧ s = s₁ ∧ Condition.since s₀ scope s)
    (hp : Takes C p) (hf : ∀ a, Settles 3 (past (max s₁.position s₀.position)) (f a) Q) :
    Settles rank P (p >>= f) Q := by
  refine .thenPast (R := fun _ => past (max s₁.position s₀.position))
    (fun i _ _ scope s hv hs hc h => ?_) hf
  obtain ⟨hk, rfl, hI⟩ := hC scope s h.1
  obtain ⟨a, t, hr, ht⟩ := hp rank i hv hs hc ⟨hk, h.2⟩
  obtain rfl := h.2
  refine ⟨a, t, hr, Nat.max_lt.mpr ⟨ht, ?_⟩, ht⟩
  rcases hI with hI | rfl
  · exact Nat.lt_trans hI ht
  · exact ht

/-- An item that takes a token if there is one; there is one where `G` holds. -/
def Picks (G : Condition) (item : Parse (Option α)) : Prop :=
  ∀ rank s₀, Settles rank (Condition.here s₀) item fun a scope s =>
    if a.isSome = true then past s₀.position scope s else s = s₀ ∧ ¬G scope s

namespace Picks

variable {G : Condition}

theorem whenever {C : Condition} {condition : Parse Bool} {g : Scope → State → Bool}
    {p : Parse α} (hc : Looks condition g) (hg : ∀ scope s, g scope s = true → C scope s)
    (hp : Takes C p) :
    Picks (fun scope s => g scope s = true) (condition >>= fun b =>
      if b = true then p >>= fun a => pure (some a) else pure none) := by
  refine fun rank s₀ => .look hc fun b => .ite (fun hb => ?_) fun hb => .done fun _ _ h => ?_
  · refine .takePast (i := s₀.position) (fun scope s h => ⟨hg scope s (h.2.trans hb), ?_⟩) hp
      fun _ => .done fun _ _ h => h
    exact congrArg State.position h.1
  · exact ⟨h.1, fun hg => hb (h.2.symm.trans hg)⟩

/-- What a keyword begins. -/
theorem goesOn {k : Kind} {p : Parse α} (hp : Takes solid p) (hk : k ≠ .endOfFileToken) :
    Picks (fun scope s => (scope.kindAt s 0 == k && !s.unwinding) = true)
      (Parse.goesOn k >>= fun b => if b = true then p >>= fun a => pure (some a) else pure none) :=
  whenever (looks_goesOn k)
    (fun _ _ h => solid_of_eq (beq_iff_eq.mp (Bool.and_eq_true_iff.mp h).1) hk) hp

theorem steps {item : Parse (Option α)} (h : Picks G item) : Steps rank item := by
  refine fun s₀ => (h rank s₀).post fun a scope s ha => ?_
  cases a with
  | some a => exact .inl ha
  | none => trivial

/-- Items are there, or nothing has happened. -/
theorem many {item : Parse (Option α)} (h : Picks G item) (s₀ : State) :
    Settles rank (Condition.here s₀) (Parse.many item) fun _ scope s =>
      past s₀.position scope s ∨ (s = s₀ ∧ ¬G scope s) := by
  refine .thenAt (R := fun _ scope s => past s₀.position scope s ∨ (s = s₀ ∧ ¬G scope s))
    ((Settles.loop (I := fun _ => Condition.since s₀) fun items s₁ => ?_).weaken
      fun _ _ h => .inr h) fun _ => .done fun _ _ h => h
  refine .thenAt (R := fun a scope s => if a.isSome = true
    then past (max s₁.position s₀.position) scope s else Condition.since s₀ scope s ∧ ¬G scope s)
    (fun _ _ scope s hv hs hc h' => ?_) ?_
  · obtain ⟨rfl, hI⟩ := h'
    obtain ⟨a, t, hr, ht⟩ := h rank s hv hs hc rfl
    refine ⟨a, t, hr, ?_⟩
    cases a with
    | some a =>
      refine Nat.max_lt.mpr ⟨ht, ?_⟩
      rcases hI with hI | rfl
      · exact Nat.lt_trans hI ht
      · exact ht
    | none =>
      obtain ⟨rfl, hG⟩ := ht
      exact ⟨hI, hG⟩
  · rintro (_ | a)
    · exact .done fun _ _ h => h.1.imp_right fun h' => ⟨h', h.2⟩
    · exact .done fun _ _ h => ⟨.inl (Nat.max_lt.mp h).1, .inl (Nat.max_lt.mp h).2⟩

theorem takes {item : Parse (Option α)} (h : Picks G item) : Takes G (Parse.many item) := by
  intro rank i _ _ scope s hv hs hc hG
  obtain ⟨a, t, hr, ht⟩ := h.many s hv hs hc rfl
  obtain ⟨hG, rfl⟩ := hG
  exact ⟨a, t, hr, ht.resolve_right fun h => h.2 (h.1 ▸ hG)⟩

end Picks

/-- Items up to a closing token: a token that begins none is skipped. -/
theorem Steps.progressing {what : String} {close : Kind} {p : Parse α} (hp : Halts rank any p) :
    Steps rank do
      if ← atListEnd close then return none
      return some (← Parse.progressing what p) := by
  refine fun s₀ => .untilEnd (.done fun _ _ _ => trivial) ?_
  exact .thenAt (.progress hp fun _ _ h => ⟨h.1, h.2.2.2, h.2.1⟩) fun _ => .done fun _ _ h => h

/-- Members up to a closing token: a token that begins none is skipped. -/
theorem Settles.members {what : String} {close : Kind} {member : α → Parse α} {a : α}
    (hp : ∀ a, Halts rank any (member a)) :
    Halts rank P (Parse.loop (β := α) (γ := α) (fun members => do
      if ← atListEnd close then return .stop members
      return .again (← Parse.progressing what (member members))) a) := by
  refine (Settles.loop (I := fun _ => any) (Q := fun _ => any) fun members s₀ =>
    .untilEnd (.done (b := Turn.stop members) fun _ _ _ => trivial) ?_).weaken fun _ _ _ => trivial
  exact .thenAt (.progress (hp members) fun _ _ h => ⟨h.1.1, h.2.2.2, h.2.1⟩) fun _ =>
    .done fun _ _ h => ⟨h, trivial⟩

section Optional

variable {c : Category} {p : Parse (Tree c)}

theorem halts_behind {k : Kind} (hk : k ≠ .endOfFileToken) (hp : Halts 3 any p) :
    Halts rank P (Grammar.behind k p) := by
  refine .move (moves_accept hk) (fun b hb => ?_) fun _ _ => ?_
  · exact .ite (fun h => absurd (hb.symm.trans h) nofun) fun _ => .ended
  · exact .ite (fun _ => .bind hp fun _ => .ended) fun _ => .ended

theorem halts_whenever {condition : Parse Bool} (hc : Halts rank any condition)
    (hp : Halts rank any p) : Halts rank P (Grammar.whenever condition p) :=
  .bind hc fun _ => .ite (fun _ => .bind hp fun _ => .ended) fun _ => .ended

/-- What takes a token where its condition holds. -/
theorem Takes.whenever {C : Condition} {condition : Parse Bool} {g : Scope → State → Bool}
    (hp : Takes C p) (hc : Looks condition g) (hg : ∀ scope s, g scope s = true → C scope s) :
    Halts rank P (Grammar.whenever condition p) :=
  .look hc fun _ => .ite (fun hb => .take (fun scope s h => hg scope s (h.2.trans hb)) hp
    fun _ => .ended) fun _ => .ended

/-- What a keyword begins, if it is next. -/
theorem Takes.wheneverAt (hp : Takes solid p) {k : Kind} (hk : k ≠ .endOfFileToken) :
    Halts rank P (Grammar.whenever (Parse.atKind k) p) :=
  hp.whenever (looks_atKind k) fun _ _ h => solid_of_eq (beq_iff_eq.mp h) hk

theorem Takes.wheneverGoesOn (hp : Takes solid p) {k : Kind} (hk : k ≠ .endOfFileToken) :
    Halts rank P (Grammar.whenever (goesOn k) p) := by
  refine hp.whenever (looks_goesOn k) fun _ _ h => solid_of_eq ?_ hk
  exact beq_iff_eq.mp (Bool.and_eq_true_iff.mp h).1

end Optional

section Lists

variable {item : Parse α}

theorem halts_moreBehind {separator : Kind} (hk : separator ≠ .endOfFileToken)
    (h : Halts 3 any item) : Halts rank P (moreBehind separator item) := by
  refine .many fun s₀ => .skim looks_isUnwinding fun _ => .ite (fun _ => ?_) fun _ => ?_
  · exact .done fun _ _ _ => trivial
  · refine .movePast (i := s₀.position) (moves_accept hk) ?_ (fun b hb => ?_) fun _ _ => ?_
    · exact fun _ _ h => congrArg State.position h
    · exact .ite (fun h => absurd (hb.symm.trans h) nofun) fun _ => .done fun _ _ _ => trivial
    · refine .ite (fun _ => .keep h fun _ => ?_) fun _ => .done fun _ _ _ => trivial
      exact .done fun _ _ h => .inl h

theorem halts_separatedBy {separator : Kind} (hk : separator ≠ .endOfFileToken)
    (h : Halts 3 any item) : Halts 3 P (separatedBy separator item) :=
  .bind h fun _ => .bind (halts_moreBehind hk h) fun _ => .ended

theorem halts_commaList (h : Halts 3 any item) : Halts 3 P (commaList item) :=
  halts_separatedBy nofun h

theorem halts_listUntil (close : Kind) (h : Halts 3 any item) : Halts 3 P (listUntil close item) :=
  .skim (looks_atListEnd close) fun _ => .ite (fun _ => .ended) fun _ => halts_commaList h

/-- What an opening token begins, nothing of which is read if that is missing. -/
theorem Settles.opening {k : Kind} (hk : k ≠ .endOfFileToken) {f : Leaf → Parse β}
    (hn : ∀ leaf, leaf.missing = true → Settles rank any (f leaf) Q)
    (hy : ∀ leaf, leaf.missing = false → Settles 3 any (f leaf) Q) :
    Settles rank P (expect k >>= f) Q :=
  .move (moves_expect hk) (fun leaf h => hn leaf (by simpa using h)) fun leaf h =>
    hy leaf (by simpa using h)

/-- What is read behind an opening token, and what instead of it. -/
theorem Settles.ifOpened {k : Kind} (hk : k ≠ .endOfFileToken) {p q : Leaf → Parse β}
    (hp : ∀ leaf, Settles rank any (p leaf) Q) (hq : ∀ leaf, Settles 3 any (q leaf) Q) :
    Settles rank P (expect k >>= fun leaf => if leaf.missing = true then p leaf else q leaf) Q :=
  opening hk (fun leaf h => by rw [if_pos h]; exact hp leaf)
    fun leaf h => by rw [if_neg (by simp [h])]; exact hq leaf

/-- A list behind an opening token, and what follows it. -/
theorem Settles.enclosed {k close : Kind} (hk : k ≠ .endOfFileToken) (h : Halts 3 any item)
    {f : Leaf → List α → Parse β} (hf : ∀ {rank} leaf items, Settles rank any (f leaf items) Q) :
    Settles rank P (expect k >>= fun leaf => listAfter leaf close item >>= f leaf) Q := by
  refine opening hk (fun leaf hm => ?_) fun leaf hm => ?_
  · rw [listAfter, if_pos hm]
    exact hf leaf []
  · rw [listAfter, if_neg (by simp [hm])]
    exact .bind (halts_listUntil close h) fun _ => hf leaf _

/-- Two names in brackets take two rounds, the second of which finds no comma. -/
example :
    let scope : Scope :=
      { buffer := .ofSource { tokens := [.fixed .openParenToken 0, .place .identifier "a" 1,
          .fixed .commaToken 2, .place .identifier "b" 3, .fixed .closeParenToken 4,
          .endOfFile 5] }
        options := {}
        file := "list.bal" }
    let names : Parse (List Identifier) := expect .openParenToken >>= fun leaf =>
      listAfter leaf .closeParenToken Parse.identifier
    let run (rounds : Nat) := (names ⟨rounds, fun _ _ _ => none, .text⟩ scope {}).map fun x =>
      (x.1.map Identifier.name, x.2.position)
    run 1 = none ∧ run 2 = some (["a", "b"], 4) := by decide +kernel

end Lists

end BallerinaSyntax
