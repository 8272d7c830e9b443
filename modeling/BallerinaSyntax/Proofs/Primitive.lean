import BallerinaSyntax.Proofs.Contract
import BallerinaSyntax.Grammar.Goal

/-!
The contracts of what productions are made of: looking at tokens and taking them, recording errors,
making nodes, and going on after an error.
-/

namespace BallerinaSyntax

open Parse Condition

variable {α β : Type}

/-! ## Looking -/

theorem looks_kind (ahead : Nat) : Looks (kind ahead) fun scope s => scope.kindAt s ahead :=
  fun _ _ _ => rfl

theorem looks_isKind (ahead : Nat) (k : Kind) :
    Looks (isKind ahead k) fun scope s => scope.kindAt s ahead == k :=
  fun _ _ _ => rfl

theorem looks_atKind (k : Kind) : Looks (atKind k) fun scope s => scope.kindAt s 0 == k :=
  fun _ _ _ => rfl

theorem looks_atAny (ks : List Kind) : Looks (atAny ks) fun scope s => ks.contains (scope.kindAt s 0) :=
  fun _ _ _ => rfl

theorem looks_atEnd : Looks atEnd fun scope s => scope.kindAt s 0 == .endOfFileToken :=
  fun _ _ _ => rfl

theorem looks_position : Looks position fun _ s => s.position := fun _ _ _ => rfl

theorem looks_scope : Looks Parse.scope fun scope _ => scope := fun _ _ _ => rfl

theorem looks_isUnwinding : Looks isUnwinding fun _ s => s.unwinding := fun _ _ _ => rfl

theorem looks_goesOn (k : Kind) :
    Looks (goesOn k) fun scope s => scope.kindAt s 0 == k && !s.unwinding :=
  fun _ _ _ => rfl

theorem looks_atListEnd (close : Kind) :
    Looks (atListEnd close) fun scope s =>
      s.unwinding || scope.kindAt s 0 == close || scope.kindAt s 0 == .endOfFileToken :=
  fun _ _ _ => rfl

theorem looks_isName (k : Kind) :
    Looks (isName k) fun scope _ => Operator.isName scope.options.allowAnyIdentifierNames k :=
  fun _ _ _ => rfl

theorem looks_token (ahead : Nat) :
    Looks (token ahead) fun scope s => scope.buffer.get (s.position + ahead) :=
  fun _ _ _ => rfl

theorem looks_describeCurrent :
    Looks describeCurrent fun scope s =>
      let t := scope.buffer.get s.position
      if t.kind == .identifier then "identifier '" ++ t.text ++ "'" else t.kind.describe :=
  fun _ _ _ => rfl

theorem looks_located (range : ByteRange) (message : Message) (args : List String) :
    Looks (located range message args) fun scope _ =>
      .located scope.file range.toSpan message args :=
  fun _ _ _ => rfl

theorem looks_mark : Looks mark fun _ s => ⟨s.position, s.errorCount⟩ := fun _ _ _ => rfl

theorem looks_isQualifiedName (ahead : Nat) :
    Looks (isQualifiedName ahead) fun scope s =>
      let package := scope.buffer.get (s.position + ahead)
      let colon := scope.buffer.get (s.position + (ahead + 1))
      let name := scope.buffer.get (s.position + (ahead + 2))
      package.kind == .identifier && colon.kind == .colonToken && name.kind == .identifier &&
        package.range.stop == colon.range.start && colon.range.stop == name.range.start :=
  fun _ _ _ => rfl

theorem named_of_isName {anyNames : Bool} {scope : Scope} {s : State}
    (h : Operator.isName anyNames (scope.kindAt s 0) = true) : named scope s := by
  unfold named Operator.isName at *
  cases anyNames <;> simp_all

theorem solid_of_named {scope : Scope} {s : State} (h : named scope s) : solid scope s := by
  intro he
  rw [named, he] at h
  cases h

/-! ## Moving -/

/-- Going on to a later place, with no fewer errors, leaves what was read. -/
theorem Since.step {b : Buffer} {m : Mark} {read : List (Part × Parts)} {s t : State}
    (h : Since b m read s) (hp : s.position ≤ t.position) (hb : t.position < b.size)
    (he : s.errorCount ≤ t.errorCount) (hc : t.Consistent) : Since b m read t where
  start := by have := h.start; omega
  inside := hb
  errors := by have := h.errors; omega
  consistent := hc
  ordered := h.ordered
  within x hx := by have := h.within x hx; omega
  apart := h.apart
  noticed x hx e := by have := h.noticed x hx e; omega
  fits := h.fits

/-- A part that begins where reading stands and takes up nothing. -/
theorem Since.push {b : Buffer} {m : Mark} {read : List (Part × Parts)} {s : State} {p : Part}
    (h : Since b m read s) (hp : p.extent = .empty s.position)
    (he : p.erroneous = true → m.errors < s.errorCount) (hf : p.Fits b []) :
    Since b m (read ++ [(p, .nil)]) s := by
  have hn : Since b ⟨s.position, m.errors⟩ [(p, .nil)] s :=
    { start := Nat.le_refl _
      inside := h.inside
      errors := h.errors
      consistent := h.consistent
      ordered := by simp [hp, TokenRange.empty]
      within := by simp [hp, TokenRange.empty]
      apart := List.pairwise_singleton ..
      noticed := by simpa using he
      fits := by simpa [Parts.Sound, Forest.subtrees] using hf }
  exact h.append (show Mark.index ⟨s.position, m.errors⟩ = s.position from rfl) (Nat.le_refl _)
    (Nat.le_refl _) hn

/-- A part read just now. -/
theorem Since.single {b : Buffer} {m : Mark} {s : State} {p : Part} {inside : Parts}
    (h : Since b m [] s) (ho : p.extent.start ≤ p.extent.stop)
    (hw : m.index ≤ p.extent.start ∧ p.extent.stop ≤ s.position)
    (he : p.erroneous = true → m.errors < s.errorCount) (hf : p.Fits b inside.trees)
    (hi : inside.Sound b) : Since b m [(p, inside)] s where
  start := h.start
  inside := h.inside
  errors := h.errors
  consistent := h.consistent
  ordered := by simpa using ho
  within := by simpa using hw
  apart := List.pairwise_singleton ..
  noticed := by simpa using he
  fits := by simpa using ⟨hf, hi⟩

@[simp] theorem Parts.sound_nil (b : Buffer) : Parts.Sound b .nil := by
  simp [Parts.Sound, Forest.subtrees]

theorem Buffer.Ends.lt_of_solid {b : Buffer} (h : b.Ends) {i : Nat} (hi : i < b.size)
    (hk : (b.get i).kind ≠ .endOfFileToken) : i + 1 < b.size := by
  by_contra hn
  apply hk
  have : i = b.size - 1 := by omega
  simpa [Buffer.Ends, Token.isEndOfFile, this] using h

theorem advance_position (scope : Scope) (s : State) (r : Recursion) :
    advance r scope s = some ((), if scope.kindAt s 0 == .endOfFileToken then s
      else { s with position := s.position + 1 }) := rfl

theorem reads_advance : Reads advance := by
  intro P m r scope _ hb s a t hs _ he
  rw [advance_position] at he
  cases he
  split
  · exact hs
  · rename_i h
    exact hs.step (by simp) (hb.lt_of_solid hs.inside (by simpa [Scope.kindAt] using h)) (by simp)
      ⟨hs.consistent.1, hs.consistent.2, hs.consistent.3, hs.consistent.4⟩

/-- Past the current token, which is there. -/
theorem Since.advance {b : Buffer} {m : Mark} {s : State} (hb : b.Ends) (h : Since b m [] s)
    (hk : (b.get s.position).kind ≠ .endOfFileToken) :
    Since b m [] { s with position := s.position + 1 } :=
  h.step (by simp) (hb.lt_of_solid h.inside hk) (by simp)
    ⟨h.consistent.1, h.consistent.2, h.consistent.3, h.consistent.4⟩

theorem bump_eq (r : Recursion) (scope : Scope) (s : State) :
    bump r scope s = some
      ({ kind := scope.kindAt s 0
         index := s.position
         range := (scope.buffer.get s.position).range },
        if scope.kindAt s 0 == .endOfFileToken then s
        else { s with position := s.position + 1 }) := rfl

theorem builds_bump (m : Mark) : Builds m [] solid bump := by
  intro r scope _ hb s a t hs hP he
  rw [bump_eq, if_neg (by simpa [solid] using hP)] at he
  cases he
  refine (hs.advance hb hP).single ?_ ?_ ?_ ?_ ?_
  · simp [Part.extent, Leaf.extent]
  · simpa [Part.extent, Leaf.extent] using hs.start
  · simp [Part.erroneous]
  · exact ⟨⟨hs.inside, rfl, rfl⟩, rfl⟩
  · simp

theorem builds_bumpName (m : Mark) : Builds m [] named bumpName := by
  intro r scope hr hb s a t hs hP he
  have hk := solid_of_named hP
  change some (_, if scope.kindAt s 0 == .endOfFileToken then s else _) = _ at he
  rw [if_neg (by simpa [solid] using hk)] at he
  cases he
  refine (hs.advance hb hk).single ?_ ?_ ?_ ?_ ?_
  · simp [Part.extent, Leaf.extent]
  · simpa [Part.extent, Leaf.extent] using hs.start
  · simp [Part.erroneous]
  · exact ⟨⟨hs.inside, rfl, hP, rfl, congrFun hr.symbol _⟩, rfl⟩
  · simp

section Rules

variable [HasParts α] [HasParts β] {m : Mark} {read : List (Part × Parts)} {P : Condition}

namespace Builds

/-- A token that is kept. -/
theorem bump {k : Leaf → Parse β} (hP : ∀ scope s, P scope s → solid scope s)
    (hk : ∀ leaf, Builds m (read ++ pieces leaf) any (k leaf)) :
    Builds m read P (Parse.bump >>= k) :=
  bindAt (fun n => (builds_bump n).weaken hP) hk

/-- A name that is kept. -/
theorem bumpName {k : Identifier → Parse β} (hP : ∀ scope s, P scope s → named scope s)
    (hk : ∀ name, Builds m (read ++ pieces name) any (k name)) :
    Builds m read P (Parse.bumpName >>= k) :=
  bindAt (fun n => (builds_bumpName n).weaken hP) hk

/-- A name that is kept, behind which it matters what came before. -/
theorem bumpNameNext {k : Identifier → Parse β} (hP : ∀ scope s, P scope s → named scope s)
    (hk : ∀ name, Builds m (read ++ pieces name) (next P) (k name)) :
    Builds m read P (Parse.bumpName >>= k) := by
  refine bindThen (fun n => (builds_bumpName n).weaken hP) (fun r scope s a t hs he => ?_) hk
  change some (_, if scope.kindAt s 0 == .endOfFileToken then s else _) = _ at he
  rw [if_neg (by simpa [solid] using solid_of_named (hP scope s hs))] at he
  cases he
  exact ⟨s, hs, rfl⟩

/-- A token that is not kept, behind which it matters what came before. -/
theorem skipBumpNext {k : Leaf → Parse β} (hP : ∀ scope s, P scope s → solid scope s)
    (hk : ∀ leaf, Builds m read (next P) (k leaf)) : Builds m read P (Parse.bump >>= k) := by
  refine bindThen (fun n => (builds_bump n).weaken hP) (fun r scope s a t hs he => ?_) fun leaf =>
    (hk leaf).drop (List.sublist_append_left ..).subperm
  rw [bump_eq, if_neg (by simpa [solid] using hP scope s hs)] at he
  cases he
  exact ⟨s, hs, rfl⟩

/-- A token that is not kept. -/
theorem skipBump {k : Leaf → Parse β} (hk : ∀ leaf, Builds m read any (k leaf)) :
    Builds m read P (Parse.bump >>= k) := by
  have h : Parse.bump >>= k = token 0 >>= fun t => position >>= fun index => advance >>= fun _ =>
      k { kind := t.kind, index := index, range := t.range } := rfl
  rw [h]
  exact .look (looks_token 0) fun t => .look looks_position fun index => .skip reads_advance fun _ =>
    hk _

/-- A token behind a later mark that is not kept. -/
theorem innerSkipBump {n : Mark} {more : List (Part × Parts)} {k : Leaf → Parse β}
    (hP : ∀ scope s, P scope s → behind m read n more scope s)
    (hk : ∀ leaf, Builds m read (behind m read n more) (k leaf)) :
    Builds m read P (Parse.bump >>= k) := by
  have h : Parse.bump >>= k = token 0 >>= fun t => position >>= fun index => advance >>= fun _ =>
      k { kind := t.kind, index := index, range := t.range } := rfl
  rw [h]
  exact .look (looks_token 0) fun t => .look looks_position fun index =>
    .innerSkip (fun _ _ h => hP _ _ h.1.1) reads_advance fun _ => hk _

/-- What is read where a token of kind `k` is next, and what else. -/
theorem ifAt {k : Kind} {p q : Parse α}
    (hp : Builds m read (fun scope s => P scope s ∧ scope.kindAt s 0 = k) p)
    (hq : Builds m read P q) : Builds m read P (atKind k >>= fun b => if b = true then p else q) := by
  refine .look (looks_atKind k) fun b => .ite (fun h => hp.weaken ?_) fun _ => hq.weaken ?_
  · exact fun scope s hs => ⟨hs.1, by simpa [h] using hs.2⟩
  · exact fun scope s hs => hs.1

end Builds

end Rules

theorem solid_of_kind {k : Kind} (hk : k ≠ .endOfFileToken) {P : Condition} {scope : Scope}
    {s : State} (h : P scope s ∧ scope.kindAt s 0 = k) : solid scope s :=
  fun he => hk (h.2.symm.trans he)

theorem named_of_identifier {P : Condition} {scope : Scope} {s : State}
    (h : P scope s ∧ scope.kindAt s 0 = .identifier) : named scope s := by
  simp [named, h.2, Operator.isName]

theorem reads_optional {k : Kind} (hk : k ≠ .endOfFileToken) : Reads (optional k) :=
  .of fun _ => .ifAt (.bump (fun _ _ => solid_of_kind hk) fun _ => .done (by simp)) (.done (by simp))

theorem reads_accept (k : Kind) : Reads (accept k) := by
  refine .of fun _ => ?_
  unfold accept Parse.optional
  rw [bind_assoc]
  refine .look (looks_atKind k) fun here => ?_
  cases here with
  | true =>
    simp only [if_true, bind_assoc]
    exact .skipBump fun _ => .done (by simp)
  | false => exact .done (by simp)

/-! ## Errors -/

theorem Diagnostics.record_ne_nil (ds : Diagnostics) (file : String) (limit : Nat)
    (d : Diagnostic) : (ds.record file limit d).toList ≠ [] := by
  unfold record
  split
  · simp [add]
  · split
    · simp [add]
    · intro h
      have : ds.size = 0 := by simp [size, h]
      omega

/-- The state after an error at a token. -/
def State.reported (s : State) (scope : Scope) (index : Nat) (d : Diagnostic) : State :=
  let s := { s with errorCount := s.errorCount + 1 }
  if s.unwinding || s.lastErrorAt == some index then s
  else
    { s with
      lastErrorAt := some index
      diagnostics := s.diagnostics.record scope.file scope.options.maxDiagnostics d }

theorem report_eq (r : Recursion) (scope : Scope) (s : State) (index : Nat) (d : Diagnostic) :
    report index d r scope s = some ((), s.reported scope index d) := rfl

@[simp] theorem State.reported_position (s : State) (scope : Scope) (index : Nat)
    (d : Diagnostic) : (s.reported scope index d).position = s.position := by
  unfold reported; simp only; split <;> rfl

@[simp] theorem State.reported_errorCount (s : State) (scope : Scope) (index : Nat)
    (d : Diagnostic) : (s.reported scope index d).errorCount = s.errorCount + 1 := by
  unfold reported; simp only; split <;> rfl

/-- An error is recorded unless another one is there already. -/
theorem State.Consistent.reported {s : State} (h : s.Consistent) (scope : Scope) (index : Nat)
    (d : Diagnostic) : (s.reported scope index d).Consistent := by
  unfold State.reported
  simp only
  split
  · rename_i hs
    have hs : 0 < s.errorCount := by
      rcases Bool.or_eq_true_iff.mp hs with hu | hl
      · exact h.unwinding hu
      · exact h.lastErrorAt (by rw [beq_iff_eq.mp hl]; simp)
    have hd := h.recorded.mp hs
    constructor <;> simp [hd]
  · constructor <;> simp [Diagnostics.record_ne_nil]

theorem reads_report (index : Nat) (d : Diagnostic) : Reads (report index d) := by
  intro P m r scope _ _ s a t hs _ he
  rw [report_eq] at he
  cases he
  exact hs.step (by simp) (by simpa using hs.inside) (by simp) (hs.consistent.reported ..)

theorem complains_report (index : Nat) (d : Diagnostic) : Complains (report index d) := by
  intro r scope s a t he
  rw [report_eq] at he
  cases he
  simp

theorem Complains.look {p : Parse α} {f : Scope → State → α} {k : α → Parse β} (hp : Looks p f)
    (hk : ∀ a, Complains (k a)) : Complains (p >>= k) := by
  intro r scope s b u he
  obtain ⟨a, t, ha, hb⟩ := bind_eq_some.mp he
  rw [hp r scope s] at ha
  cases ha
  exact hk _ _ _ _ _ _ hb

theorem reads_errorHere (message : Message) (args : List String) : Reads (errorHere message args) :=
  .of fun _ => .look (looks_token 0) fun _ => .look looks_position fun _ =>
    .look (looks_located _ _ _) fun _ => reads_report _ _ _ _

theorem complains_errorHere (message : Message) (args : List String) :
    Complains (errorHere message args) :=
  .look (looks_token 0) fun _ => .look looks_position fun _ => .look (looks_located _ _ _) fun _ =>
    complains_report _ _

theorem reads_errorExpected (expected : String) : Reads (errorExpected expected) :=
  .of fun _ => .look looks_describeCurrent fun _ => reads_errorHere _ _ _ _

theorem complains_errorExpected (expected : String) : Complains (errorExpected expected) :=
  .look looks_describeCurrent fun _ => complains_errorHere _ _

theorem reads_errorNoViableAlternative (construct : String) :
    Reads (errorNoViableAlternative construct) :=
  .of fun _ => .look looks_describeCurrent fun _ => reads_errorHere _ _ _ _

theorem complains_errorNoViableAlternative (construct : String) :
    Complains (errorNoViableAlternative construct) :=
  .look looks_describeCurrent fun _ => complains_errorHere _ _

theorem missingToken_eq (k : Kind) (r : Recursion) (scope : Scope) (s : State) :
    missingToken k r scope s = some
      ({ kind := k
         index := s.position
         range := .empty (scope.buffer.get s.position).range.start
         missing := true }, s) := rfl

/-- A token that is made up behind an error. -/
theorem Builds.missingToken [HasParts α] {m : Mark} {read : List (Part × Parts)} {k : Kind}
    {rest : Leaf → Parse α} (hk : ∀ leaf, Builds m (read ++ pieces leaf) (erred m) (rest leaf)) :
    Builds m read (erred m) (Parse.missingToken k >>= rest) := by
  intro r scope hr hb s b u hs hP he
  obtain ⟨leaf, t, hl, he⟩ := bind_eq_some.mp he
  rw [missingToken_eq] at hl
  cases hl
  refine hk _ hr hb (hs.push rfl (fun _ => hP) ?_) hP he
  exact ⟨⟨hs.inside, rfl⟩, rfl⟩

theorem builds_missingToken (m : Mark) (k : Kind) : Builds m [] (erred m) (missingToken k) := by
  intro r scope _ _ s a t hs hP he
  rw [missingToken_eq] at he
  cases he
  refine hs.push rfl (fun _ => hP) ?_
  exact ⟨⟨hs.inside, rfl⟩, rfl⟩

theorem reads_expect {k : Kind} (hk : k ≠ .endOfFileToken) : Reads (expect k) :=
  .of fun m => .ifAt ((builds_bump m).weaken fun _ _ => solid_of_kind hk)
    (.complain (reads_errorExpected _) (complains_errorExpected _) fun _ => builds_missingToken m k)

theorem reads_expectAny {wanted : Kind → Bool} (expected : String)
    (h : wanted .endOfFileToken = false) : Reads (expectAny wanted expected) := by
  refine .of fun m => .look (looks_kind 0) fun k => .ite (fun hk => ?_) fun _ => ?_
  · refine (builds_bump m).weaken fun scope s hs he => ?_
    rw [← hs.2, he, h] at hk
    cases hk
  · exact .complain (reads_errorExpected _) (complains_errorExpected _) fun _ =>
      builds_missingToken m _

theorem reads_missingName : Reads missingName := by
  refine .of fun m => .complain (reads_errorExpected _) (complains_errorExpected _) fun _ => ?_
  intro r scope hr _ s a t hs hP he
  cases (show some (_, s) = some (a, t) from he)
  exact hs.push rfl (fun _ => hP) ⟨⟨hs.inside, rfl, rfl, congrFun hr.symbol _⟩, rfl⟩

theorem reads_identifier : Reads identifier :=
  .of fun m => .ifAt ((builds_bumpName m).weaken fun _ _ => named_of_identifier)
    (reads_missingName _ _)

theorem reads_optionalIdentifier : Reads optionalIdentifier :=
  .of fun _ => .ifAt (.bumpName (fun _ _ => named_of_identifier) fun _ => .done (by simp))
    (.done (by simp))

theorem reads_callableName : Reads callableName := by
  refine .of fun m => .look (looks_kind 0) fun k => .look (looks_isName k) fun b => .ite ?_ ?_
  · intro hb
    refine (builds_bumpName m).weaken fun scope s hs => ?_
    obtain ⟨⟨-, rfl⟩, rfl⟩ := hs
    exact named_of_isName hb
  · exact fun _ => reads_missingName _ _

end BallerinaSyntax
