import BallerinaSyntax.Proofs.Following.Judgement

/-!
What productions are made of, run over two units that look alike: looking at tokens and taking
them, recording errors, and making nodes.
-/

namespace BallerinaSyntax

open Parse

variable {α β : Type} [Relabels α] [Relabels β] {L : Likeness}

/-! ## Looking -/

namespace Likeness

/-- Every place of the second run is as far behind `shift` as that of the first behind `start`. -/
theorem States.index {s t : State} (h : L.States s t) (ahead : Nat) :
    ∃ i, s.position + ahead = i + L.start ∧ t.position + ahead = i + L.shift := by
  have hp : s.position + L.shift = t.position + L.start := h.position
  have hi := h.inside
  exact ⟨s.position + ahead - L.start, by omega, by omega⟩

theorem kindAt_eq (recovery : List (List Kind)) (depth : Nat) {s t : State} (h : L.States s t)
    (ahead : Nat) :
    (L.secondIn recovery depth).kindAt t ahead = (L.firstIn recovery depth).kindAt s ahead := by
  obtain ⟨i, hs, ht⟩ := h.index ahead
  change (L.second.buffer.get (t.position + ahead)).kind = (L.first.buffer.get (s.position + ahead)).kind
  rw [hs, ht]
  exact L.kinds i

end Likeness

theorem sees_kind (ahead : Nat) : Sees L (kind ahead) :=
  .of (looks_kind ahead) fun recovery depth _ _ h => (L.kindAt_eq recovery depth h ahead).symm

theorem sees_isUnwinding : Sees L isUnwinding :=
  .of looks_isUnwinding fun _ _ _ _ h => h.unwinding.symm

theorem sees_isKind (ahead : Nat) (k : Kind) : Sees L (isKind ahead k) :=
  .bind (sees_kind ahead) fun _ => .done _

theorem sees_atKind (k : Kind) : Sees L (atKind k) := sees_isKind 0 k

theorem sees_atAny (ks : List Kind) : Sees L (atAny ks) := .bind (sees_kind 0) fun _ => .done _

theorem sees_atEnd : Sees L atEnd := sees_atKind _

theorem sees_goesOn (k : Kind) : Sees L (goesOn k) :=
  .bind (sees_atKind k) fun _ => .bind sees_isUnwinding fun _ => .done _

theorem sees_atListEnd (close : Kind) : Sees L (atListEnd close) :=
  .bind sees_isUnwinding fun _ => .bind (sees_atKind close) fun _ => .bind sees_atEnd fun _ => .done _

theorem sees_isName (k : Kind) : Sees L (isName k) :=
  .of (looks_isName k) fun _ _ _ _ _ => congrArg (Operator.isName · k) L.names.symm

theorem sees_isQualifiedName (ahead : Nat) : Sees L (isQualifiedName ahead) :=
  .of (looks_isQualifiedName ahead) fun recovery depth s t h => by
    obtain ⟨i, hs, ht⟩ := h.index ahead
    have hq := L.qualified i
    rw [← hs, ← ht] at hq
    exact hq.symm

/-! ## Places and tokens -/

namespace Likeness

theorem Opposite.next {i j : Nat} (h : L.Opposite i j) : L.Opposite (i + 1) (j + 1) := by
  unfold Opposite at *
  omega

/-- Two nodes that are alike begin at indices that correspond. -/
theorem Alike.opposite {info info' : NodeInfo} (h : L.Alike info info') :
    L.Opposite info.tokens.start info'.tokens.start :=
  congrArg (fun info : NodeInfo => info.tokens.start) h

/-- Two tokens of one kind; they are the same where that counts. -/
structure Tokens (L : Likeness) (x y : Token) : Prop where
  kind : y.kind = x.kind
  same : L.verbatim = true → y = x

theorem tokens (i : Nat) :
    L.Tokens (L.first.buffer.get (i + L.start)) (L.second.buffer.get (i + L.shift)) := by
  refine ⟨L.kinds i, fun h => ?_⟩
  obtain ⟨hstart, -, hget⟩ := L.same h
  rw [hstart]
  exact hget i

theorem Tokens.range {x y : Token} (h : L.Tokens x y) : L.Alike x.range y.range :=
  alike_range fun hv => by rw [h.same hv]

theorem Tokens.start {x y : Token} (h : L.Tokens x y) :
    L.Alike (ByteRange.empty x.range.start) (ByteRange.empty y.range.start) :=
  alike_range fun hv => by rw [h.same hv]

theorem Alike.same_range {x y : ByteRange} (h : L.Alike x y) (hv : L.verbatim = true) : x = y := by
  change (if L.verbatim then x else _) = if L.verbatim then y else _ at h
  rwa [if_pos hv, if_pos hv] at h

theorem alike_leaf {k : Kind} {i j : Nat} {x y : ByteRange} (missing : Bool) (hi : L.Opposite i j)
    (h : L.Alike x y) : L.Alike (Leaf.mk k i x missing) (Leaf.mk k j y missing) :=
  congr(Leaf.mk k $hi $h missing)

theorem States.token {s t : State} (h : L.States s t) (ahead : Nat) :
    L.Tokens (L.first.buffer.get (s.position + ahead)) (L.second.buffer.get (t.position + ahead)) := by
  obtain ⟨i, hs, ht⟩ := h.index ahead
  rw [hs, ht]
  exact L.tokens i

theorem States.move {s t : State} (h : L.States s t) {i j : Nat} (hi : L.Opposite i j)
    (hl : s.position ≤ i) : L.States { s with position := i } { t with position := j } :=
  { h with position := hi, inside := Nat.le_trans h.inside hl }

end Likeness

namespace Follows

theorem token {k l : Token → Parse α} {ahead : Nat}
    (hk : ∀ x y, L.Tokens x y → Follows L (k x) (l y)) :
    Follows L (Parse.token ahead >>= k) (Parse.token ahead >>= l) :=
  fun _ _ hr recovery depth _ _ hs => hk _ _ (hs.token ahead) hr recovery depth hs

theorem place {k l : Nat → Parse α} (hk : ∀ i j, L.Opposite i j → Follows L (k i) (l j)) :
    Follows L (position >>= k) (position >>= l) :=
  fun _ _ hr recovery depth _ _ hs => hk _ _ hs.position hr recovery depth hs

end Follows

theorem follows_modify {f g : State → State} (h : ∀ s t, L.States s t → L.States (f s) (g t)) :
    Follows L (modify f) (modify g) := by
  intro _ _ _ _ _ s t hs _ _ he
  cases he
  exact ⟨(), g t, rfl, rfl, h s t hs⟩

theorem follows_advance : Follows L advance advance := by
  intro r r' _ recovery depth s t hs _ _ he
  rw [advance_position] at he
  cases he
  refine ⟨(), _, advance_position .., rfl, ?_⟩
  rw [L.kindAt_eq recovery depth hs]
  split
  · exact hs
  · exact hs.move hs.position.next (Nat.le_succ _)

theorem follows_bump : Follows L bump bump :=
  .token fun _ _ h => .place fun _ _ hi => .bind follows_advance fun _ =>
    .done (h.kind ▸ Likeness.alike_leaf _ hi h.range)

theorem follows_bumpEndOfFile : Follows L bumpEndOfFile bumpEndOfFile := by
  refine .token fun x y h => .place fun i j hi => ?_
  have he : y.isEndOfFile = x.isEndOfFile := congrArg (· == Kind.endOfFileToken) h.kind
  have hd : Follows L (pure (Leaf.mk .endOfFileToken i x.range false))
    (pure (Leaf.mk .endOfFileToken j y.range false)) :=
    .done (Likeness.alike_leaf _ hi h.range)
  rw [he]
  exact .ite (.bind (follows_modify fun s t hs => hs.move hs.position.next (Nat.le_succ _))
    fun _ => hd) hd

theorem follows_missingToken (k : Kind) : Follows L (missingToken k) (missingToken k) :=
  .token fun _ _ h => .place fun _ _ hi => .done (Likeness.alike_leaf _ hi h.start)

theorem follows_optional (k : Kind) : Follows L (optional k) (optional k) :=
  .see (sees_atKind k) fun _ => .ite (.item follows_bump) (.done rfl)

theorem follows_accept (k : Kind) : Follows L (accept k) (accept k) :=
  .bind (follows_optional k) fun leaf => .done leaf.isSome_eq

theorem follows_intern {text text' : String} (h : L.verbatim = true → text = text') :
    Follows L (intern text) (intern text') := by
  intro r r' hr _ _ s t hs symbol s' he
  cases he
  exact ⟨_, t, rfl, hr.symbol text text' h, hs⟩

theorem follows_bumpName : Follows L bumpName bumpName :=
  .token fun _ _ h => .bind (follows_intern fun hv => by rw [h.same hv]) fun symbol =>
    .bind follows_bump fun leaf => .done congr(Identifier.mk { $(leaf.alike) with kind := .identifier }
      $(symbol.alike))

/-! ## Errors -/

namespace Likeness.States

theorem counted {s t : State} (h : L.States s t) :
    L.States { s with errorCount := s.errorCount + 1 } { t with errorCount := t.errorCount + 1 } :=
  { h with
    errorCount := by simp only [h.errorCount]; omega
    recorded := L.count _ _ _ h.recorded }

theorem unwound {s t : State} (h : L.States s t) :
    L.States { s with unwinding := true } { t with unwinding := true } :=
  { h with unwinding := rfl }

/-- An error is recorded in both units or in none. -/
theorem reported {s t : State} (h : L.States s t) {recovery : List (List Kind)} {depth i j : Nat}
    {d e : Diagnostic} (hi : L.Opposite i j) (hp : d.Placed .error) (hd : d.Alike L.verbatim e) :
    L.States (s.reported (L.firstIn recovery depth) i d)
      (t.reported (L.secondIn recovery depth) j e) := by
  have hl : (t.lastErrorAt == some j) = (s.lastErrorAt == some i) := by
    rw [Bool.eq_iff_iff, beq_iff_eq, beq_iff_eq]
    exact h.lastErrorAt i j hi
  have hc : (t.unwinding || t.lastErrorAt == some j) = (s.unwinding || s.lastErrorAt == some i) := by
    rw [h.unwinding, hl]
  unfold State.reported
  simp only
  rw [hc]
  split
  · exact h.counted
  · refine ⟨h.position, h.inside, h.counted.errorCount, h.unwinding, h.depthReported,
      fun k l hk => ?_, L.record _ _ _ _ _ h.recorded hp hd⟩
    simp only [Option.some_inj]
    unfold Likeness.Opposite at hi hk
    omega

end Likeness.States

theorem follows_countError : Follows L countError countError :=
  follows_modify fun _ _ hs => hs.counted

theorem follows_startUnwinding : Follows L startUnwinding startUnwinding :=
  follows_modify fun _ _ hs => hs.unwound

theorem follows_report {i j : Nat} {d e : Diagnostic} (hi : L.Opposite i j)
    (hp : d.Placed .error) (hd : d.Alike L.verbatim e) : Follows L (report i d) (report j e) := by
  intro _ _ _ _ _ s t hs _ _ he
  cases he
  exact ⟨(), _, rfl, rfl, hs.reported hi hp hd⟩

namespace Follows

/-- What follows a diagnostic at a place. -/
theorem located {k l : Diagnostic → Parse α} {x y : ByteRange} {message : Message}
    {args args' : List String} (hr : L.Alike x y) (ha : L.verbatim = true → args = args')
    (hk : ∀ d e, d.Placed message.severity → d.Alike L.verbatim e → Follows L (k d) (l e)) :
    Follows L (located x message args >>= k) (located y message args' >>= l) := by
  intro r r' hr' recovery depth s t hs
  refine hk (.located L.first.file x.toSpan message args)
    (.located L.second.file y.toSpan message args') ⟨rfl, rfl⟩ ⟨rfl, fun hv => ?_⟩ hr' recovery depth hs
  rw [(L.same hv).2.1, hr.same_range hv, ha hv]

/-- What follows a description of the current token. -/
theorem describe {k l : String → Parse α}
    (hk : ∀ x y, (L.verbatim = true → x = y) → Follows L (k x) (l y)) :
    Follows L (describeCurrent >>= k) (describeCurrent >>= l) :=
  fun _ _ hr recovery depth _ _ hs => hk _ _ (fun hv => (congrArg (fun t : Token =>
    if t.kind == .identifier then "identifier '" ++ t.text ++ "'" else t.kind.describe)
    ((hs.token 0).same hv)).symm) hr recovery depth hs

end Follows

theorem follows_errorHere {message : Message} {args args' : List String}
    (hm : message.severity = .error) (h : L.verbatim = true → args = args') :
    Follows L (errorHere message args) (errorHere message args') :=
  .token fun _ _ ht => .place fun _ _ hi => .located ht.range h fun _ _ hp hd =>
    follows_report hi (hm ▸ hp) hd

theorem follows_errorExpected (expected : String) :
    Follows L (errorExpected expected) (errorExpected expected) :=
  .describe fun _ _ h => follows_errorHere rfl fun hv => by rw [h hv]

theorem follows_errorNoViableAlternative (construct : String) :
    Follows L (errorNoViableAlternative construct) (errorNoViableAlternative construct) :=
  .describe fun _ _ h => follows_errorHere rfl fun hv => by rw [h hv]

theorem follows_expect (k : Kind) : Follows L (expect k) (expect k) :=
  .see (sees_atKind k) fun _ => .ite follows_bump <| .bind (follows_errorExpected _) fun _ =>
    follows_missingToken k

theorem follows_expectAny (wanted : Kind → Bool) (expected : String) :
    Follows L (expectAny wanted expected) (expectAny wanted expected) :=
  .see (sees_kind 0) fun _ => .ite follows_bump <| .bind (follows_errorExpected _) fun _ =>
    follows_missingToken _

theorem follows_missingName : Follows L missingName missingName :=
  .bind (follows_errorExpected _) fun _ => .bind (follows_missingToken _) fun leaf =>
    .bind (follows_intern fun _ => rfl) fun symbol =>
      .done congr(Identifier.mk $(leaf.alike) $(symbol.alike))

theorem follows_identifier : Follows L identifier identifier :=
  .see (sees_atKind _) fun _ => .ite follows_bumpName follows_missingName

theorem follows_optionalIdentifier : Follows L optionalIdentifier optionalIdentifier :=
  .see (sees_atKind _) fun _ => .ite (.item follows_bumpName) (.done rfl)

theorem follows_callableName : Follows L callableName callableName :=
  .see (sees_kind 0) fun k => .see (sees_isName k) fun _ => .ite follows_bumpName follows_missingName

/-! ## Nodes -/

namespace Likeness

theorem getElem?_eq (hv : L.verbatim = true) (i : Nat) :
    L.second.buffer.tokens[i + L.shift]? = L.first.buffer.tokens[i]? := by
  obtain ⟨hstart, -, hget⟩ := L.same hv
  have hs := L.size
  rw [hstart] at hs
  by_cases hi : i < L.first.buffer.size
  · rw [Buffer.getElem?_eq_get hi, Buffer.getElem?_eq_get (by omega), hget]
  · unfold Buffer.size at *
    rw [Array.getElem?_eq_none (by omega), Array.getElem?_eq_none (by omega)]

theorem rangeOf_eq (hv : L.verbatim = true) (start stop : Nat) :
    L.second.buffer.rangeOf? (start + L.shift) (stop + L.shift) =
      L.first.buffer.rangeOf? start stop := by
  unfold Buffer.rangeOf?
  by_cases h : start < stop
  · rw [if_pos h, if_pos (by omega), show stop + L.shift - 1 = stop - 1 + L.shift by omega,
      L.getElem?_eq hv, L.getElem?_eq hv]
  · rw [if_neg h, if_neg (by omega)]

/-- The nodes that end at places that correspond. -/
theorem alike_nodeOf (m : Twins L Mark) {s t : State} (h : L.States s t) (k : Kind) :
    L.Alike (L.first.buffer.nodeOf m.first s k) (L.second.buffer.nodeOf m.second t k) := by
  have hi : m.first.index + L.shift = m.second.index + L.start := congrArg Mark.index m.alike
  have he : m.first.errors + L.errors = m.second.errors := congrArg Mark.errors m.alike
  have hr : L.Alike
      ((L.first.buffer.rangeOf? m.first.index s.position).getD
        (.empty (L.first.buffer.get s.position).range.start))
      ((L.second.buffer.rangeOf? m.second.index t.position).getD
        (.empty (L.second.buffer.get t.position).range.start)) :=
    alike_range fun hv => by
      obtain ⟨hstart, -, hget⟩ := L.same hv
      have hp : s.position + L.shift = t.position + L.start := h.position
      rw [hstart, Nat.add_zero] at hi hp
      rw [← hi, ← hp, L.rangeOf_eq hv, hget]
  have hp : relabel L.moved (TokenRange.mk m.first.index s.position) =
      relabel L.stayed (TokenRange.mk m.second.index t.position) :=
    congr(TokenRange.mk $hi $(h.position))
  have hf : decide (m.first.errors < s.errorCount) = decide (m.second.errors < t.errorCount) := by
    rw [← he, h.errorCount]
    simp
  exact congr(NodeInfo.mk k $hr $hp { hasError := $hf } {})

end Likeness

theorem follows_mark : Follows L mark mark := by
  intro _ _ _ _ _ s t hs _ _ he
  cases he
  exact ⟨_, t, rfl, congr(Mark.mk $(hs.position) $(hs.errorCount.symm)), hs⟩

theorem follows_finish (m : Twins L Mark) (k : Kind) :
    Follows L (finish m.first k) (finish m.second k) := by
  intro r r' _ recovery depth s t hs _ _ he
  rw [finish_eq] at he
  cases he
  exact ⟨_, t, finish_eq .., L.alike_nodeOf m hs k, hs⟩

theorem follows_finishDelimited (m : Twins L Mark) (k : Kind) (close : Twins L Leaf) :
    Follows L (finishDelimited m.first k close.first) (finishDelimited m.second k close.second) :=
  .bind (follows_finish m k) fun info => .done <| by
    rw [close.missing_eq]
    split
    · exact congr({ $(info.alike) with flags := { ($(info.alike) : NodeInfo).flags with unterminated := true } })
    · exact info.alike

theorem follows_finishModified (m : Twins L Mark) (k : Kind) (modifiers : Modifiers) :
    Follows L (finishModified m.first k modifiers) (finishModified m.second k modifiers) :=
  .bind (follows_finish m k) fun info => .done congr({ $(info.alike) with modifiers := modifiers })

theorem follows_placeholder (k : Kind) : Follows L (placeholder k) (placeholder k) := by
  refine .token fun x y h => .place fun i j hi => .done ?_
  have hp : L.Alike (TokenRange.empty i) (TokenRange.empty j) := congr(TokenRange.mk $hi $hi)
  exact congr(NodeInfo.mk k $(h.start) $hp { hasError := true, missing := true } {})

namespace Follows

variable {m : Twins L Mark}

/-- The last step of most productions. -/
theorem node {k : Kind} {f g : NodeInfo → α}
    (h : ∀ info : Twins L NodeInfo, L.Alike (f info.first) (g info.second)) :
    Follows L (finish m.first k >>= fun info => pure (f info))
      (finish m.second k >>= fun info => pure (g info)) :=
  .bind (follows_finish m k) fun info => .done (h info)

/-- A placeholder for a construct that is missing. -/
theorem placeholder {k : Kind} {f g : NodeInfo → α}
    (h : ∀ info : Twins L NodeInfo, L.Alike (f info.first) (g info.second)) :
    Follows L (Parse.placeholder k >>= fun info => pure (f info))
      (Parse.placeholder k >>= fun info => pure (g info)) :=
  .bind (follows_placeholder k) fun info => .done (h info)

/-- The last step of productions in brackets. -/
theorem delimited {k : Kind} {close : Twins L Leaf} {f g : NodeInfo → α}
    (h : ∀ info : Twins L NodeInfo, L.Alike (f info.first) (g info.second)) :
    Follows L (finishDelimited m.first k close.first >>= fun info => pure (f info))
      (finishDelimited m.second k close.second >>= fun info => pure (g info)) :=
  .bind (follows_finishDelimited m k close) fun info => .done (h info)

end Follows

end BallerinaSyntax
