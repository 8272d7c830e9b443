import BallerinaSyntax.Proofs.Primitive

/-!
The contracts of nodes, lists and recovery. A node holds whatever was read since its mark, so it
fits it; skipping, unwinding and rewinding only ever drop parts.
-/

namespace BallerinaSyntax

open Parse Condition

variable {α β : Type}

/-! ## Nodes -/

/-- The node over all tokens between a mark and a state. -/
def Buffer.nodeOf (b : Buffer) (m : Mark) (s : State) (k : Kind) : NodeInfo where
  kind := k
  range := (b.rangeOf? m.index s.position).getD (.empty (b.get s.position).range.start)
  tokens := ⟨m.index, s.position⟩
  flags := { hasError := m.errors < s.errorCount }

theorem finish_eq (m : Mark) (k : Kind) (r : Recursion) (scope : Scope) (s : State) :
    finish m k r scope s = some (scope.buffer.nodeOf m s k, s) := rfl

/-- A node whose closing token is missing. -/
def NodeInfo.leftOpen (info : NodeInfo) : NodeInfo :=
  { info with flags := { info.flags with unterminated := true } }

theorem finishDelimited_eq (m : Mark) (k : Kind) (close : Leaf) (r : Recursion) (scope : Scope)
    (s : State) :
    finishDelimited m k close r scope s = some (if close.missing = true then
      (scope.buffer.nodeOf m s k).leftOpen else scope.buffer.nodeOf m s k, s) := by
  cases h : close.missing <;> simp [finishDelimited, bind, Parse.bind, finish_eq, h] <;> rfl

theorem Buffer.getElem?_eq_get {b : Buffer} {i : Nat} (h : i < b.size) :
    b.tokens[i]? = some (b.get i) := by
  have : min i (b.tokens.size - 1) = i := by unfold size at h; omega
  simp only [get, this]
  exact Array.getElem?_eq_getElem h

theorem Buffer.rangeOf_getD {b : Buffer} {start stop : Nat} (h : start ≤ stop) (hb : stop ≤ b.size) :
    (b.rangeOf? start stop).getD (.empty (b.get stop).range.start) = b.bytesOf ⟨start, stop⟩ := by
  unfold rangeOf? bytesOf
  split
  · rw [getElem?_eq_get (by omega), getElem?_eq_get (by omega)]
    rfl
  · have : start = stop := by omega
    simp [this]

/-- The node that ends here fits what was read since its mark, also with more flags if there was an
error. -/
theorem Since.node {b : Buffer} {m : Mark} {read : List (Part × Parts)} {s : State}
    {info : NodeInfo} {inside : Parts} (h : Since b m read s) (hi : inside.trees.Subperm read)
    (ht : info.tokens = ⟨m.index, s.position⟩) (hr : info.range = b.bytesOf info.tokens)
    (he : info.flags.hasError = true ↔ m.errors < s.errorCount)
    (hm : info.flags.missing = true → m.errors < s.errorCount)
    (hu : info.flags.unterminated = true → m.errors < s.errorCount) :
    Since b m [(.node info, inside)] s := by
  have hd := h.drop hi
  have hl := h.start
  have hs := h.inside
  refine (h.drop List.nil_subperm).single ?_ ?_ ?_ ?_ ?_
  · simpa [Part.extent, ht] using hl
  · simp [Part.extent, ht]
  · simp [Part.erroneous, he]
  · refine ⟨by simpa [ht], by simp [ht]; omega, by simp [ht]; omega, hr, ?_, hd.apart, ?_, ?_, ?_⟩
    · intro x hx
      simpa [ht] using hd.within x hx
    · exact fun x hx e => he.mpr (hd.noticed x hx e)
    · exact fun e => he.mpr (hm e)
    · exact fun e => he.mpr (hu e)
  · exact Parts.sound_iff.mpr hd.fits

/-- Two nodes that tell the same of their places and of errors. -/
structure NodeInfo.Agrees (info other : NodeInfo) : Prop where
  tokens : info.tokens = other.tokens
  range : info.range = other.range
  flags : info.flags = other.flags

theorem NodeInfo.Agrees.refl (info : NodeInfo) : info.Agrees info := ⟨rfl, rfl, rfl⟩

theorem Since.nodeOf {b : Buffer} {m : Mark} {read : List (Part × Parts)} {s : State} {k : Kind}
    {info : NodeInfo} {inside : Parts} (h : Since b m read s) (ha : info.Agrees (b.nodeOf m s k))
    (hi : inside.trees.Subperm read) : Since b m [(.node info, inside)] s := by
  have := h.start
  have := h.inside
  refine h.node hi ha.tokens ?_ ?_ ?_ ?_
  · rw [ha.range, ha.tokens]
    exact Buffer.rangeOf_getD h.start (by omega)
  · simp [ha.flags, Buffer.nodeOf]
  · simp [ha.flags, Buffer.nodeOf]
  · simp [ha.flags, Buffer.nodeOf]

section Rules

variable [HasParts α] [HasParts β] {m : Mark} {read : List (Part × Parts)} {P : Condition}

namespace Builds

/-- A node over what was read, also with another kind or with modifiers. -/
theorem nodeAs {k : Kind} {f : NodeInfo → α} {g : NodeInfo → NodeInfo} {inside : Parts}
    (hf : ∀ info, parts (f info) = Parts.node (g info) inside) (hg : ∀ info, (g info).Agrees info)
    (hi : inside.trees.Subperm read) :
    Builds m read P (finish m k >>= fun info => pure (f info)) := by
  intro r scope _ _ s a t hs _ he
  obtain ⟨info, u, hu, hp⟩ := bind_eq_some.mp he
  obtain ⟨rfl, rfl⟩ := pure_eq_some.mp hp
  rw [finish_eq] at hu
  cases hu
  simpa [pieces, hf, Parts.node] using hs.nodeOf (hg _) hi

/-- The last step of most productions: a node over what was read. -/
theorem node {k : Kind} {f : NodeInfo → α} {inside : Parts}
    (hf : ∀ info, parts (f info) = Parts.node info inside) (hi : inside.trees.Subperm read) :
    Builds m read P (finish m k >>= fun info => pure (f info)) :=
  nodeAs hf NodeInfo.Agrees.refl hi

/-- A node that is not the last step. -/
theorem nodeThen {k : Kind} {rest : NodeInfo → Parse α} (inside : Parts)
    (hi : inside.trees.Subperm read)
    (hk : ∀ info, Builds m [(.node info, inside)] any (rest info)) :
    Builds m read P (finish m k >>= rest) := by
  intro r scope hr hb s a u hs _ he
  obtain ⟨info, t, ht, hu⟩ := bind_eq_some.mp he
  rw [finish_eq] at ht
  cases ht
  exact hk _ hr hb (hs.nodeOf (.refl _) hi) trivial hu

/-- A node whose modifiers were read before it. -/
theorem modified {k : Kind} {modifiers : Modifiers} {f : NodeInfo → α} {inside : Parts}
    (hf : ∀ info, parts (f info) = Parts.node info inside) (hi : inside.trees.Subperm read) :
    Builds m read P (finishModified m k modifiers >>= fun info => pure (f info)) := by
  have h : finishModified m k modifiers >>= (fun info => pure (f info)) =
    finish m k >>= fun info => (pure (f { info with modifiers := modifiers }) : Parse α) := rfl
  rw [h]
  exact nodeAs (fun _ => hf _) (fun _ => ⟨rfl, rfl, rfl⟩) hi

/-- A node over what was read behind a later mark. -/
theorem innerNodeAs {n : Mark} {more : List (Part × Parts)} {k : Kind} {rest : NodeInfo → Parse α}
    {g : NodeInfo → NodeInfo} (inside : Parts)
    (hP : ∀ scope s, P scope s → behind m read n more scope s) (hg : ∀ info, (g info).Agrees info)
    (hi : inside.trees.Subperm more)
    (hk : ∀ info, Builds m (read ++ [(.node (g info), inside)]) any (rest info)) :
    Builds m read P (finish n k >>= rest) := by
  intro r scope hr hb s a u _ hs he
  obtain ⟨info, t, ht, hu⟩ := bind_eq_some.mp he
  rw [finish_eq] at ht
  cases ht
  obtain ⟨hn, s₀, hm, rfl⟩ := hP scope s hs
  exact hk _ hr hb (hm.trans (hn.nodeOf (hg _) hi)) trivial hu

theorem innerNode {n : Mark} {more : List (Part × Parts)} {k : Kind} {rest : NodeInfo → Parse α}
    (inside : Parts) (hP : ∀ scope s, P scope s → behind m read n more scope s)
    (hi : inside.trees.Subperm more)
    (hk : ∀ info, Builds m (read ++ [(.node info, inside)]) any (rest info)) :
    Builds m read P (finish n k >>= rest) :=
  innerNodeAs inside hP NodeInfo.Agrees.refl hi hk

theorem innerModified {n : Mark} {more : List (Part × Parts)} {k : Kind} {modifiers : Modifiers}
    {rest : NodeInfo → Parse α} (inside : Parts)
    (hP : ∀ scope s, P scope s → behind m read n more scope s) (hi : inside.trees.Subperm more)
    (hk : ∀ info, Builds m (read ++ [(.node info, inside)]) any (rest info)) :
    Builds m read P (finishModified n k modifiers >>= rest) := by
  have h : finishModified n k modifiers >>= rest =
    finish n k >>= fun info => rest { info with modifiers := modifiers } := rfl
  rw [h]
  exact innerNodeAs (g := fun info => { info with modifiers := modifiers }) inside hP
    (fun _ => ⟨rfl, rfl, rfl⟩) hi fun _ => hk _

/-- A node that was not read as it should be, behind an error. -/
theorem failed {k : Kind} {f : NodeInfo → α} {g : NodeInfo → NodeInfo} {inside : Parts}
    (hf : ∀ info, parts (f info) = Parts.node (g info) inside)
    (ht : ∀ info, (g info).tokens = info.tokens) (hr : ∀ info, (g info).range = info.range)
    (he : ∀ info, info.flags.hasError = true → (g info).flags.hasError = true)
    (hi : inside.trees.Subperm read) :
    Builds m read (erred m) (finish m k >>= fun info => pure (f info)) := by
  intro r scope _ _ s a t hs hP hu
  obtain ⟨info, u, hn, hp⟩ := bind_eq_some.mp hu
  obtain ⟨rfl, rfl⟩ := pure_eq_some.mp hp
  rw [finish_eq] at hn
  cases hn
  have := hs.start
  have := hs.inside
  have hP : m.errors < s.errorCount := hP
  have hg := he (scope.buffer.nodeOf m s k) (by simpa [Buffer.nodeOf] using hP)
  rw [pieces, hf]
  refine hs.node hi (ht _) ?_ (by simp [hg, hP]) (fun _ => hP) fun _ => hP
  rw [hr, ht]
  exact Buffer.rangeOf_getD hs.start (by omega)

/-- A node in brackets, also with modifiers; that its closing token is missing was counted as an
error. -/
theorem closedAs {k : Kind} {close : Leaf} {f : NodeInfo → α} {g : NodeInfo → NodeInfo}
    {inside : Parts} (hf : ∀ info, parts (f info) = Parts.node (g info) inside)
    (hg : ∀ info, (g info).Agrees info) (hc : (pieces close).Subperm read)
    (hi : inside.trees.Subperm read) :
    Builds m read P (finishDelimited m k close >>= fun info => pure (f info)) := by
  intro r scope _ _ s a t hs _ he
  obtain ⟨info, u, hu, hp⟩ := bind_eq_some.mp he
  obtain ⟨rfl, rfl⟩ := pure_eq_some.mp hp
  rw [finishDelimited_eq] at hu
  cases hu
  have := hs.start
  have := hs.inside
  rw [pieces, hf]
  split
  · rename_i hm
    have hg := hg (scope.buffer.nodeOf m s k).leftOpen
    refine hs.node hi hg.tokens ?_ ?_ ?_ fun _ =>
      hs.noticed (.token close, .nil) (hc.subset (List.mem_singleton.mpr rfl)) hm
    · rw [hg.range, hg.tokens]
      exact Buffer.rangeOf_getD hs.start (by omega)
    · rw [hg.flags]
      simp [NodeInfo.leftOpen, Buffer.nodeOf]
    · rw [hg.flags]
      simp [NodeInfo.leftOpen, Buffer.nodeOf]
  · exact hs.nodeOf (hg _) hi

/-- A node in brackets that keeps its closing token. -/
theorem closed {k : Kind} {close : Leaf} {f : NodeInfo → α} {inside : Parts}
    (hf : ∀ info, parts (f info) = Parts.node info inside) (hc : (pieces close).Subperm read)
    (hi : inside.trees.Subperm read) :
    Builds m read P (finishDelimited m k close >>= fun info => pure (f info)) :=
  closedAs hf NodeInfo.Agrees.refl hc hi

/-- A node in brackets that does not keep its closing token. -/
theorem delimited {k : Kind} {close : Leaf} {f : NodeInfo → α} {inside : Parts}
    (hf : ∀ info, parts (f info) = Parts.node info inside) (hi : inside.trees.Subperm read) :
    Builds m (read ++ pieces close) P (finishDelimited m k close >>= fun info => pure (f info)) :=
  closed hf (List.sublist_append_right ..).subperm
    (hi.trans (List.sublist_append_left ..).subperm)

end Builds

theorem looks_placeholder (k : Kind) :
    Looks (placeholder k) fun scope s =>
      .placeholder k s.position (scope.buffer.get s.position).range.start :=
  fun _ _ _ => rfl

/-- A placeholder behind an error. -/
theorem builds_placeholder (m : Mark) (k : Kind) : Builds m read (erred m) (placeholder k) := by
  intro r scope _ _ s a t hs hP he
  cases (show some (NodeInfo.placeholder k s.position (scope.buffer.get s.position).range.start, s)
    = some (a, t) from he)
  refine (hs.drop List.nil_subperm).push rfl (fun _ => hP) ?_
  refine ⟨Nat.le_refl _, Nat.le_of_lt hs.inside, hs.inside, ?_, by simp, by simp, by simp, ?_, nofun⟩
  · simp [NodeInfo.placeholder, TokenRange.empty, Buffer.bytesOf]
  · exact fun _ => rfl

end Rules

/-! ## Skipping -/

theorem Buffer.seek_spec (b : Buffer) (stop : Kind → Bool) (n i : Nat) :
    i ≤ b.seek stop n i ∧ b.seek stop n i ≤ i + n ∧
      (∀ j, i ≤ j → j < b.seek stop n i → stop (b.get j).kind = false) ∧
      (b.seek stop n i < i + n → stop (b.get (b.seek stop n i)).kind = true) := by
  induction n generalizing i with
  | zero => simp only [seek]; exact ⟨by omega, by omega, by intros; omega, by omega⟩
  | succ n ih =>
    simp only [seek]
    split
    · exact ⟨by omega, by omega, by intros; omega, fun _ => ‹_›⟩
    · rename_i hi
      obtain ⟨h1, h2, h3, h4⟩ := ih (i + 1)
      refine ⟨by omega, by omega, fun j hj hl => ?_, fun h => h4 (by omega)⟩
      by_cases hij : i = j
      · subst hij; simpa using hi
      · exact h3 j (by omega) hl

/-- Skipping ends at the latest at the end of the file. -/
theorem Buffer.Ends.seek_lt {b : Buffer} (h : b.Ends) {stop : Kind → Bool}
    (hs : stop .endOfFileToken = true) {i : Nat} (hi : i < b.size) :
    b.seek stop (b.size - i) i < b.size := by
  obtain ⟨-, h2, h3, -⟩ := b.seek_spec stop (b.size - i) i
  by_contra hn
  have := h3 (b.size - 1) (by omega) (by omega)
  have he : (b.get (b.size - 1)).kind = .endOfFileToken := by
    simpa [Ends, Token.isEndOfFile] using h
  rw [he, hs] at this
  cases this

/-- Where a skip ends. -/
def Scope.found (scope : Scope) (stop : Kind → Bool) (s : State) : Nat :=
  scope.buffer.seek (fun k => k == .endOfFileToken || stop k) (scope.buffer.size - s.position)
    s.position

theorem skipTo_eq (stop : Kind → Bool) (r : Recursion) (scope : Scope) (s : State) :
    skipTo stop r scope s =
      some (scope.found stop s - s.position, { s with position := scope.found stop s }) := rfl

theorem Scope.le_found (scope : Scope) (stop : Kind → Bool) (s : State) :
    s.position ≤ scope.found stop s := (scope.buffer.seek_spec _ _ _).1

theorem Scope.found_lt {scope : Scope} (h : scope.buffer.Ends) (stop : Kind → Bool) {s : State}
    (hs : s.position < scope.buffer.size) : scope.found stop s < scope.buffer.size :=
  h.seek_lt (by simp) hs

theorem State.Consistent.move {s : State} (h : s.Consistent) (position : Nat) :
    State.Consistent { s with position := position } := ⟨h.1, h.2, h.3, h.4⟩

theorem reads_skipTo (stop : Kind → Bool) : Reads (skipTo stop) := by
  intro P m r scope _ hb s a t hs _ he
  rw [skipTo_eq] at he
  cases he
  exact hs.step (scope.le_found stop s) (scope.found_lt hb stop hs.inside) (Nat.le_refl _)
    (hs.consistent.move _)

theorem reads_skipUntil (sync : Kind → Bool) (lookingFor : String) :
    Reads (skipUntil sync lookingFor) := by
  refine .of fun m => .look looks_scope fun scope => .look looks_position fun start => ?_
  refine .look (looks_token 0) fun first => .look looks_describeCurrent fun found => ?_
  refine .skip (reads_skipTo _) fun skipped => .ite (fun _ => ?reported) fun _ => .done (by simp)
  case reported =>
    exact .look (looks_located _ _ _) fun d => .skip (reads_report _ _) fun _ => .done (by simp)

theorem reads_bumpUnexpected (lookingFor : String) : Reads (bumpUnexpected lookingFor) :=
  .of fun _ => .look (looks_token 0) fun _ => .look looks_describeCurrent fun _ =>
    .look looks_position fun _ => .look (looks_located _ _ _) fun _ => .skip (reads_report _ _) fun _ =>
      reads_advance _ _

/-! ## Rounds that move -/

theorem Builds.progressing [HasParts α] {m : Mark} {read : List (Part × Parts)} {P : Condition}
    {p : Parse α} (what : String) (hp : Builds m read P p) :
    Builds m read P (progressing what p) := by
  refine .look looks_position fun before => (hp.weaken fun _ _ h => h.1).andThen fun a => ?_
  refine .look looks_position fun _ => .look looks_isUnwinding fun _ => .ite (fun _ => ?_) fun _ =>
    .done (by simp)
  exact .skip (reads_bumpUnexpected what) fun _ => .done (by simp)

theorem Reads.progressing [HasParts α] {p : Parse α} (what : String) (hp : Reads p) :
    Reads (progressing what p) :=
  fun P m => Builds.progressing what (hp P m)

/-! ## Closing -/

theorem State.Consistent.unwind {s : State} (h : s.Consistent) (he : 0 < s.errorCount) :
    State.Consistent { s with unwinding := true } :=
  ⟨h.1, fun _ => he, h.3, h.4⟩

/-- An error that is not recorded follows one that is. -/
theorem State.Consistent.count {s : State} (h : s.Consistent) (he : 0 < s.errorCount) :
    State.Consistent { s with errorCount := s.errorCount + 1 } := by
  have hd := h.recorded.mp he
  constructor <;> simp [hd]

theorem reportUnterminated_eq (opening : Leaf) (close : Kind) (construct : String) :
    ∃ d : Scope → Diagnostic, ∀ r scope s, reportUnterminated opening close construct r scope s =
      some ((), { s.reported scope opening.index (d scope) with unwinding := true }) :=
  ⟨_, fun _ _ _ => rfl⟩

theorem reads_reportUnterminated (opening : Leaf) (close : Kind) (construct : String) :
    Reads (reportUnterminated opening close construct) := by
  intro P m r scope _ _ s a t hs _ he
  obtain ⟨d, hd⟩ := reportUnterminated_eq opening close construct
  rw [hd] at he
  cases he
  exact hs.step (by simp) (by simpa using hs.inside) (by simp)
    ((hs.consistent.reported scope opening.index _).unwind (by simp))

theorem complains_reportUnterminated (opening : Leaf) (close : Kind) (construct : String) :
    Complains (reportUnterminated opening close construct) := by
  intro r scope s a t he
  obtain ⟨d, hd⟩ := reportUnterminated_eq opening close construct
  rw [hd] at he
  cases he
  simp

/-- While something is being unwound, an error is there already. -/
theorem Builds.countError [HasParts α] {m : Mark} {read : List (Part × Parts)} {P : Condition}
    {k : Unit → Parse α} (hP : ∀ scope s, P scope s → s.Consistent → 0 < s.errorCount)
    (hk : ∀ u, Builds m read (erred m) (k u)) : Builds m read P (Parse.countError >>= k) := by
  intro r scope hr hb s b u hs hp he
  obtain ⟨a, t, ha, hb'⟩ := bind_eq_some.mp he
  cases (show some ((), { s with errorCount := s.errorCount + 1 }) = some (a, t) from ha)
  have hc := hs.consistent.count (hP scope s hp hs.consistent)
  have hm := hs.errors
  have ht : Since scope.buffer m read { s with errorCount := s.errorCount + 1 } :=
    hs.step (by simp) hs.inside (by simp) hc
  exact hk _ hr hb ht (by simp [erred]; omega) hb'

theorem reads_expectClosing (opening : Leaf) {close : Kind} (construct : String)
    (hk : close ≠ .endOfFileToken) : Reads (expectClosing opening close construct) := by
  refine .of fun m => .ifAt ((builds_bump m).weaken fun _ _ => solid_of_kind hk) ?_
  refine .ite (fun _ => reads_expect hk _ _) fun _ => ?_
  refine .look looks_isUnwinding fun unwinding => .ite (fun hu => ?_) fun _ => ?_
  · refine .countError (fun scope s h hc => hc.unwinding (h.2.trans hu)) fun _ => ?_
    exact builds_missingToken m close
  · refine .skip (reads_skipUntil _ _) fun _ => ?_
    refine .ifAt ((builds_bump m).weaken fun _ _ => solid_of_kind hk) ?_
    exact .complain (reads_reportUnterminated _ _ _) (complains_reportUnterminated _ _ _) fun _ =>
      builds_missingToken m close

/-! ## Nesting and attempts -/

theorem State.reported_depthReported (s : State) (scope : Scope) (index : Nat) (d : Diagnostic) :
    State.reported { s with depthReported := true } scope index d =
      { s.reported scope index d with depthReported := true } := by
  unfold reported; simp only; split <;> rfl

/-- The state in which a construct that nests too deep is given up. -/
def State.tooDeep (s : State) (scope : Scope) : State :=
  let s :=
    if s.depthReported then { s with errorCount := s.errorCount + 1 }
    else
      State.reported { s with depthReported := true } scope s.position
        (.located scope.file (scope.buffer.get s.position).range.toSpan .nestingTooDeep
          [toString scope.options.maxNestingDepth])
  { s with unwinding := true }

theorem nested_eq (p fallback : Parse α) (r : Recursion) (scope : Scope) (s : State) :
    nested p fallback r scope s =
      if scope.options.maxNestingDepth ≤ scope.depth then fallback r scope (s.tooDeep scope)
      else p r { scope with depth := scope.depth + 1 } s := by
  change (if _ then _ else _ : Parse α) r scope s = _
  by_cases hd : scope.options.maxNestingDepth ≤ scope.depth
  · rw [if_pos hd, if_pos hd]
    obtain ⟨_, _, _, _, _, reported⟩ := s
    cases reported <;> rfl
  · rw [if_neg hd, if_neg hd]
    rfl

@[simp] theorem State.tooDeep_position (s : State) (scope : Scope) :
    (s.tooDeep scope).position = s.position := by
  unfold tooDeep; split <;> simp

@[simp] theorem State.tooDeep_errorCount (s : State) (scope : Scope) :
    (s.tooDeep scope).errorCount = s.errorCount + 1 := by
  unfold tooDeep; split <;> simp

theorem State.Consistent.tooDeep {s : State} (h : s.Consistent) (scope : Scope) :
    (s.tooDeep scope).Consistent := by
  unfold State.tooDeep
  split
  · rename_i hd
    exact (h.count (h.depthReported hd)).unwind (by simp)
  · have hr := fun d => (h.reported scope s.position d).unwind (by simp)
    rw [State.reported_depthReported]
    exact ⟨(hr _).1, (hr _).2, (hr _).3, fun _ => by simp⟩

/-- A construct that nests too deep is an error, behind which the fallback is run. -/
theorem Reads.nested [HasParts α] {p fallback : Parse α} (hp : Reads p)
    (hf : ∀ m, Builds m [] (erred m) fallback) : Reads (nested p fallback) := by
  intro P m r scope hr hb s a t hs _ he
  rw [nested_eq] at he
  split at he
  · have hm := hs.errors
    refine hf m hr hb (hs.step ?_ ?_ ?_ (hs.consistent.tooDeep scope)) ?_ he
    · simp
    · simpa using hs.inside
    · simp
    · simp [erred]; omega
  · have hd := @hp any m r { scope with depth := scope.depth + 1 } hr hb
    exact hd hs trivial he

theorem reads_resynchronize (sync : List Kind) : Reads (resynchronize sync) := by
  intro P m r scope hr hb s a t hs _ he
  obtain ⟨_, s₁, h₁, he⟩ := bind_eq_some.mp he
  cases (show some ((), { s with unwinding := false, depthReported := false }) = some (_, s₁) from h₁)
  have h : Reads (skipTo sync.contains >>= fun _ => pure ()) :=
    .of fun _ => .skip (reads_skipTo _) fun _ => .done (by simp)
  have hc := hs.consistent
  have ht : Since scope.buffer m [] { s with unwinding := false, depthReported := false } :=
    hs.step (by simp) hs.inside (by simp) ⟨hc.1, nofun, hc.3, nofun⟩
  exact h any m hr hb ht trivial he

/-- An attempt gives what was read without an error, or nothing has happened. -/
theorem Reads.attempt [HasParts α] {p : Parse (Option α)} (hp : Reads p) : Reads (attempt p) := by
  intro P m r scope hr hb s a t hs _ he
  unfold Parse.attempt at he
  split at he
  · cases he
  · rename_i a' s' h
    split at he
    · cases he
      exact hp any m hr hb hs trivial h
    · cases he
      exact hs
  · cases he
    exact hs

theorem reads_foresee (p : Parse Bool) : Reads (foresee p) := by
  intro P m r scope _ _ s a t hs _ he
  unfold Parse.foresee at he
  split at he <;> cases he
  exact hs

theorem Reads.withRecovery [HasParts α] {sync : List Kind} {p : Parse α} (hp : Reads p) :
    Reads (withRecovery sync p) :=
  .within (fun _ => rfl) hp

/-! ## Lists and optional parts -/

section Lists

variable [HasParts α]

theorem reads_moreBehind (separator : Kind) {item : Parse α} (h : Reads item) :
    Reads (moreBehind separator item) := by
  refine .many <| .of fun m => .look looks_isUnwinding fun _ => .ite (fun _ => .done (by simp)) fun _ => ?_
  refine .skip (reads_accept _) fun _ => .ite (fun _ => ?_) fun _ => .done (by simp)
  exact .bind h fun _ => .done (by simp)

theorem reads_separatedBy (separator : Kind) {item : Parse α} (h : Reads item) :
    Reads (separatedBy separator item) :=
  .of fun _ => .bind h fun _ => .bind (reads_moreBehind separator h) fun _ => .done (by simp)

theorem reads_commaList {item : Parse α} (h : Reads item) : Reads (commaList item) :=
  reads_separatedBy .commaToken h

theorem reads_listUntil (close : Kind) {item : Parse α} (h : Reads item) :
    Reads (listUntil close item) :=
  .of fun _ => .look (looks_atListEnd close) fun _ => .ite (fun _ => .done (by simp)) fun _ =>
    reads_commaList h _ _

theorem reads_listAfter (opening : Leaf) (close : Kind) {item : Parse α} (h : Reads item) :
    Reads (listAfter opening close item) :=
  .ite (.nothing rfl) (reads_listUntil close h)

end Lists

variable {c : Category}

@[simp] theorem pieces_present (t : Tree c) : pieces (Tree.present t) = pieces t := rfl

@[simp] theorem pieces_absent : pieces (Tree.absent : Tree (.option c)) = [] := rfl

@[simp] theorem pieces_nil_tree : pieces (Tree.nil : Tree (.list c)) = [] := rfl

theorem reads_behind (k : Kind) {p : Parse (Tree c)} (hp : Reads p) : Reads (Grammar.behind k p) :=
  .of fun _ => .skip (reads_accept k) fun _ =>
    .ite (fun _ => .bind hp fun _ => .done (by simp)) fun _ => .done (by simp)

theorem reads_whenever {condition : Parse Bool} {p : Parse (Tree c)} (hc : Reads condition)
    (hp : Reads p) : Reads (Grammar.whenever condition p) :=
  .of fun _ => .skip hc fun _ =>
    .ite (fun _ => .bind hp fun _ => .done (by simp)) fun _ => .done (by simp)

end BallerinaSyntax
