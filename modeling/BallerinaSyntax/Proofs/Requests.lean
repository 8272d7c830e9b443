import BallerinaSyntax.Proofs.Cursor

/-!
A cursor in use. Requests are made one after another: to look ahead, to move on, to go back, to
tell which bytes were passed. A cursor, which asks its source only when it must, gives the answers
of a reader that has the whole buffer, and stands where that one stands. What both know is kept in
step (`Cursor.InStep`) by every request, so it holds throughout a run. Beside the answers a run
tells what the cursor asked of its source.
-/

namespace BallerinaSyntax

/-- What may be asked of a reader of tokens. -/
inductive Request where
  | peek (ahead : Nat)
  | bump
  | bumpEndOfFile
  | rewind (position : Nat)
  | rangeOf (start stop : Nat)
deriving DecidableEq, Repr

inductive Reply where
  | token (t : Token)
  | moved
  | range (r : Option ByteRange)
deriving DecidableEq, Repr

/-- Whether a reader that stands at `position`, and has stood at the positions `seen`, may be asked
this: it goes back only to where it was, and has passed the tokens whose bytes it tells. -/
def Request.Allowed (seen : List Nat) (position : Nat) : Request → Prop
  | .rewind p => p ∈ seen
  | .rangeOf _ stop => stop ≤ position
  | _ => True

instance (seen : List Nat) (position : Nat) : (q : Request) → Decidable (q.Allowed seen position)
  | .rewind p => inferInstanceAs (Decidable (p ∈ seen))
  | .rangeOf _ stop => inferInstanceAs (Decidable (stop ≤ position))
  | .peek _ | .bump | .bumpEndOfFile => inferInstanceAs (Decidable True)

/-! ## Readers of the whole buffer -/

/-- A reader that has all tokens before it begins. -/
structure Reader where
  buffer : Buffer
  position : Nat := 0

namespace Reader

/-- Moves past the current token if there is one and `passes` holds of it. -/
def move (passes : Token → Bool) (r : Reader) : Reader :=
  if r.buffer.tokens[r.position]?.any passes then { r with position := r.position + 1 } else r

def serve (r : Reader) : Request → Reply × Reader
  | .peek ahead => (.token (r.buffer.get (r.position + ahead)), r)
  | .bump => (.moved, r.move fun t => !t.isEndOfFile)
  | .bumpEndOfFile => (.moved, r.move Token.isEndOfFile)
  | .rewind position => (.moved, { r with position := position })
  | .rangeOf start stop => (.range (r.buffer.rangeOf? start stop), r)

/-- The reply to each request, with the position behind it. -/
def replies (r : Reader) : List Request → List (Reply × Nat)
  | [] => []
  | q :: rest => ((r.serve q).1, (r.serve q).2.position) :: (r.serve q).2.replies rest

/-- Whether the requests of a run are allowed where they are made. -/
def Allows (r : Reader) (seen : List Nat) : List Request → Prop
  | [] => True
  | q :: rest =>
    q.Allowed seen r.position ∧ (r.serve q).2.Allows ((r.serve q).2.position :: seen) rest

instance decidableAllows (r : Reader) (seen : List Nat) :
    (requests : List Request) → Decidable (r.Allows seen requests)
  | [] => .isTrue trivial
  | q :: rest =>
    have := decidableAllows (r.serve q).2 ((r.serve q).2.position :: seen) rest
    inferInstanceAs (Decidable (_ ∧ _))

end Reader

/-! ## What a source is asked -/

namespace TokenSource

/-- What a source says when it is asked for a token. -/
inductive Answer where
  | token (t : Token)
  | ending (e : SourceEnding)
deriving DecidableEq, Repr

/-- Behind an end-of-file token, and once a source has run dry or failed, it is not to be asked
again. -/
def Answer.isLast : Answer → Bool
  | .token t => t.isEndOfFile
  | .ending _ => true

/-- What a source says when it has been asked `times` times before. -/
def answer (s : TokenSource) (times : Nat) : Answer :=
  match s.tokens[times]? with
  | some t => .token t
  | none => .ending s.ending

end TokenSource

namespace Cursor

def serve (c : Cursor) : Request → Reply × Cursor
  | .peek ahead => (.token (c.peek ahead).1, (c.peek ahead).2)
  | .bump => (.moved, c.bump)
  | .bumpEndOfFile => (.moved, c.bumpEndOfFile)
  | .rewind position => (.moved, c.rewind position)
  | .rangeOf start stop => (.range (c.rangeOf? start stop), c)

/-- The cursor behind a run of requests. -/
def after (c : Cursor) (requests : List Request) : Cursor :=
  requests.foldl (fun c q => (c.serve q).2) c

/-- The reply to each request, with the position behind it. -/
def replies (c : Cursor) : List Request → List (Reply × Nat)
  | [] => []
  | q :: rest => ((c.serve q).1, (c.serve q).2.position) :: (c.serve q).2.replies rest

/-- What the source says to a cursor that asks until it has `n` more tokens or knows the end. -/
def answersTo : Nat → Cursor → List TokenSource.Answer
  | 0, _ => []
  | n + 1, c => if c.finished then [] else c.source.answer 0 :: answersTo n c.pull

/-- What the source says while the token at an index is taken. -/
def filling (c : Cursor) (index : Nat) : List TokenSource.Answer :=
  c.answersTo (index + 1 - c.taken.length)

/-- What the source says while a request is served. -/
def consulted (c : Cursor) : Request → List TokenSource.Answer
  | .peek ahead => c.filling (c.position + ahead)
  | .bump | .bumpEndOfFile => c.filling c.position
  | .rewind _ | .rangeOf _ _ => []

/-- What the source says during a run. -/
def consultations (c : Cursor) : List Request → List TokenSource.Answer
  | [] => []
  | q :: rest => c.consulted q ++ (c.serve q).2.consultations rest

variable {s : TokenSource} {c : Cursor}

/-- A cursor asks what its source says next. -/
theorem Stage.answer (h : Stage s c) (hc : c.finished = false) :
    c.source.answer 0 = s.answer c.taken.length := by
  cases h with
  | ended => cases hc
  | failed => cases hc
  | @reading taken rest position tokens inside =>
    simp only [TokenSource.answer, tokens, List.getElem?_append_right (Nat.le_refl _),
      Nat.sub_self]

/-- Each answer adds a token to those taken, and the answers are those of the source in order. -/
theorem Stage.answersTo (h : Stage s c) (n : Nat) :
    (c.pullTimes n).taken.length = c.taken.length + (c.answersTo n).length ∧
      c.answersTo n = (List.range' c.taken.length (c.answersTo n).length).map s.answer := by
  induction n generalizing c with
  | zero => exact ⟨rfl, rfl⟩
  | succ n ih =>
    unfold Cursor.pullTimes Cursor.answersTo
    split
    · exact ⟨rfl, rfl⟩
    · have hf : c.finished = false := by simpa using ‹¬ c.finished = true›
      obtain ⟨hl, ha⟩ := ih (h.pull hf)
      rw [pull_length] at hl ha
      constructor
      · rw [hl, List.length_cons]
        omega
      · rw [List.length_cons, List.range'_succ, List.map_cons, ← h.answer hf, ← ha]

theorem Stage.filling (h : Stage s c) (index : Nat) :
    (c.fill index).taken.length = c.taken.length + (c.filling index).length ∧
      c.filling index = (List.range' c.taken.length (c.filling index).length).map s.answer :=
  h.answersTo _

/-- Only the last answer that a cursor has had can be the last one of the source. -/
theorem Stage.goes_on (h : Stage s c) {i : Nat} (hi : i + 1 < c.taken.length) :
    (s.answer i).isLast = false := by
  have goesOn : ∀ {before rest : List Token}, s.tokens = before ++ rest →
      (∀ t ∈ before, t.isEndOfFile = false) → i < before.length →
        (s.answer i).isLast = false := by
    intro before rest tokens inside hi
    have ht : s.tokens[i]? = some before[i] := by
      rw [tokens, List.getElem?_append_left hi, List.getElem?_eq_getElem hi]
    simpa only [TokenSource.answer, ht, TokenSource.Answer.isLast] using
      inside _ (List.getElem_mem hi)
  cases h with
  | @reading taken rest position tokens inside => exact goesOn tokens inside (Nat.lt_of_succ_lt hi)
  | ended position tokens inside ends => exact goesOn tokens inside (by simpa using hi)
  | failed position inside =>
    exact goesOn (List.append_nil _).symm inside (by simpa using hi)

/-! ## In step with a reader -/

/-- Takes the current token, and moves past it if there is one and `passes` holds of it. -/
def move (passes : Token → Bool) (c : Cursor) : Cursor :=
  if (c.fill c.position).taken[c.position]?.any passes then
    { c.fill c.position with position := c.position + 1 }
  else c.fill c.position

theorem serve_bump (c : Cursor) : (c.serve .bump).2 = c.move fun t => !t.isEndOfFile := by
  unfold serve bump move
  dsimp only
  rw [fill_position]
  cases (c.fill c.position).taken[c.position]? with
  | none => rfl
  | some t => cases ht : t.isEndOfFile <;> simp [ht]

theorem serve_bumpEndOfFile (c : Cursor) :
    (c.serve .bumpEndOfFile).2 = c.move Token.isEndOfFile := by
  unfold serve bumpEndOfFile move
  dsimp only
  rw [fill_position]
  cases (c.fill c.position).taken[c.position]? with
  | none => rfl
  | some t => cases ht : t.isEndOfFile <;> simp [ht]

/-- A cursor over a source and a reader of its buffer, which have been at the same positions. -/
structure InStep (s : TokenSource) (c : Cursor) (r : Reader) (seen : List Nat) : Prop where
  stage : Stage s c
  buffer : r.buffer = Buffer.ofSource s
  position : c.position = r.position
  here : r.position ∈ seen
  inside : ∀ p ∈ seen, p ≤ c.taken.length

namespace InStep

variable {r : Reader} {seen : List Nat}

theorem start (s : TokenSource) : InStep s (Cursor.start s) ⟨Buffer.ofSource s, 0⟩ [0] where
  stage := .start
  buffer := rfl
  position := rfl
  here := List.mem_singleton_self 0
  inside p hp := by simp [List.mem_singleton.mp hp]

/-- Taking more tokens changes nothing that a reader of the buffer would notice. -/
theorem filled (h : InStep s c r seen) (index : Nat) : InStep s (c.fill index) r seen where
  stage := h.stage.fill index
  buffer := h.buffer
  position := (fill_position index).trans h.position
  here := h.here
  inside p hp := Nat.le_trans (h.inside p hp) (fill_keeps index)

/-- Both go to a position among the tokens that the cursor has taken, or right behind them. -/
theorem moved (h : InStep s c r seen) {position : Nat} (hp : position ≤ c.taken.length) :
    InStep s { c with position := position } { r with position := position }
      (position :: seen) where
  stage := h.stage.moved position
  buffer := h.buffer
  position := rfl
  here := List.mem_cons_self
  inside := List.forall_mem_cons.mpr ⟨hp, h.inside⟩

theorem again (h : InStep s c r seen) : InStep s c r (r.position :: seen) where
  stage := h.stage
  buffer := h.buffer
  position := h.position
  here := List.mem_cons_self
  inside := List.forall_mem_cons.mpr ⟨h.inside _ h.here, h.inside⟩

/-- Of the tokens that a cursor has taken it knows what the buffer holds. -/
theorem taken_getElem? (h : InStep s c r seen) {i : Nat} (hi : i < c.taken.length) :
    c.taken[i]? = r.buffer.tokens[i]? := by
  have hf : c.fill i = c := by
    unfold fill
    rw [show i + 1 - c.taken.length = 0 by omega]
    rfl
  have := h.stage.filled i
  rwa [hf, ← h.buffer] at this

/-- Both pass the current token, or neither does. -/
theorem move (h : InStep s c r seen) (passes : Token → Bool) :
    InStep s (c.move passes) (r.move passes) ((r.move passes).position :: seen) := by
  have hf := h.filled c.position
  have ht : (c.fill c.position).taken[c.position]? = r.buffer.tokens[r.position]? := by
    rw [h.stage.filled, h.buffer, h.position]
  unfold Cursor.move Reader.move
  rw [ht]
  split
  · rename_i hr
    obtain ⟨t, hr, -⟩ := (Option.any_eq_true ..).mp hr
    have hl : c.position < (c.fill c.position).taken.length :=
      (List.getElem?_eq_some_iff.mp (ht.trans hr)).1
    rw [← h.position]
    exact hf.moved hl
  · exact hf.again

theorem rangeOf? (h : InStep s c r seen) {start stop : Nat} (hs : stop ≤ r.position) :
    c.rangeOf? start stop = r.buffer.rangeOf? start stop := by
  have hp := h.inside _ h.here
  unfold Cursor.rangeOf?
  split
  · rw [h.taken_getElem? (by omega), h.taken_getElem? (by omega)]
    exact (if_pos ‹_›).symm
  · exact (if_neg ‹_›).symm

/-- Every allowed request keeps them in step and gets the same reply from both. -/
theorem serve (h : InStep s c r seen) {q : Request} (hq : q.Allowed seen r.position) :
    (c.serve q).1 = (r.serve q).1 ∧
      InStep s (c.serve q).2 (r.serve q).2 ((r.serve q).2.position :: seen) := by
  cases q with
  | peek ahead =>
    refine ⟨?_, (h.filled _).again⟩
    simp only [Cursor.serve, Reader.serve, h.stage.peek, h.buffer, h.position]
  | bump =>
    refine ⟨rfl, ?_⟩
    rw [serve_bump]
    exact h.move _
  | bumpEndOfFile =>
    refine ⟨rfl, ?_⟩
    rw [serve_bumpEndOfFile]
    exact h.move _
  | rewind position => exact ⟨rfl, h.moved (h.inside _ hq)⟩
  | rangeOf start stop =>
    refine ⟨?_, h.again⟩
    simp only [Cursor.serve, Reader.serve, h.rangeOf? hq]

end InStep

/-! ## Runs of requests -/

/-- A cursor stays in step with a reader for as long as the requests are allowed. -/
theorem InStep.run {requests : List Request} {r : Reader} {seen : List Nat}
    (h : InStep s c r seen) (hr : r.Allows seen requests) :
    c.replies requests = r.replies requests := by
  induction requests generalizing c r seen with
  | nil => rfl
  | cons q rest ih =>
    obtain ⟨hq, hr⟩ := hr
    obtain ⟨hs, hn⟩ := h.serve hq
    simp only [Cursor.replies, Reader.replies, hs, hn.position, ih hn hr]

/-- Moving on takes the current token, whether or not it is passed. -/
theorem move_taken (c : Cursor) (passes : Token → Bool) :
    (c.move passes).taken = (c.fill c.position).taken := by
  unfold move
  split <;> rfl

theorem Stage.move (h : Stage s c) (passes : Token → Bool) : Stage s (c.move passes) := by
  unfold Cursor.move
  split
  · exact (h.fill _).moved _
  · exact h.fill _

theorem Stage.serve (h : Stage s c) (q : Request) : Stage s (c.serve q).2 := by
  cases q with
  | peek ahead => exact h.fill _
  | bump => exact serve_bump c ▸ h.move _
  | bumpEndOfFile => exact serve_bumpEndOfFile c ▸ h.move _
  | rewind position => exact h.moved position
  | rangeOf => exact h

theorem Stage.after (h : Stage s c) (requests : List Request) : Stage s (c.after requests) := by
  induction requests generalizing c with
  | nil => exact h
  | cons q rest ih => exact ih (h.serve q)

/-- A request adds to the tokens taken what it asks of the source. -/
theorem Stage.consulted (h : Stage s c) (q : Request) :
    (c.serve q).2.taken.length = c.taken.length + (c.consulted q).length ∧
      c.consulted q = (List.range' c.taken.length (c.consulted q).length).map s.answer := by
  cases q with
  | peek ahead => exact h.filling _
  | bump =>
    rw [serve_bump, move_taken]
    exact h.filling c.position
  | bumpEndOfFile =>
    rw [serve_bumpEndOfFile, move_taken]
    exact h.filling c.position
  | rewind | rangeOf => exact ⟨rfl, rfl⟩

/-- So does a run, and the source is never asked out of order. -/
theorem Stage.consultations (h : Stage s c) (requests : List Request) :
    (c.after requests).taken.length = c.taken.length + (c.consultations requests).length ∧
      c.consultations requests =
        (List.range' c.taken.length (c.consultations requests).length).map s.answer := by
  induction requests generalizing c with
  | nil => exact ⟨rfl, rfl⟩
  | cons q rest ih =>
    obtain ⟨hl, ha⟩ := h.consulted q
    obtain ⟨hls, has⟩ := ih (h.serve q)
    rw [hl] at hls has
    constructor
    · change ((c.serve q).2.after rest).taken.length = _
      rw [hls, Cursor.consultations, List.length_append]
      omega
    · rw [Cursor.consultations, List.length_append, ← List.range'_append_1, List.map_append, ← ha,
        ← has]

/-- There is always a token to show. -/
theorem Stage.fill_nonempty (h : Stage s c) (index : Nat) : 0 < (c.fill index).taken.length := by
  rcases fill_reaches (c := c) index with hf | hf
  · rw [((h.fill index).finished hf).1, Array.length_toList]
    exact (Buffer.ofSource s).nonempty
  · omega

end Cursor

/-! ## Reading late and reading early -/

/-- What a buffer holds of a source, all of which was read. -/
structure Buffer.Holds (b : Buffer) (s : TokenSource) : Prop where
  /-- The tokens up to the first end-of-file token. -/
  ended : ∀ before last rest, s.tokens = before ++ last :: rest →
    (∀ t ∈ before, t.isEndOfFile = false) → last.isEndOfFile = true →
      b.tokens.toList = before ++ [last]
  /-- All tokens of a source that runs dry, and an end-of-file token where the last one ends. -/
  dry : (∀ t ∈ s.tokens, t.isEndOfFile = false) → s.ending = .dry →
    b.tokens.toList = s.tokens ++ [.endOfFile (lastStop s.tokens)]
  /-- All tokens of a source that fails, and an end-of-file token where it failed, but never before
  the end of the last one. -/
  failed : ∀ f, (∀ t ∈ s.tokens, t.isEndOfFile = false) → s.ending = .failed f →
    b.tokens.toList = s.tokens ++ [.endOfFile (max f.pos (lastStop s.tokens))]

theorem Buffer.holds_ofSource (s : TokenSource) : (ofSource s).Holds s where
  ended _ _ _ tokens inside ends := (ofSource_ended tokens inside ends).1
  dry inside hd := by
    rw [(ofSource_endless inside).1, hd]
    rfl
  failed f inside hf := by
    rw [(ofSource_endless inside).1, hf]
    rfl

namespace Cursor

/-- How a cursor over a source serves a run of requests. -/
structure Serves (s : TokenSource) (requests : List Request) : Prop where
  /-- Every reply, and every position, is that of a reader of the whole buffer. -/
  replies : (start s).replies requests = (Reader.mk (Buffer.ofSource s) 0).replies requests
  /-- Behind the run there is a token to show however far a request looks ahead. -/
  inBounds : ∀ ahead,
    let c := (start s).after requests
    let taken := (c.fill (c.position + ahead)).taken
    min (c.position + ahead) (taken.length - 1) < taken.length
  /-- An end-of-file token is not passed by moving on. -/
  stays :
    let c := (start s).after requests
    ((Buffer.ofSource s).get c.position).isEndOfFile = true → c.bump.position = c.position
  /-- The source is asked once for every token taken, the last one included. -/
  counted :
    ((start s).consultations requests).length = ((start s).after requests).taken.length
  /-- The source gives its answers in order, each once. -/
  asked :
    let answers := (start s).consultations requests
    answers = (List.range answers.length).map s.answer
  /-- Behind its first end-of-file token, and once it has run dry or failed, it is not asked. -/
  spared : ∀ i, i + 1 < ((start s).consultations requests).length → (s.answer i).isLast = false

/-- A cursor that reads late is a reader of the whole buffer to everyone but its source. -/
theorem serves_of_allows {s : TokenSource} {requests : List Request}
    (h : (Reader.mk (Buffer.ofSource s) 0).Allows [0] requests) :
    Serves s requests ∧ (Buffer.ofSource s).Holds s := by
  have hs := Stage.start.after (s := s) requests
  obtain ⟨hl, ha⟩ := Stage.start.consultations (s := s) requests
  refine ⟨⟨(InStep.start s).run h, fun ahead => ?_, fun he => ?_, ?_, ?_, fun i hi => ?_⟩,
    Buffer.holds_ofSource s⟩
  · have := hs.fill_nonempty (((start s).after requests).position + ahead)
    dsimp only
    omega
  · rw [hs.bump, if_pos he]
  · rw [hl]
    exact (Nat.zero_add _).symm
  · dsimp only
    rw [List.range_eq_range']
    exact ha
  · refine hs.goes_on ?_
    rw [hl]
    exact Nat.lt_add_left _ hi

/-- A source that fails behind two names. -/
def brokenOff : TokenSource where
  tokens := [.place .identifier "a" 0, .place .identifier "b" 2]
  ending := .failed ⟨"no character", 7⟩

/-- A run that sees the failure from afar, goes behind the end, and comes back. -/
def thereAndBack : List Request :=
  [.peek 5, .bump, .rewind 0, .peek 0, .bump, .bump, .bump, .bumpEndOfFile, .peek 1, .rangeOf 1 3,
    .bump, .rewind 2, .rangeOf 0 2, .bumpEndOfFile]

theorem brokenOff_serves :
    (Reader.mk (Buffer.ofSource brokenOff) 0).Allows [0] thereAndBack ∧
      Serves brokenOff thereAndBack ∧ (Buffer.ofSource brokenOff).Holds brokenOff := by
  have h : (Reader.mk (Buffer.ofSource brokenOff) 0).Allows [0] thereAndBack := by decide
  exact ⟨h, serves_of_allows h⟩

end Cursor

end BallerinaSyntax
