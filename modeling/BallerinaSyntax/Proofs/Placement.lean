import BallerinaSyntax.Proofs.Parts
import Mathlib.Data.List.Perm.Subperm

/-!
Where the parts of a tree stand. Every part takes up a range of tokens: a node the range it
covers, a token that was read one place, and a token that was made up none. A node fits what is in
it if these ranges lie inside its own and beside each other, and if no error inside it goes
unnoticed.
-/

namespace BallerinaSyntax

namespace Forest

variable {α : Type}

/-- The trees that stand side by side, each as its label and what is below it. -/
def trees : Forest α → List (α × Forest α)
  | nil => []
  | cons a children rest => (a, children) :: rest.trees

/-- All trees of a forest, at any depth. -/
def subtrees : Forest α → List (α × Forest α)
  | nil => []
  | cons a children rest => (a, children) :: (children.subtrees ++ rest.subtrees)

@[simp] theorem trees_nil : (nil : Forest α).trees = [] := rfl

@[simp] theorem trees_cons (a : α) (children rest : Forest α) :
    (cons a children rest).trees = (a, children) :: rest.trees := rfl

@[simp] theorem trees_tree (a : α) (children : Forest α) : (tree a children).trees = [(a, children)] :=
  rfl

@[simp] theorem trees_append (f g : Forest α) : (f ++ g).trees = f.trees ++ g.trees := by
  induction f with
  | nil => rfl
  | cons a children rest _ ih => simp [ih]

theorem mem_subtrees_iff {f : Forest α} {x : α × Forest α} :
    x ∈ f.subtrees ↔ ∃ y ∈ f.trees, x = y ∨ x ∈ y.2.subtrees := by
  induction f with
  | nil => simp [subtrees]
  | cons a children rest _ ih => simp [subtrees, ih, or_assoc]

/-- What is below a tree of a forest is in the forest. -/
theorem subtrees_trans {f : Forest α} {x y : α × Forest α} (hx : x ∈ f.subtrees)
    (hy : y ∈ x.2.subtrees) : y ∈ f.subtrees := by
  induction f with
  | nil => cases hx
  | cons a children rest ihc ihr =>
    rcases List.mem_cons.mp hx with rfl | hx
    · exact List.mem_cons_of_mem _ (List.mem_append_left _ hy)
    · rcases List.mem_append.mp hx with hx | hx
      · exact List.mem_cons_of_mem _ (List.mem_append_left _ (ihc hx))
      · exact List.mem_cons_of_mem _ (List.mem_append_right _ (ihr hx))

end Forest

namespace TokenRange

/-- Neither range begins before the other one ends. -/
def Apart (r s : TokenRange) : Prop := r.stop ≤ s.start ∨ s.stop ≤ r.start

theorem Apart.symm {r s : TokenRange} (h : r.Apart s) : s.Apart r := h.elim .inr .inl

end TokenRange

/-- The place of a token, of no width if it was made up. -/
def Leaf.extent (l : Leaf) : TokenRange := ⟨l.index, if l.missing then l.index else l.index + 1⟩

theorem Leaf.extent_ordered (l : Leaf) : l.extent.start ≤ l.extent.stop := by
  unfold extent; split <;> simp

/-- A token as it stands in the buffer, or one made up in front of it. -/
def Leaf.Faithful (b : Buffer) (l : Leaf) : Prop :=
  l.index < b.size ∧
    if l.missing then l.range = .empty (b.get l.index).range.start
    else l.kind = (b.get l.index).kind ∧ l.range = (b.get l.index).range

/-- A name as it stands in the buffer, where its token may be a reserved word. -/
def Identifier.Faithful (b : Buffer) (i : Identifier) : Prop :=
  i.token.index < b.size ∧ i.token.kind = .identifier ∧
    if i.token.missing then i.token.range = .empty (b.get i.token.index).range.start ∧ i.symbol = ""
    else Operator.isName true (b.get i.token.index).kind = true ∧
      i.token.range = (b.get i.token.index).range ∧ i.symbol = (b.get i.token.index).text

namespace Part

/-- The tokens that a part takes up in the node that holds it. -/
def extent : Part → TokenRange
  | .node info => info.tokens
  | .token leaf => leaf.extent
  | .name i => i.token.extent

/-- Whether a part tells of an error. -/
def erroneous : Part → Bool
  | .node info => info.flags.hasError
  | .token leaf => leaf.missing
  | .name i => i.token.missing

end Part

/-- The bytes of some tokens of a buffer; an empty range stands where its first token begins. -/
def Buffer.bytesOf (b : Buffer) (r : TokenRange) : ByteRange :=
  if r.start < r.stop then ⟨(b.get r.start).range.start, (b.get (r.stop - 1)).range.stop⟩
  else .empty (b.get r.start).range.start

/-- A node over what is in it. -/
structure NodeInfo.Fits (b : Buffer) (info : NodeInfo) (inside : List (Part × Parts)) : Prop where
  ordered : info.tokens.start ≤ info.tokens.stop
  bounded : info.tokens.stop ≤ b.size
  placed : info.tokens.start < b.size
  bytes : info.range = b.bytesOf info.tokens
  within : ∀ x ∈ inside, info.tokens.start ≤ x.1.extent.start ∧ x.1.extent.stop ≤ info.tokens.stop
  apart : inside.Pairwise fun x y => x.1.extent.Apart y.1.extent
  noticed : ∀ x ∈ inside, x.1.erroneous = true → info.flags.hasError = true
  missing : info.flags.missing = true → info.flags.hasError = true
  unterminated : info.flags.unterminated = true → info.flags.hasError = true

/-- A part over what is in it; there is nothing in a token or a name. -/
def Part.Fits (b : Buffer) (inside : List (Part × Parts)) : Part → Prop
  | .node info => info.Fits b inside
  | .token leaf => leaf.Faithful b ∧ inside = []
  | .name i => i.Faithful b ∧ inside = []

theorem Part.Fits.ordered {b : Buffer} {inside : List (Part × Parts)} {p : Part}
    (h : p.Fits b inside) : p.extent.start ≤ p.extent.stop := by
  cases p with
  | node info => exact NodeInfo.Fits.ordered h
  | token leaf => exact leaf.extent_ordered
  | name i => exact i.token.extent_ordered

namespace Parts

/-- Every part fits what is in it. -/
def Sound (b : Buffer) (f : Parts) : Prop := ∀ x ∈ f.subtrees, x.1.Fits b x.2.trees

/-- It is enough to look at one tree after the other. -/
theorem sound_iff {b : Buffer} {f : Parts} :
    f.Sound b ↔ ∀ x ∈ f.trees, x.1.Fits b x.2.trees ∧ Sound b x.2 := by
  refine ⟨fun h x hx => ⟨h x ?_, fun y hy => h y ?_⟩, fun h y hy => ?_⟩
  · exact Forest.mem_subtrees_iff.mpr ⟨x, hx, .inl rfl⟩
  · exact Forest.mem_subtrees_iff.mpr ⟨x, hx, .inr hy⟩
  · obtain ⟨x, hx, hxy⟩ := Forest.mem_subtrees_iff.mp hy
    rcases hxy with rfl | hxy
    · exact (h _ hx).1
    · exact (h _ hx).2 y hxy

end Parts

/-- The diagnostics of a state are there because of an error, and so is all else that tells of
one. -/
structure State.Consistent (s : State) : Prop where
  recorded : 0 < s.errorCount ↔ s.diagnostics.toList ≠ []
  unwinding : s.unwinding = true → 0 < s.errorCount
  lastErrorAt : s.lastErrorAt ≠ none → 0 < s.errorCount
  depthReported : s.depthReported = true → 0 < s.errorCount

/-- What was read since a mark, up to a state: parts that stand one beside the other behind the
mark and tell of no error that was not counted. -/
structure Since (b : Buffer) (m : Mark) (read : List (Part × Parts)) (s : State) : Prop where
  start : m.index ≤ s.position
  inside : s.position < b.size
  errors : m.errors ≤ s.errorCount
  consistent : s.Consistent
  ordered : ∀ x ∈ read, x.1.extent.start ≤ x.1.extent.stop
  within : ∀ x ∈ read, m.index ≤ x.1.extent.start ∧ x.1.extent.stop ≤ s.position
  apart : read.Pairwise fun x y => x.1.extent.Apart y.1.extent
  noticed : ∀ x ∈ read, x.1.erroneous = true → m.errors < s.errorCount
  fits : ∀ x ∈ read, x.1.Fits b x.2.trees ∧ x.2.Sound b

namespace Since

variable {b : Buffer} {m n : Mark} {read more : List (Part × Parts)} {s t : State}

theorem refl (h : s.position < b.size) (hs : s.Consistent) :
    Since b ⟨s.position, s.errorCount⟩ [] s := by
  constructor <;> simp [h, hs]

/-- What is read behind a later mark comes after what was read before. -/
theorem append (h : Since b m read s) (hi : n.index = s.position) (hm : m.errors ≤ n.errors)
    (hs : s.errorCount ≤ t.errorCount) (h' : Since b n more t) : Since b m (read ++ more) t where
  start := by have := h.start; have := h'.start; omega
  inside := h'.inside
  errors := by have := h'.errors; omega
  consistent := h'.consistent
  ordered x hx := (List.mem_append.mp hx).elim (h.ordered x) (h'.ordered x)
  within x hx := by
    have := h'.start
    have := h.start
    rcases List.mem_append.mp hx with hx | hx
    · have := h.within x hx; omega
    · have := h'.within x hx; omega
  apart := List.pairwise_append.mpr ⟨h.apart, h'.apart, fun x hx y hy => by
    have := h.within x hx
    have := h'.within y hy
    exact .inl (by omega)⟩
  noticed x hx e := by
    rcases List.mem_append.mp hx with hx | hx
    · have := h.noticed x hx e; omega
    · have := h'.noticed x hx e; omega
  fits x hx := (List.mem_append.mp hx).elim (h.fits x) (h'.fits x)

/-- What is read behind a mark that is set on the way comes after what was read before. -/
theorem trans (h : Since b m read s) (h' : Since b ⟨s.position, s.errorCount⟩ more t) :
    Since b m (read ++ more) t :=
  h.append rfl h.errors h'.errors h'

/-- Parts that were read may be dropped, and the others put in another order. -/
theorem drop (h : Since b m read s) (hs : more.Subperm read) : Since b m more s where
  start := h.start
  inside := h.inside
  errors := h.errors
  consistent := h.consistent
  ordered x hx := h.ordered x (hs.subset hx)
  within x hx := h.within x (hs.subset hx)
  apart := by
    obtain ⟨kept, hp, hk⟩ := hs
    exact (hp.pairwise_iff fun h => h.symm).mp (h.apart.sublist hk)
  noticed x hx := h.noticed x (hs.subset hx)
  fits x hx := h.fits x (hs.subset hx)

/-- What is in a node that was read was read. -/
theorem opened {info : NodeInfo} {inside : Parts} (h : Since b m [(.node info, inside)] s) :
    Since b m inside.trees s := by
  obtain ⟨hf, hi⟩ := h.fits _ (List.mem_singleton.mpr rfl)
  have hw := h.within _ (List.mem_singleton.mpr rfl)
  have hs := Parts.sound_iff.mp hi
  refine ⟨h.start, h.inside, h.errors, h.consistent, fun x hx => (hs x hx).1.ordered, fun x hx => ?_,
    hf.apart, fun x hx e => ?_, hs⟩
  · have := hf.within x hx
    have : m.index ≤ info.tokens.start ∧ info.tokens.stop ≤ s.position := hw
    omega
  · exact h.noticed _ (List.mem_singleton.mpr rfl) (hf.noticed x hx e)

end Since

end BallerinaSyntax
