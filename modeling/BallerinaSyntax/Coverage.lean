import BallerinaSyntax.Kind.Name
import BallerinaSyntax.Tree.Walk

/-!
Which tokens the nodes of a tree cover. Children have to lie inside their parent and beside each
other; the tokens of a node that none of its children covers are its own. The leaves of a node
are all tokens below it, in the order in which the children stand in the text.
-/

namespace BallerinaSyntax

inductive CoverageError where
  /-- A child reaches outside its parent. -/
  | escapes (child parent : NodeInfo)
  /-- Two children of one parent share a token. -/
  | overlap (first second : NodeInfo)
deriving DecidableEq, Repr, Inhabited

def CoverageError.message : CoverageError → String
  | .escapes child parent =>
    s!"{child.kind} {child.tokens} is not inside its parent {parent.kind} {parent.tokens}"
  | .overlap first second =>
    s!"siblings {first.kind} {first.tokens} and {second.kind} {second.tokens} overlap"

namespace Coverage

/-- A node and the leaves below it. -/
structure Covered where
  info : NodeInfo
  leaves : List Nat
deriving DecidableEq, Repr, Inhabited

/-- Order of siblings in the text: by the start of their tokens, then by the end. -/
def Covered.precedes (a b : Covered) : Bool :=
  a.info.tokens.start < b.info.tokens.start ||
    (a.info.tokens.start == b.info.tokens.start && a.info.tokens.stop ≤ b.info.tokens.stop)

/-- The indices from `start` up to `stop`, none if they are reversed. -/
def gap (start stop : Nat) : List Nat := List.range' start (stop - start)

/-- The leaves of a node that covers the tokens up to `stop`, from `cursor` on: those of its
sorted children, and between them its own. -/
def splice (stop : Nat) : Nat → List Covered → List Nat
  | cursor, [] => gap cursor stop
  | cursor, c :: rest =>
    gap cursor c.info.tokens.start ++ c.leaves ++ splice stop (max cursor c.info.tokens.stop) rest

def escape? (parent : NodeInfo) (child : Covered) : Option CoverageError :=
  if parent.tokens.includes child.info.tokens then none else some (.escapes child.info parent)

def overlap? (before : Option NodeInfo) (child : Covered) : Option CoverageError :=
  match before with
  | some first =>
    if child.info.tokens.start < first.tokens.stop then some (.overlap first child.info) else none
  | none => none

/-- The first violation among the sorted children of a node; `before` is the child last seen. -/
def violation? (parent : NodeInfo) : Option NodeInfo → List Covered → Option CoverageError
  | _, [] => none
  | before, c :: rest =>
    (escape? parent c).or ((overlap? before c).or (violation? parent (some c.info) rest))

/-- The trees of a forest with their leaves, and the first violation, where a node comes after
all that lies below it. -/
def cover : Forest NodeInfo → List Covered × Option CoverageError
  | .nil => ([], none)
  | .cons info children rest =>
    let (below, inner) := cover children
    let sorted := below.mergeSort Covered.precedes
    let (beside, outer) := cover rest
    (⟨info, splice info.tokens.stop info.tokens.start sorted⟩ :: beside,
      inner.or ((violation? info none sorted).or outer))

/-- The leaves of a forest, or what is wrong with it. -/
def check (f : Forest NodeInfo) : Except CoverageError (List Nat) :=
  match cover f with
  | (_, some e) => .error e
  | (covered, none) => .ok (covered.flatMap Covered.leaves)

end Coverage

namespace CompilationUnit

/-- The leaves of a unit, or the first violation in it. -/
def coverage (u : CompilationUnit) : Except CoverageError (List Nat) := Coverage.check u.walk.nodes

/-- Whether the leaves are exactly the tokens of a buffer of `size` tokens, each once. -/
def roundTrips (u : CompilationUnit) (size : Nat) : Bool :=
  match u.coverage with
  | .ok leaves => leaves == List.range size
  | .error _ => false

end CompilationUnit

end BallerinaSyntax
