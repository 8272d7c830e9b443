/-!
A table of names without repetition. The handle of a name is its place in the table, so names
are numbered in the order in which they are first seen, and a handle once given stays valid.
-/

namespace BallerinaSyntax

structure Interner where
  names : List String
  nodup : names.Nodup
deriving Repr

namespace Interner

def empty : Interner := ⟨[], .nil⟩

instance : Inhabited Interner := ⟨empty⟩

def size (t : Interner) : Nat := t.names.length

def isEmpty (t : Interner) : Bool := t.names.isEmpty

/-- The handle of a name that the table already holds. -/
def get? (t : Interner) (name : String) : Option Nat := t.names.idxOf? name

/-- The table with a name in it. -/
def insert (t : Interner) (name : String) : Interner :=
  if h : name ∈ t.names then t
  else
    ⟨t.names ++ [name], List.nodup_append.mpr ⟨t.nodup, by simp, by
      intro a ha b hb hab
      simp only [List.mem_singleton] at hb
      exact h (hb ▸ hab ▸ ha)⟩⟩

/-- The handle of a name, entering the name if it is new. -/
def intern (t : Interner) (name : String) : Nat × Interner := (t.names.idxOf name, t.insert name)

/-- The name behind a handle. -/
def resolve? (t : Interner) (handle : Nat) : Option String := t.names[handle]?

end Interner

end BallerinaSyntax
