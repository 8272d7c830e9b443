/-! Ordered forests of labelled nodes. -/

namespace BallerinaSyntax

/-- A first tree, given by its label and its children, and the trees beside it. -/
inductive Forest (α : Type) where
  | nil
  | cons (label : α) (children rest : Forest α)
deriving Repr, Inhabited

namespace Forest

variable {α : Type}

def append : Forest α → Forest α → Forest α
  | nil, g => g
  | cons a children rest, g => cons a children (rest.append g)

instance : Append (Forest α) := ⟨append⟩

def tree (label : α) (children : Forest α) : Forest α := cons label children nil

def leaf (label : α) : Forest α := tree label nil

/-- One tree without children for each label. -/
def leaves (labels : List α) : Forest α := labels.foldr (cons · nil ·) nil

/-- The forests of all members, side by side. -/
def concat {β : Type} (f : β → Forest α) (xs : List β) : Forest α :=
  xs.foldr (f · ++ ·) nil

@[simp] theorem nil_append (g : Forest α) : nil ++ g = g := rfl

@[simp] theorem cons_append (a : α) (children rest g : Forest α) :
    cons a children rest ++ g = cons a children (rest ++ g) := rfl

@[simp] theorem append_nil (f : Forest α) : f ++ nil = f := by
  induction f with
  | nil => rfl
  | cons a children rest _ ih => simp [ih]

theorem append_assoc (f g h : Forest α) : f ++ g ++ h = f ++ (g ++ h) := by
  induction f with
  | nil => rfl
  | cons a children rest _ ih => simp [ih]

end Forest

end BallerinaSyntax
