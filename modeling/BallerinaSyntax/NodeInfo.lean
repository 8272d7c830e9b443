import BallerinaSyntax.Kind.Class
import BallerinaSyntax.Range

/-!
What every node of a tree carries: its kind, the bytes and the tokens it covers, what happened
while it was read, and the modifiers in front of it.
-/

namespace BallerinaSyntax

/-- What happened while a node was read. -/
structure NodeFlags where
  /-- An error was reported inside the node. -/
  hasError : Bool := false
  /-- The node is a placeholder. -/
  missing : Bool := false
  /-- The closing delimiter was never found. -/
  unterminated : Bool := false
deriving DecidableEq, Repr, Inhabited

/-- Modifiers written in front of a definition or a member. -/
structure Modifiers where
  isPublic : Bool := false
  isPrivate : Bool := false
  isNative : Bool := false
deriving DecidableEq, Repr, Inhabited

structure NodeInfo where
  kind : Kind
  range : ByteRange
  tokens : TokenRange
  flags : NodeFlags := {}
  modifiers : Modifiers := {}
deriving DecidableEq, Repr, Inhabited

def NodeFlags.bits (f : NodeFlags) : Nat :=
  f.hasError.toNat + 2 * f.missing.toNat + 4 * f.unterminated.toNat

namespace Modifiers

def bits (m : Modifiers) : Nat :=
  m.isPublic.toNat + 2 * m.isPrivate.toNat + 4 * m.isNative.toNat

/-- The modifier that a keyword stands for, if it is one. -/
def ofKeyword : Kind → Modifiers
  | .publicKeyword => { isPublic := true }
  | .privateKeyword => { isPrivate := true }
  | .nativeKeyword => { isNative := true }
  | _ => {}

/-- The modifiers of both. -/
def union (m n : Modifiers) : Modifiers :=
  ⟨m.isPublic || n.isPublic, m.isPrivate || n.isPrivate, m.isNative || n.isNative⟩

def hasVisibility (m : Modifiers) : Bool := m.isPublic || m.isPrivate

end Modifiers

namespace NodeInfo

/-- A placeholder of no width at token `index`, whose text starts at `pos`. -/
def placeholder (kind : Kind) (index pos : Nat) : NodeInfo where
  kind := kind
  range := .empty pos
  tokens := .empty index
  flags := { hasError := true, missing := true }

def isMissing (n : NodeInfo) : Bool := n.flags.missing

def hasError (n : NodeInfo) : Bool := n.flags.hasError

end NodeInfo

end BallerinaSyntax
