import BallerinaSyntax.Kind.Text
import BallerinaSyntax.Range

/-! Classified tokens, as a tokenizer hands them over. -/

namespace BallerinaSyntax

structure Token where
  kind : Kind
  text : String
  range : ByteRange
deriving DecidableEq, Repr, Inhabited

namespace Token

/-- A token at `pos` whose range is as long as its text. -/
def place (kind : Kind) (text : String) (pos : Nat) : Token :=
  ⟨kind, text, ⟨pos, pos + text.utf8ByteSize⟩⟩

/-- A token with the text that its kind determines. -/
def fixed (kind : Kind) (pos : Nat) : Token := .place kind (kind.fixedText?.getD "") pos

def endOfFile (pos : Nat) : Token := ⟨.endOfFileToken, "", .empty pos⟩

def isEndOfFile (t : Token) : Bool := t.kind == .endOfFileToken

end Token

end BallerinaSyntax
