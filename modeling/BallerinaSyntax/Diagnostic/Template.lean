/-!
Message templates. The arguments are put in one after another, the first for every `{0}`, then
the second for every `{1}` of the result, and so on; so an argument that itself holds a later
placeholder has it filled in too.
-/

namespace BallerinaSyntax.Template

/-- Replaces every occurrence of `pattern` in a text by `value`, from left to right; `skip`
counts the characters still covered by the last occurrence. An empty pattern occurs nowhere. -/
def replaceFrom (pattern value : List Char) : Nat → List Char → List Char
  | _, [] => []
  | skip + 1, _ :: rest => replaceFrom pattern value skip rest
  | 0, c :: rest =>
    if !pattern.isEmpty && pattern.isPrefixOf (c :: rest) then
      value ++ replaceFrom pattern value (pattern.length - 1) rest
    else c :: replaceFrom pattern value 0 rest

def replace (pattern value text : List Char) : List Char := replaceFrom pattern value 0 text

/-- The mark for argument `i` in a template: its number in braces. -/
def placeholder (i : Nat) : List Char := '\x7b' :: (Nat.toDigits 10 i ++ ['\x7d'])

def fillFrom (i : Nat) (text : List Char) : List (List Char) → List Char
  | [] => text
  | value :: rest => fillFrom (i + 1) (replace (placeholder i) value text) rest

/-- Fills the placeholders of a template. -/
def fill (template : String) (args : List String) : String :=
  String.ofList (fillFrom 0 template.toList (args.map String.toList))

end BallerinaSyntax.Template
