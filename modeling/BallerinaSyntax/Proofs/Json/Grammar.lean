import BallerinaSyntax.Options.JsonText

/-!
JSON texts. A tree says how a text is put together, down to its white space and the way in which
each character of a string is written; its parts cannot be put together wrongly, so every tree has
a text. The reader is never mentioned here, only its character classes.
-/

namespace BallerinaSyntax.JsonText

/-! ## White space and numbers -/

/-- White space, maybe none. -/
structure Blanks where
  text : List Char := []
  blank : text.all isBlank = true := by decide

structure Digits where
  text : List Char
  digits : text.all Char.isDigit = true := by decide
  nonempty : text ≠ [] := by decide

/-- The digits of a whole number, without needless zeros in front. -/
structure Whole extends Digits where
  lead : text = ['0'] ∨ text.head? ≠ some '0' := by decide

def Whole.value (w : Whole) : Nat := Nat.ofDigitChars 10 w.text 0

inductive Sign where
  | absent | plus | minus

def Sign.text : Sign → List Char
  | .absent => []
  | .plus => ['+']
  | .minus => ['-']

structure Exponent where
  mark : Char
  isMark : isExponentMark mark = true := by decide
  sign : Sign := .absent
  digits : Digits

def Exponent.text (e : Exponent) : List Char := e.mark :: (e.sign.text ++ e.digits.text)

structure Numeral where
  negative : Bool := false
  whole : Whole
  fraction : Option Digits := none
  exponent : Option Exponent := none

namespace Numeral

/-- What stands behind the digits of the whole part. -/
def tail (n : Numeral) : List Char :=
  (n.fraction.elim [] fun digits => '.' :: digits.text) ++ n.exponent.elim [] Exponent.text

def text (n : Numeral) : List Char :=
  (if n.negative then ['-'] else []) ++ (n.whole.text ++ n.tail)

/-- The number that is written, if it is a whole number and written as one. -/
def whole? (n : Numeral) : Option Nat :=
  if n.negative || n.fraction.isSome || n.exponent.isSome then none else some n.whole.value

end Numeral

/-! ## Strings -/

/-- Four hexadecimal digits. -/
structure HexDigits where
  first : Char
  second : Char
  third : Char
  fourth : Char
  isHex : [first, second, third, fourth].all (fun c => (hexDigit? c).isSome) = true := by decide

namespace HexDigits

def text (h : HexDigits) : List Char := [h.first, h.second, h.third, h.fourth]

def value (h : HexDigits) : Nat :=
  h.text.foldl (fun value c => value * 16 + (hexDigit? c).getD 0) 0

/-- Whether these are the digits of the first half of a pair. -/
def isHigh (h : HexDigits) : Bool := 0xD800 ≤ h.value && h.value ≤ 0xDBFF

/-- Whether these are the digits of the second half of a pair. -/
def isLow (h : HexDigits) : Bool := 0xDC00 ≤ h.value && h.value ≤ 0xDFFF

/-- The character that two halves stand for together. -/
def pair (high low : HexDigits) : Char :=
  Char.ofNat ((high.value - 0xD800) * 1024 + (low.value - 0xDC00) + 0x10000)

end HexDigits

/-- Whether a character may stand for itself in a string. -/
def isPlain (c : Char) : Bool := ' ' ≤ c && c != '"' && c != '\\'

/-- What a string is written in. -/
inductive StringPart where
  | plain (c : Char) (isPlain : isPlain c = true := by decide)
  | escape (c : Char) (isEscape : (simpleEscape? c).isSome = true := by decide)
  | unit (digits : HexDigits)

def StringPart.text : StringPart → List Char
  | .plain c _ => [c]
  | .escape c _ => ['\\', c]
  | .unit h => '\\' :: 'u' :: h.text

/-- The text of a string behind its first quote. -/
def quoted (parts : List StringPart) : List Char := parts.flatMap StringPart.text ++ ['"']

/-- The characters that a string stands for; half a pair by itself stands for none. -/
def decode? : List StringPart → Option (List Char)
  | [] => some []
  | .plain c _ :: rest => (decode? rest).map (c :: ·)
  | .escape c _ :: rest => (simpleEscape? c).bind fun c => (decode? rest).map (c :: ·)
  | .unit h :: rest =>
    if h.isHigh then
      match rest with
      | .unit low :: rest =>
        if low.isLow then (decode? rest).map (h.pair low :: ·) else none
      | _ => none
    else if h.isLow then none
    else (decode? rest).map (Char.ofNat h.value :: ·)

/-- The string that is written, if it is one. -/
def string? (parts : List StringPart) : Option String := (decode? parts).map String.ofList

/-- The name of a field with the colon behind it. -/
structure Label where
  before : Blanks := {}
  name : List StringPart
  after : Blanks := {}

def Label.text (l : Label) : List Char :=
  l.before.text ++ '"' :: (quoted l.name ++ (l.after.text ++ [':']))

/-! ## Values -/

mutual

inductive Value where
  | null
  | bool (b : Bool)
  | number (n : Numeral)
  | string (parts : List StringPart)
  | emptyArray (inside : Blanks)
  | array (elements : Elements)
  | emptyObject (inside : Blanks)
  | object (fields : Fields)

/-- The elements of an array, at least one. -/
inductive Elements where
  | last (before : Blanks) (value : Value) (after : Blanks)
  | more (before : Blanks) (value : Value) (after : Blanks) (rest : Elements)

/-- The fields of an object, at least one. -/
inductive Fields where
  | last (label : Label) (before : Blanks) (value : Value) (after : Blanks)
  | more (label : Label) (before : Blanks) (value : Value) (after : Blanks) (rest : Fields)

end

mutual

def Value.text : Value → List Char
  | .null => "null".toList
  | .bool true => "true".toList
  | .bool false => "false".toList
  | .number n => n.text
  | .string parts => '"' :: quoted parts
  | .emptyArray inside => '[' :: (inside.text ++ [']'])
  | .array elements => '[' :: elements.text
  | .emptyObject inside => '\x7b' :: (inside.text ++ ['\x7d'])
  | .object fields => '\x7b' :: fields.text

/-- The elements with the bracket behind them. -/
def Elements.text : Elements → List Char
  | .last before value after => before.text ++ (value.text ++ (after.text ++ [']']))
  | .more before value after rest =>
    before.text ++ (value.text ++ (after.text ++ ',' :: rest.text))

/-- The fields with the brace behind them. -/
def Fields.text : Fields → List Char
  | .last label before value after =>
    label.text ++ (before.text ++ (value.text ++ (after.text ++ ['\x7d'])))
  | .more label before value after rest =>
    label.text ++ (before.text ++ (value.text ++ (after.text ++ ',' :: rest.text)))

end

/-- What a field is written as: its name and its value. -/
abbrev Member := List StringPart × Value

def Fields.members : Fields → List Member
  | .last label _ value _ => [(label.name, value)]
  | .more label _ value _ rest => (label.name, value) :: rest.members

/-- The members of an object, in the order in which they are written. -/
def Value.members? : Value → Option (List Member)
  | .emptyObject _ => some []
  | .object fields => some fields.members
  | _ => none

def Value.whole? : Value → Option Nat
  | .number n => n.whole?
  | _ => none

def Value.bool? : Value → Option Bool
  | .bool b => some b
  | _ => none

end BallerinaSyntax.JsonText
