/-!
Reading JSON text from the left. The first problem decides the answer: a character that no JSON
text can have there, the end of the text, or a value of a type that is not wanted. A value that
nobody asked for is skipped by its grammar alone, so its numbers have no range and its escapes
need not pair up.
-/

namespace BallerinaSyntax.JsonText

inductive ReadError where
  /-- Not JSON. -/
  | malformed
  /-- The text ends inside a value. -/
  | truncated
  /-- JSON, but not a value that is wanted here. -/
  | mismatch
deriving DecidableEq, Repr, Inhabited

/-- What a step of the reader gives; mostly a value and the text behind it. -/
abbrev Result := Except ReadError

def isBlank (c : Char) : Bool := c == ' ' || c == '\n' || c == '\t' || c == '\r'

def skipBlanks (text : List Char) : List Char := text.dropWhile isBlank

def skipDigits (text : List Char) : List Char := text.dropWhile Char.isDigit

/-- Reads the rest of a reserved word. -/
def skipWord : List Char → List Char → Result (List Char)
  | [], text => .ok text
  | _ :: _, [] => .error .truncated
  | c :: word, d :: text => if c = d then skipWord word text else .error .malformed

/-! ## Strings -/

def hexDigit? (c : Char) : Option Nat :=
  if c.isDigit then some (c.toNat - '0'.toNat)
  else if 'a' ≤ c && c ≤ 'f' then some (c.toNat - 'a'.toNat + 10)
  else if 'A' ≤ c && c ≤ 'F' then some (c.toNat - 'A'.toNat + 10)
  else none

def byteLength (text : List Char) : Nat := text.foldr (fun c bytes => c.utf8Size + bytes) 0

/-- Four hexadecimal digits. The text counts as cut short only when fewer than four bytes are
left. -/
def readHex (text : List Char) : Result (Nat × List Char) :=
  if byteLength text < 4 then .error .truncated
  else
    match text with
    | a :: b :: c :: d :: rest =>
      match hexDigit? a, hexDigit? b, hexDigit? c, hexDigit? d with
      | some a, some b, some c, some d => .ok (((a * 16 + b) * 16 + c) * 16 + d, rest)
      | _, _, _, _ => .error .malformed
    | _ => .error .malformed

def simpleEscape? : Char → Option Char
  | '"' => some '"'
  | '\\' => some '\\'
  | '/' => some '/'
  | 'b' => some '\x08'
  | 'f' => some '\x0c'
  | 'n' => some '\n'
  | 'r' => some '\r'
  | 't' => some '\t'
  | _ => none

/-- The code point of a numbered escape, behind the letter `u`; one beyond the basic plane is
written as two escapes that stand together. -/
def readCodePoint (text : List Char) : Result (Char × List Char) := do
  let (high, rest) ← readHex text
  if 0xDC00 ≤ high && high ≤ 0xDFFF then throw .malformed
  else if high < 0xD800 || 0xDBFF < high then return (Char.ofNat high, rest)
  else
    match rest with
    | [] => throw .truncated
    | '\\' :: [] => throw .truncated
    | '\\' :: 'u' :: rest =>
      let (low, rest) ← readHex rest
      if low < 0xDC00 || 0xDFFF < low then throw .malformed
      else return (Char.ofNat ((high - 0xD800) * 1024 + (low - 0xDC00) + 0x10000), rest)
    | _ => throw .malformed

def readEscape : List Char → Result (Char × List Char)
  | [] => .error .truncated
  | 'u' :: rest => readCodePoint rest
  | c :: rest =>
    match simpleEscape? c with
    | some d => .ok (d, rest)
    | none => .error .malformed

def skipEscape : List Char → Result (List Char)
  | [] => .error .truncated
  | 'u' :: rest => (readHex rest).map (·.2)
  | c :: rest => if (simpleEscape? c).isSome then .ok rest else .error .malformed

/-- The characters of a string, behind its opening quote. -/
def readStringFrom : Nat → List Char → List Char → Result (List Char × List Char)
  | 0, _, _ => .error .truncated
  | _ + 1, _, [] => .error .truncated
  | _ + 1, seen, '"' :: rest => .ok (seen.reverse, rest)
  | steps + 1, seen, '\\' :: rest => do
    let (c, rest) ← readEscape rest
    readStringFrom steps (c :: seen) rest
  | steps + 1, seen, c :: rest =>
    if c < ' ' then .error .malformed else readStringFrom steps (c :: seen) rest

def readString (text : List Char) : Result (String × List Char) := do
  let (chars, rest) ← readStringFrom (text.length + 1) [] text
  return (String.ofList chars, rest)

def skipStringFrom : Nat → List Char → Result (List Char)
  | 0, _ => .error .truncated
  | _ + 1, [] => .error .truncated
  | _ + 1, '"' :: rest => .ok rest
  | steps + 1, '\\' :: rest => do skipStringFrom steps (← skipEscape rest)
  | steps + 1, c :: rest => if c < ' ' then .error .malformed else skipStringFrom steps rest

def skipString (text : List Char) : Result (List Char) :=
  skipStringFrom (text.length + 1) text

/-! ## Numbers -/

def startsWithDigit (text : List Char) : Bool := text.head?.any Char.isDigit

def isExponentMark (c : Char) : Bool := c == 'e' || c == 'E'

def skipSign : List Char → List Char
  | '+' :: rest | '-' :: rest => rest
  | text => text

def skipExponent (text : List Char) : Result (List Char) :=
  let text := skipSign text
  if startsWithDigit text then .ok (skipDigits text) else .error .malformed

def skipFraction (text : List Char) : Result (List Char) :=
  if startsWithDigit text then
    match skipDigits text with
    | c :: rest => if isExponentMark c then skipExponent rest else .ok (c :: rest)
    | [] => .ok []
  else .error .malformed

/-- Skips a number, behind its sign. -/
def skipNumber (text : List Char) : Result (List Char) := do
  let rest ←
    match text with
    | '0' :: rest => if startsWithDigit rest then throw .malformed else pure rest
    | c :: rest => if c.isDigit then pure (skipDigits rest) else throw .malformed
    | [] => throw .malformed
  match rest with
  | '.' :: rest => skipFraction rest
  | c :: rest => if isExponentMark c then skipExponent rest else return c :: rest
  | [] => return []

def wordLimit : Nat := Nat.pow 2 64

/-- Rounds to 53 significant bits, ties to even. -/
def roundToDouble (n : Nat) : Nat :=
  let drop := n.log2 + 1 - 53
  let unit := Nat.pow 2 drop
  let quotient := n / unit
  let remainder := n % unit
  let tie := 2 * remainder == unit && drop != 0
  let up := 2 * remainder > unit || (tie && quotient % 2 == 1)
  (quotient + up.toNat) * unit

/-- Whether `significand * 10 ^ exponent` lies beyond the doubles when each factor and the
product are rounded. -/
def exceedsDouble (significand : Nat) (exponent : Int) : Bool :=
  significand != 0 && exponent ≥ 0 &&
    (exponent > 308 ||
      roundToDouble significand * roundToDouble (Nat.pow 10 exponent.toNat) ≥
        Nat.pow 2 1024 - Nat.pow 2 970)

/-- Takes digits into a significand as long as it fits a 64 bit word; gives the significand, how
many digits went into it, and the digits that did not. -/
def takeDigits (significand taken : Nat) : List Char → Nat × Nat × List Char
  | [] => (significand, taken, [])
  | c :: rest =>
    let next := significand * 10 + (c.toNat - '0'.toNat)
    if next < wordLimit then takeDigits next (taken + 1) rest else (significand, taken, c :: rest)

/-- A number as far as a whole number is wanted. -/
inductive Number where
  | whole (n : Nat)
  /-- Negative, with a fraction or an exponent, or beyond 64 bits. -/
  | other
deriving DecidableEq, Repr

def finish (significand : Nat) (exponent : Int) (rest : List Char) : Result (Number × List Char) :=
  if exceedsDouble significand exponent then .error .malformed else .ok (.other, rest)

/-- The exponent of a number, behind its mark. -/
def readExponent (significand : Nat) (exponent : Int) (text : List Char) :
    Result (Number × List Char) :=
  let negative := text.head? == some '-'
  let text := skipSign text
  if text.isEmpty then .error .truncated
  else if !startsWithDigit text then .error .malformed
  else
    let value : Nat := Nat.ofDigitChars 10 (text.takeWhile Char.isDigit) 0
    let rest := skipDigits text
    if value ≥ Nat.pow 2 31 then
      if significand != 0 && !negative then .error .malformed else .ok (.other, rest)
    else finish significand (if negative then exponent - value else exponent + value) rest

/-- The digits behind the point of a number. -/
def readFraction (significand : Nat) (exponent : Int) (text : List Char) :
    Result (Number × List Char) :=
  if text.isEmpty then .error .truncated
  else if !startsWithDigit text then .error .malformed
  else
    let (significand, taken, _) := takeDigits significand 0 (text.takeWhile Char.isDigit)
    let exponent := exponent - taken
    match skipDigits text with
    | c :: rest =>
      if isExponentMark c then readExponent significand exponent rest
      else finish significand exponent (c :: rest)
    | [] => finish significand exponent []

/-- Reads a number, behind its sign. -/
def readNumber (positive : Bool) (text : List Char) : Result (Number × List Char) := do
  match text with
  | [] => throw .truncated
  | '0' :: c :: _ => if c.isDigit then throw .malformed
  | c :: _ => if !c.isDigit then throw .malformed
  let (significand, _, excess) := takeDigits 0 0 (text.takeWhile Char.isDigit)
  let exponent : Int := excess.length
  match skipDigits text with
  | '.' :: rest => readFraction significand exponent rest
  | rest =>
    match rest.head?.filter isExponentMark with
    | some _ => readExponent significand exponent rest.tail
    | none =>
      if excess.isEmpty then return (if positive then .whole significand else .other, rest)
      else finish significand exponent rest

/-! ## Values -/

/-- Reads a value of a type that is not wanted: up to its end if it is a scalar, else only its
first character. -/
def rejectValue : List Char → ReadError
  | 'n' :: rest => after (skipWord "ull".toList rest)
  | 't' :: rest => after (skipWord "rue".toList rest)
  | 'f' :: rest => after (skipWord "alse".toList rest)
  | '"' :: rest => after (readString rest)
  | '-' :: rest => after (readNumber false rest)
  | '[' :: _ => .mismatch
  | '\x7b' :: _ => .mismatch
  | c :: rest => if c.isDigit then after (readNumber true (c :: rest)) else .malformed
  | [] => .malformed
where
  /-- A value that is well formed is still the wrong one. -/
  after {α : Type} : Except ReadError α → ReadError
    | .ok _ => .mismatch
    | .error e => e

/-- Reads a whole number below `limit`. -/
def readWhole (limit : Nat) (text : List Char) : Result (Nat × List Char) := do
  let text := skipBlanks text
  let (number, rest) ←
    match text with
    | [] => throw .truncated
    | '-' :: rest => readNumber false rest
    | c :: _ => if c.isDigit then readNumber true text else throw (rejectValue text)
  match number with
  | .whole n => if n < limit then return (n, rest) else throw .mismatch
  | .other => throw .mismatch

def readBool (text : List Char) : Result (Bool × List Char) := do
  match skipBlanks text with
  | [] => throw .truncated
  | 't' :: rest => return (true, ← skipWord "rue".toList rest)
  | 'f' :: rest => return (false, ← skipWord "alse".toList rest)
  | text => throw (rejectValue text)

/-- Skips the colon between a key and its value. -/
def skipColon (text : List Char) : Result (List Char) :=
  match skipBlanks text with
  | [] => .error .truncated
  | ':' :: rest => .ok rest
  | _ => .error .malformed

mutual

/-- Skips one value of any type. -/
def skipValueIn : Nat → List Char → Result (List Char)
  | 0, _ => .error .truncated
  | steps + 1, text =>
    match skipBlanks text with
    | [] => .error .truncated
    | 'n' :: rest => skipWord "ull".toList rest
    | 't' :: rest => skipWord "rue".toList rest
    | 'f' :: rest => skipWord "alse".toList rest
    | '"' :: rest => skipString rest
    | '-' :: rest => skipNumber rest
    | '[' :: rest =>
      match skipBlanks rest with
      | ']' :: rest => .ok rest
      | [] => .error .truncated
      | rest => skipElements steps rest
    | '\x7b' :: rest =>
      match skipBlanks rest with
      | '\x7d' :: rest => .ok rest
      | rest => skipMembers steps rest
    | c :: rest => if c.isDigit then skipNumber (c :: rest) else .error .malformed

/-- Skips the elements of an array and its end. -/
def skipElements : Nat → List Char → Result (List Char)
  | 0, _ => .error .truncated
  | steps + 1, text => do
    match skipBlanks (← skipValueIn steps text) with
    | [] => throw .truncated
    | ']' :: rest => return rest
    | ',' :: rest => skipElements steps rest
    | _ => throw .malformed

/-- Skips the members of an object and its end. -/
def skipMembers : Nat → List Char → Result (List Char)
  | 0, _ => .error .truncated
  | steps + 1, text => do
    match skipBlanks text with
    | [] => throw .truncated
    | '"' :: rest =>
      let rest ← skipColon (← skipString rest)
      match skipBlanks (← skipValueIn steps rest) with
      | [] => throw .truncated
      | '\x7d' :: rest => return rest
      | ',' :: rest => skipMembers steps rest
      | _ => throw .malformed
    | _ => throw .malformed

end

/-- Skips one value; every call above it has used up a character, so the length of the text
bounds the depth. -/
def skipValue (text : List Char) : Result (List Char) :=
  skipValueIn (2 * text.length + 2) text

end BallerinaSyntax.JsonText
