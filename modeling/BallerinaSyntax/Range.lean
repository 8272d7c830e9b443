/-!
Positions in a source text and in a token buffer. Offsets count bytes. A span is a start and a
length; byte ranges and token ranges are half open, and an empty one still has a place.
-/

namespace BallerinaSyntax

structure Span where
  start : Nat
  length : Nat
deriving DecidableEq, Repr, Inhabited

/-- The bytes from `start` up to `stop`, which is not included. -/
structure ByteRange where
  start : Nat
  stop : Nat
deriving DecidableEq, Repr, Inhabited

/-- Indices into the token buffer of one unit, `stop` not included. An empty range belongs to a
node that covers no tokens: recovery made it up, or it is a text that is empty. -/
structure TokenRange where
  start : Nat
  stop : Nat
deriving DecidableEq, Repr, Inhabited

namespace Span

def ofBounds (start stop : Nat) : Span := ⟨start, stop - start⟩

def empty (pos : Nat) : Span := ⟨pos, 0⟩

def stop (s : Span) : Nat := s.start + s.length

def isEmpty (s : Span) : Bool := s.length == 0

def contains (s : Span) (pos : Nat) : Bool := s.start ≤ pos && pos < s.stop

def toByteRange (s : Span) : ByteRange := ⟨s.start, s.stop⟩

instance : ToString Span := ⟨fun s => s!"[{s.start}, {s.stop})"⟩

end Span

namespace ByteRange

def empty (pos : Nat) : ByteRange := ⟨pos, pos⟩

def length (r : ByteRange) : Nat := r.stop - r.start

def isEmpty (r : ByteRange) : Bool := r.start == r.stop

def contains (r : ByteRange) (pos : Nat) : Bool := r.start ≤ pos && pos < r.stop

def toSpan (r : ByteRange) : Span := .ofBounds r.start r.stop

/-- The smallest range that covers both. -/
def cover (r s : ByteRange) : ByteRange := ⟨min r.start s.start, max r.stop s.stop⟩

instance : ToString ByteRange := ⟨fun r => s!"{r.start}..{r.stop}"⟩

end ByteRange

namespace TokenRange

def empty (index : Nat) : TokenRange := ⟨index, index⟩

def length (r : TokenRange) : Nat := r.stop - r.start

def isEmpty (r : TokenRange) : Bool := r.start == r.stop

/-- Whether `s` lies entirely inside `r`. -/
def includes (r s : TokenRange) : Bool := r.start ≤ s.start && s.stop ≤ r.stop

/-- The indices of the range, in order. -/
def indices (r : TokenRange) : List Nat := List.range' r.start (r.stop - r.start)

instance : ToString TokenRange := ⟨fun r => s!"#{r.start}..#{r.stop}"⟩

end TokenRange

end BallerinaSyntax
