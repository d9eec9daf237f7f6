import Polarity.Text

/-!
# Spans of a source

Positions count the bytes of a source from 1; 0 stands for no position. Spans that
are given from outside are held in 64 bits.
-/

namespace Polarity

/-- A stretch of a source: the position of its first byte, and the position
after its last one. -/
structure Span where
  start : Int
  stop : Int
  deriving DecidableEq, Repr

namespace Span

/-- The span of nothing in particular. -/
def nowhere : Span := ⟨0, 0⟩

/-- The least position. -/
def least : Int := -0x8000000000000000

/-- The greatest position. -/
def greatest : Int := 0x7FFFFFFFFFFFFFFF

/-- An offset that is given from outside, as it counts for positions: after the
greatest position comes the least one. -/
def outerOffset (offset : Int) : Int := if offset = greatest then least - 1 else offset

/-- The span of the bytes from offset `start` up to offset `stop`. -/
def ofOffsets (start stop : Int) : Span := ⟨start + 1, stop + 1⟩

/-- The span of offsets that are given from outside. -/
def held (s : Span) : Span :=
  .ofOffsets (outerOffset (s.start - 1)) (outerOffset (s.stop - 1))

/-- From the start of one span to the end of another. -/
def between (first last : Span) : Span := ⟨first.start, last.stop⟩

/-- Whether the span says where it is. -/
def isPlaced (s : Span) : Bool := s.start != 0

/-- The span moved `n` bytes further. -/
def shift (n : Int) (s : Span) : Span := ⟨s.start + n, s.stop + n⟩

/-- A span as `start-stop`, or one number when both are equal. -/
def text (s : Span) : Text :=
  if s.start = s.stop then Text.ofInt s.start
  else Text.ofInt s.start ++ "-" ++ Text.ofInt s.stop

end Span

end Polarity
