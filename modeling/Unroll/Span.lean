/-! Source positions: byte ranges together with the line and column where they begin. -/

namespace Unroll

/-- A byte range of a source file. A range whose `stop` lies before its `start` is empty. -/
structure Span where
  start : Nat := 0
  stop : Nat := 0
  line : Nat := 0
  column : Nat := 0
deriving DecidableEq, Inhabited

/-- What a diagnostic points at: a byte offset and a number of bytes. -/
structure Extent where
  offset : Nat
  length : Nat
deriving DecidableEq, Inhabited

namespace Span

/-- The empty range at a byte offset, on no particular line. -/
def point (offset : Nat) : Span := { start := offset, stop := offset }

def length (s : Span) : Nat := s.stop - s.start

def isEmpty (s : Span) : Bool := s.length == 0

/-- The range that begins where `s` begins and ends at the farther of the two ends. -/
def through (s t : Span) : Span := { s with stop := max s.stop t.stop }

def extent (s : Span) : Extent := ⟨s.start, s.length⟩

/-- The position where the range begins, as `line:column`. -/
def position (s : Span) : String := toString s.line ++ ":" ++ toString s.column

end Span

end Unroll
