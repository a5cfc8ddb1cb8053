import WiredGraph.Source.Utf8

/-!
# Spans

A span is the half-open range of byte offsets that a piece of a source covers. Every node of a
document carries one, and every message about a document points at one.
-/

namespace WiredGraph

/-- A half-open range of byte offsets. -/
structure Span where
  /-- Offset of the first byte covered. -/
  start : Nat
  /-- Offset just past the last byte covered. -/
  stop : Nat
deriving DecidableEq, Repr, Inhabited

namespace Span

/-- The span of no bytes at one offset. -/
def empty (offset : Nat) : Span := ⟨offset, offset⟩

/-- Number of bytes covered. -/
def length (span : Span) : Nat := span.stop - span.start

/-- Whether no byte is covered. -/
def isEmpty (span : Span) : Bool := span.start == span.stop

/-- The smallest span covering two spans. -/
def merge (first second : Span) : Span :=
  ⟨min first.start second.start, max first.stop second.stop⟩

/-- The text covered, or no text when the span leaves the source or cuts a character. -/
def slice (span : Span) (text : List Char) : List Char :=
  (Utf8.slice? span.start span.stop text).getD []

end Span

end WiredGraph
