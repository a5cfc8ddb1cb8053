import WiredGraph.Source.Utf8

/-!
# Lines and columns

People are shown lines and columns, both counted from one, with columns in bytes. The index of a
text lists the offset at which each of its lines starts; a position is found from the last line
that starts at or before an offset, which is looked for by halving. Offsets past the end count on
from the last line.
-/

namespace WiredGraph

/-- A line and a column, both counted from one. -/
structure LineColumn where
  line : Nat
  column : Nat
deriving DecidableEq, Repr

namespace LineColumn

/-- The position as it is shown to people. -/
def text (position : LineColumn) : String := s!"{position.line}:{position.column}"

end LineColumn

/-- Where a number belongs among sorted numbers. -/
inductive Placement where
  /-- The number stands at a place. -/
  | found (place : Nat)
  /-- The number is not there, and would have to be put in at a place. -/
  | missing (place : Nat)
deriving DecidableEq, Repr

namespace Placement

/-- Where a number belongs between two places, of which the second one is the end at most. -/
def between (numbers : Array Nat) (number low high : Nat) (inside : high ≤ numbers.size) :
    Placement :=
  if _nonempty : low < high then
    let middle := low + (high - low) / 2
    have : middle < numbers.size := by omega
    if numbers[middle] = number then .found middle
    else if numbers[middle] < number then between numbers number (middle + 1) high inside
    else between numbers number low middle (by omega)
  else
    .missing low
termination_by high - low

/-- Where a number belongs among all of some sorted numbers. -/
def among (numbers : Array Nat) (number : Nat) : Placement :=
  between numbers number 0 numbers.size (Nat.le_refl _)

end Placement

/-- The offsets at which the lines of a text start. -/
structure LineIndex where
  starts : Array Nat
deriving DecidableEq, Repr

namespace LineIndex

/-- Offsets just past each line feed, for text that stands at an offset. -/
def startsFrom : Nat → List Char → List Nat
  | _, [] => []
  | offset, char :: rest =>
      let next := offset + char.utf8Size
      if char = '\n' then next :: startsFrom next rest else startsFrom next rest

/-- The index of a text. -/
def ofText (text : List Char) : LineIndex := ⟨(0 :: startsFrom 0 text).toArray⟩

/-- Number of lines; text without a line feed has one. -/
def lineCount (index : LineIndex) : Nat := index.starts.size

/-- The place, counted from zero, of the last line that starts at or before an offset. -/
def lineAt (index : LineIndex) (offset : Nat) : Nat :=
  match Placement.among index.starts offset with
  | .found place => place
  | .missing place => place - 1

/-- The position of a byte offset. -/
def locate (index : LineIndex) (offset : Nat) : LineColumn :=
  let line := index.lineAt offset
  ⟨line + 1, offset - index.starts.getD line 0 + 1⟩

end LineIndex

/-- Number of line feeds among the first bytes of a text. -/
def lineFeedsBefore (offset : Nat) : List Char → Nat
  | [] => 0
  | char :: rest =>
      if offset < char.utf8Size then 0
      else (if char = '\n' then 1 else 0) + lineFeedsBefore (offset - char.utf8Size) rest

end WiredGraph
