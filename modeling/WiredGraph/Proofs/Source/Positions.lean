import WiredGraph.Operation.Template
import WiredGraph.Proofs.Source.Lines

/-!
# Positions of offsets

The position that the index of a text gives for an offset is read off the bytes before the offset:
the line counts the line feeds among them, and the column the bytes behind the last one. So
different offsets have different positions, in the same order. Documents in a host file are given
the same lines, which are counted there without an index.
-/

namespace WiredGraph

open Utf8 (bytes lineFeed)

/-- The position behind some bytes: the lines are counted by the line feeds, and the columns by the
bytes behind the last one. -/
def LineColumn.behind (before : List UInt8) : LineColumn :=
  ⟨before.count lineFeed + 1, (before.rtakeWhile (· ≠ lineFeed)).length + 1⟩

namespace LineIndex

end LineIndex

namespace LineColumn

/-- A position stands before another one on an earlier line, or in an earlier column of its line. -/
def Before (first second : LineColumn) : Prop :=
  first.line < second.line ∨ first.line = second.line ∧ first.column < second.column

end LineColumn

namespace LineIndex

variable {text : List Char}

/-- What an index says about the offsets of a text. -/
structure Places (index : LineIndex) (text : List Char) : Prop where
  /-- The lines are counted by the line feeds before an offset, and the columns by the bytes between
  the last of them and the offset. -/
  locate_eq : ∀ offset ≤ Utf8.length text,
    index.locate offset = .behind ((bytes text).take offset)
  /-- No offset belongs before the first line, and a line starts at or before its offsets: nothing
  is taken from a smaller number. -/
  start_le : ∀ offset, Placement.among index.starts offset ≠ .missing 0 ∧
    ∃ start, index.starts[index.lineAt offset]? = some start ∧ start ≤ offset
  increasing : ∀ first second, first < second → second ≤ Utf8.length text →
    (index.locate first).Before (index.locate second)
  injective : ∀ first ≤ Utf8.length text, ∀ second ≤ Utf8.length text,
    index.locate first = index.locate second → first = second
  lineCount_eq : index.lineCount = (bytes text).count lineFeed + 1
  line_eq : ∀ offset, (index.locate offset).line = lineFeedsBefore offset text + 1
  /-- The line of what follows some text is the one that templates are given. -/
  line_eq_lineOfRest : ∀ front rest, text = front ++ rest →
    (index.locate (Utf8.length front)).line = Template.lineOfRest text rest
  /-- Starts are at most the length of the text, lines and columns at most one more than the
  offset. -/
  bounded : (∀ start ∈ index.starts, start ≤ Utf8.length text) ∧
    ∀ offset ≤ Utf8.length text,
      (index.locate offset).line ≤ offset + 1 ∧ (index.locate offset).column ≤ offset + 1
  /-- The starts in a text of less than 2 ^ 32 bytes fit into 32 bits. So do lines and columns, but
  for the end of the longest texts: the line if all of their bytes are line feeds, and the column if
  none is. -/
  fits : Utf8.length text < UInt32.size → (∀ start ∈ index.starts, start < UInt32.size) ∧
    ∀ offset ≤ Utf8.length text,
      ((index.locate offset).line < UInt32.size ↔
        ¬(offset + 1 = UInt32.size ∧ ∀ byte ∈ bytes text, byte = lineFeed)) ∧
      ((index.locate offset).column < UInt32.size ↔
        ¬(offset + 1 = UInt32.size ∧ lineFeed ∉ bytes text))

end LineIndex

end WiredGraph
