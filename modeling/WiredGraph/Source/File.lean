import WiredGraph.Source.LineIndex
import WiredGraph.Source.Span

/-!
# Source files

A source is a text together with the path it came from. A text that is a part of a larger host
file knows on which of the host's lines it starts, so that its locations are those of the host.
-/

namespace WiredGraph

/-- A place in a source, as error messages show it. -/
structure Location where
  path : String
  line : Nat
  column : Nat
deriving DecidableEq, Repr

namespace Location

/-- The location as it is shown to people. -/
def text (location : Location) : String :=
  s!"{location.path}:{location.line}:{location.column}"

end Location

/-- A text and where it came from. -/
structure SourceFile where
  /-- The path as it was given; it may use either slash. -/
  path : String
  text : String
  /-- The line of the host file on which the text starts, counted from one. -/
  firstLine : Nat := 1
deriving DecidableEq, Repr

namespace SourceFile

/-- The text as characters. -/
def chars (file : SourceFile) : List Char := file.text.toList

/-- The place in the host file where a span starts. -/
def locate (file : SourceFile) (span : Span) : Location :=
  let position := (LineIndex.ofText file.chars).locate span.start
  ⟨file.path, position.line + (file.firstLine - 1), position.column⟩

/-- The line of the host file on which a span starts. -/
def lineOf (file : SourceFile) (span : Span) : Nat := (file.locate span).line

end SourceFile

end WiredGraph
