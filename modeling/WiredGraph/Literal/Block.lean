import WiredGraph.Source.Utf8
import WiredGraph.Text.Blank
import WiredGraph.Text.Cut

/-!
# Block strings

Text between triple quotation marks is taken as it stands, less the layout it owes to the document
around it: the indentation that all its lines but the first share, and the blank lines at both
ends. Indentation is made of spaces and tabs and is counted on lines that have something else than
blanks on them. A line of blanks is cut like the others, and where a blank of several bytes lies
across the cut the text has no value.
-/

namespace WiredGraph

namespace BlockString

/-- The marks around a block string. -/
def marks : List Char := ['"', '"', '"']

/-- The text with every escaped triple mark replaced by a plain one. -/
def unescapeMarks : List Char → List Char
  | [] => []
  | '\\' :: '"' :: '"' :: '"' :: rest => '"' :: '"' :: '"' :: unescapeMarks rest
  | char :: rest => char :: unescapeMarks rest

/-- The text with every triple mark escaped. -/
def escapeMarks : List Char → List Char
  | [] => []
  | '"' :: '"' :: '"' :: rest => '\\' :: '"' :: '"' :: '"' :: escapeMarks rest
  | char :: rest => char :: escapeMarks rest

/-- The text between the marks; text that lacks them is taken whole. -/
def body (raw : List Char) : List Char :=
  unescapeMarks (((Text.dropStart? marks raw).bind (Text.dropEnd? marks)).getD raw)

/-- Whether a character counts as indentation. -/
def isIndent (char : Char) : Bool := char == ' ' || char == '\t'

/-- The width of a line's indentation. -/
def indentOf (line : List Char) : Nat := (line.takeWhile isIndent).length

/-- The indentation shared by the lines after the first that are not blank. -/
def commonIndent (lines : List (List Char)) : Nat :=
  (((lines.drop 1).filter (!Text.isBlankLine ·)).map indentOf).min?.getD 0

/-- A line without as many bytes at its front, unless the line is shorter. There is none when the
cut falls inside a character. -/
def cutIndent? (indent : Nat) (line : List Char) : Option (List Char) :=
  if Utf8.length line < indent then some line
  else (Utf8.splitAt? indent line).map (·.2)

/-- The lines with the shared indentation cut from all but the first. -/
def cutLines? (indent : Nat) : List (List Char) → Option (List (List Char))
  | [] => some []
  | first :: later => do
      let cut ← later.mapM (cutIndent? indent)
      some (first :: cut)

/-- Lines without the blank ones at both ends. -/
def trimLines (lines : List (List Char)) : List (List Char) :=
  Text.dropWhileEnd Text.isBlankLine (lines.dropWhile Text.isBlankLine)

/-- The text that a block string stands for, marks included. There is none when a blank lies across
the edge of the shared indentation. -/
def decodeToken? (raw : List Char) : Option (List Char) := do
  let lines := Text.lines (body raw)
  let cut ← cutLines? (commonIndent lines) lines
  some (Text.join ['\n'] (trimLines cut))

end BlockString

end WiredGraph
