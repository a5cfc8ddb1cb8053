/-!
# Cutting text

Text is cut into lines and pieces, and known beginnings and ends are taken off it. Everything here
works on lists of characters.
-/

namespace WiredGraph

namespace Text

/-- Text without a beginning that it is known to have, or nothing. -/
def dropStart? : (start : List Char) → List Char → Option (List Char)
  | [], text => some text
  | _ :: _, [] => none
  | expected :: start, char :: rest => if expected = char then dropStart? start rest else none

theorem dropStart?_eq_some {start text rest : List Char} :
    dropStart? start text = some rest ↔ text = start ++ rest := by
  induction start generalizing text with
  | nil => simp [dropStart?]
  | cons expected start ih =>
      cases text with
      | nil => simp [dropStart?]
      | cons char tail =>
          simp only [dropStart?]
          split
          · next same => simp [ih, same]
          · next differs =>
              simp only [reduceCtorEq, List.cons_append, List.cons.injEq, false_iff]
              exact fun both => differs both.1.symm

/-- Text without an end that it is known to have, or nothing. -/
def dropEnd? (final text : List Char) : Option (List Char) :=
  (dropStart? final.reverse text.reverse).map List.reverse

theorem dropEnd?_eq_some {final text rest : List Char} :
    dropEnd? final text = some rest ↔ text = rest ++ final := by
  simp only [dropEnd?, Option.map_eq_some_iff, dropStart?_eq_some]
  constructor
  · rintro ⟨front, found, rfl⟩
    have := congrArg List.reverse found
    simpa using this
  · rintro rfl
    exact ⟨rest.reverse, by simp⟩

/-- The pieces of a text between the places where a character stands; there is always one. -/
def splitOn (mark : Char) : List Char → List (List Char)
  | [] => [[]]
  | char :: rest =>
      if char = mark then [] :: splitOn mark rest
      else (splitOn mark rest).modifyHead (char :: ·)

/-- Pieces put together with a separator between them. -/
def join (separator : List Char) : List (List Char) → List Char
  | [] => []
  | [piece] => piece
  | piece :: pieces => piece ++ separator ++ join separator pieces

/-- The lines of a text. A line ends with a line feed, before which one carriage return is not
counted to the line; text after the last line feed is a line if there is any. -/
def lines (text : List Char) : List (List Char) :=
  let pieces := splitOn '\n' text
  let ended := pieces.dropLast.map fun line => (dropEnd? ['\r'] line).getD line
  match pieces.getLast? with
  | none | some [] => ended
  | some last => ended ++ [last]

/-- The first place where a text occurs in another one: what stands before and after it. -/
def splitAround? (wanted : List Char) : List Char → Option (List Char × List Char)
  | [] => if wanted.isEmpty then some ([], []) else none
  | char :: rest =>
      match dropStart? wanted (char :: rest) with
      | some after => some ([], after)
      | none => (splitAround? wanted rest).map fun (before, after) => (char :: before, after)

/-- The last place where a text occurs in another one: what stands before and after it. -/
def splitAroundLast? (wanted text : List Char) : Option (List Char × List Char) :=
  (splitAround? wanted.reverse text.reverse).map fun (after, before) =>
    (before.reverse, after.reverse)

/-- A text with every occurrence of one character replaced by another. -/
def replaceChar (old new : Char) (text : List Char) : List Char :=
  text.map fun char => if char = old then new else char

end Text

end WiredGraph
