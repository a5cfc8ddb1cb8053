import WiredGraph.Text.CaseTable

/-!
# Lower case

A text is lower-cased character by character, with one exception that depends on the neighbours:
the Greek letter sigma takes its final form when it ends a word, which means that the nearest
character before it has case and the nearest one after it has not, where marks inside words are
passed over.
-/

namespace WiredGraph

namespace LowerCase

/-- Whether a code point lies in one of several ranges. -/
def inRanges (ranges : List (Nat × Nat)) (char : Char) : Bool :=
  ranges.any fun (first, last) => first ≤ char.toNat && char.toNat ≤ last

/-- Whether the nearest character that is not passed over has case. -/
def meetsCase (neighbours : List Char) : Bool :=
  match neighbours.dropWhile (inRanges CaseTable.ignorable) with
  | [] => false
  | nearest :: _ => inRanges CaseTable.cased nearest

/-- The small letter of a character, which is the character itself if it has none. -/
def char (char : Char) : List Char :=
  let code := char.toNat
  if code = 0x130 then ['i', '\u0307']
  else
    match CaseTable.lower.find? fun range =>
        range.first ≤ code && code ≤ range.last && (code - range.first) % range.step == 0 with
    | some range => [Char.ofNat (code + range.distance).toNat]
    | none => [char]

/-- A text in lower case, given the characters before it from the nearest on. -/
def textAfter (before : List Char) : List Char → List Char
  | [] => []
  | first :: rest =>
      let small :=
        if first = 'Σ' then
          if meetsCase before && !meetsCase rest then ['ς'] else ['σ']
        else
          char first
      small ++ textAfter (first :: before) rest

/-- A text in lower case. -/
def text (chars : List Char) : List Char := textAfter [] chars

end LowerCase

end WiredGraph
