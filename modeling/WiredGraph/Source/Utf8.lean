/-!
# Byte offsets into text

Positions in a source are counted in bytes of its UTF-8 form, while text is read character by
character. This module relates the two: the number of bytes a list of characters takes, and the
cut of a list at a byte offset, which exists only where the offset falls between two characters.
-/

namespace WiredGraph

namespace Utf8

/-- Number of bytes the characters take when encoded. -/
def length : List Char → Nat
  | [] => 0
  | char :: rest => char.utf8Size + length rest

@[simp]
theorem length_nil : length [] = 0 := rfl

@[simp]
theorem length_cons (char : Char) (rest : List Char) :
    length (char :: rest) = char.utf8Size + length rest := rfl

@[simp]
theorem length_append (left right : List Char) :
    length (left ++ right) = length left + length right := by
  induction left with
  | nil => simp
  | cons char rest ih => simp [ih, Nat.add_assoc]

/-- The text before and after a byte offset, when the offset is a character boundary. -/
def splitAt? : Nat → List Char → Option (List Char × List Char)
  | 0, text => some ([], text)
  | _ + 1, [] => none
  | offset + 1, char :: rest =>
      if char.utf8Size ≤ offset + 1 then
        (splitAt? (offset + 1 - char.utf8Size) rest).map fun (before, after) =>
          (char :: before, after)
      else
        none

/-- The two parts of a cut make up the text, and the first part ends at the offset. -/
theorem splitAt?_eq_some {offset : Nat} {text before after : List Char}
    (cut : splitAt? offset text = some (before, after)) :
    text = before ++ after ∧ length before = offset := by
  induction text generalizing offset before with
  | nil =>
      cases offset with
      | zero => simp_all [splitAt?]
      | succ offset => simp [splitAt?] at cut
  | cons char rest ih =>
      cases offset with
      | zero => simp_all [splitAt?]
      | succ offset =>
          simp only [splitAt?] at cut
          split at cut
          · next fits =>
              obtain ⟨⟨front, back⟩, found, same⟩ := Option.map_eq_some_iff.1 cut
              obtain ⟨rfl, rfl⟩ := Prod.mk.injEq .. ▸ same
              obtain ⟨whole, size⟩ := ih found
              simp only [List.cons_append, ← whole, length_cons, size, true_and]
              omega
          · simp at cut

/-- The characters from one byte offset up to another, when both are character boundaries. -/
def slice? (start stop : Nat) (text : List Char) : Option (List Char) := do
  let (_, fromStart) ← splitAt? start text
  if start ≤ stop then
    let (inside, _) ← splitAt? (stop - start) fromStart
    some inside
  else
    none

end Utf8

end WiredGraph
