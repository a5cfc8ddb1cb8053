import WiredGraph.Proofs.Json.Number

/-!
# Strings are read back

A character of a string is written as it is, by a letter after a backslash, or by its number. Each
of these forms is read as the one character that it was written for, so a string of any characters
is read back, and reading ends with its closing mark.
-/

namespace WiredGraph

namespace JsonReading

open Json (escapeChar writeString lowerHexDigit)

theorem hexDigit?_lowerHexDigit :
    ∀ value < 16, Quoted.hexDigit? (lowerHexDigit value) = some value := by
  decide

/-- A character may stand in a string as it is if it neither ends it nor starts an escape and is no
control character. -/
def IsPlain (char : Char) : Prop := char ≠ '"' ∧ char ≠ '\\' ∧ ¬ char.toNat < 0x20

/-- How a character is written: as it is, by a letter after a backslash, or by its number. -/
theorem escapeChar_cases (char : Char) :
    escapeChar char = [char] ∧ IsPlain char ∨
      (∃ letter, escapeChar char = ['\\', letter] ∧ letter ≠ 'u' ∧
        Quoted.unescapeLetter? letter = some char) ∨
      (char.toNat < 0x20 ∧ escapeChar char =
        ['\\', 'u', '0', '0', lowerHexDigit (char.toNat / 16),
          lowerHexDigit (char.toNat % 16)]) := by
  unfold escapeChar
  split
  · next quote => exact .inr (.inl ⟨'"', rfl, by decide, by rw [quote]; rfl⟩)
  split
  · next backslash => exact .inr (.inl ⟨'\\', rfl, by decide, by rw [backslash]; rfl⟩)
  split
  · next backspace => exact .inr (.inl ⟨'b', rfl, by decide, by rw [backspace]; rfl⟩)
  split
  · next tab => exact .inr (.inl ⟨'t', rfl, by decide, by rw [tab]; rfl⟩)
  split
  · next lineFeed => exact .inr (.inl ⟨'n', rfl, by decide, by rw [lineFeed]; rfl⟩)
  split
  · next formFeed => exact .inr (.inl ⟨'f', rfl, by decide, by rw [formFeed]; rfl⟩)
  split
  · next carriageReturn => exact .inr (.inl ⟨'r', rfl, by decide, by rw [carriageReturn]; rfl⟩)
  split
  · next control => exact .inr (.inr ⟨control, rfl⟩)
  · next notQuote notBackslash _ _ _ _ _ noControl =>
      exact .inl ⟨rfl, notQuote, notBackslash, noControl⟩

theorem escapedUnit_of_control {code : Nat} (small : code < 0x20) (rest : List Char) :
    escapedUnit ('0' :: '0' :: lowerHexDigit (code / 16) :: lowerHexDigit (code % 16) :: rest) =
      some (Char.ofNat code, rest) := by
  have unit : hexUnit
      ('0' :: '0' :: lowerHexDigit (code / 16) :: lowerHexDigit (code % 16) :: rest) =
        some (code, rest) := by
    have zero : Quoted.hexDigit? '0' = some 0 := by decide
    have high := hexDigit?_lowerHexDigit (code / 16) (by omega)
    have low := hexDigit?_lowerHexDigit (code % 16) (by omega)
    simp only [hexUnit, Quoted.hexFrom, zero, high, low, Option.bind_eq_bind, Option.bind_some,
      Option.map_some]
    congr 2
    omega
  have noSurrogate : ¬ (0xd800 ≤ code ∧ code < 0xdc00) := by omega
  have valid : code.isValidChar := .inl (by omega)
  rw [escapedUnit, bind_of_eq unit, if_neg noSurrogate, Quoted.charOfCode?, if_pos valid]
  rfl

/-- A written character is read as one character of a string. -/
theorem stringUpTo_escapeChar (char : Char) (bound : Nat) (rest : List Char) :
    stringUpTo (bound + 1) (escapeChar char ++ rest) =
      (stringUpTo bound rest).map fun found => (char :: found.1, found.2) := by
  rcases escapeChar_cases char with ⟨written, plain⟩ | ⟨letter, written, notUnit, stands⟩ |
    ⟨small, written⟩
  · rcases plain with ⟨notQuote, notBackslash, noControl⟩
    rw [written, List.singleton_append, stringUpTo]
    dsimp only
    split
    · next same => exact absurd (List.cons.inj same).1 notQuote
    · next same => exact absurd (List.cons.inj same).1 notBackslash
    · next same => exact absurd (List.cons.inj same).1 notBackslash
    · next same =>
        cases same
        rw [if_neg (by simp [notBackslash, noControl])]
        cases stringUpTo bound rest <;> rfl
    · next same => cases same
  · rw [written, List.cons_append, List.singleton_append, stringUpTo]
    dsimp only
    split
    · next same => cases same
    · next same => exact absurd (List.cons.inj (List.cons.inj same).2).1 notUnit
    · next same =>
        cases same
        rw [stands]
        cases stringUpTo bound rest <;> rfl
    · next noLetter same =>
        cases same
        exact absurd rfl (noLetter letter rest rfl)
    · next same => cases same
  · have unit := escapedUnit_of_control small rest
    rw [Char.ofNat_toNat] at unit
    rw [written]
    simp only [List.cons_append, List.nil_append, stringUpTo, unit, Option.bind_eq_bind,
      Option.bind_some]
    cases stringUpTo bound rest <;> rfl

theorem stringUpTo_writeString (chars rest : List Char) {bound : Nat}
    (enough : chars.length < bound) :
    stringUpTo bound (chars.flatMap escapeChar ++ '"' :: rest) = some (chars, rest) := by
  induction chars generalizing bound with
  | nil =>
      rcases bound with - | bound
      · exact absurd enough (Nat.not_lt_zero _)
      · rfl
  | cons char chars ih =>
      rcases bound with - | bound
      · exact absurd enough (Nat.not_lt_zero _)
      · rw [List.flatMap_cons, List.append_assoc, stringUpTo_escapeChar,
          ih (by simpa using enough)]
        rfl

theorem escapeChar_ne_nil (char : Char) : escapeChar char ≠ [] := by
  rcases escapeChar_cases char with ⟨written, -⟩ | ⟨letter, written, -⟩ | ⟨-, written⟩ <;>
    simp [written]

theorem length_le_escaped (chars : List Char) :
    chars.length ≤ (chars.flatMap escapeChar).length := by
  induction chars with
  | nil => exact Nat.le_refl 0
  | cons char chars ih =>
      have positive := List.length_pos_iff.mpr (escapeChar_ne_nil char)
      rw [List.flatMap_cons, List.length_append, List.length_cons]
      omega

theorem token_append (expected rest : List Char) :
    token expected (expected ++ rest) = some ((), rest) := by
  rw [token, Text.dropStart?_eq_some.mpr rfl]
  rfl

theorem token_single (mark : Char) (rest : List Char) :
    token [mark] (mark :: rest) = some ((), rest) :=
  token_append [mark] rest

/-- A written string is read back whatever follows. -/
theorem string_writeString (text : String) (rest : List Char) :
    string (writeString text ++ rest) = some (text, rest) := by
  have whole : writeString text ++ rest =
      ['"'] ++ (text.toList.flatMap escapeChar ++ '"' :: rest) := by
    simp [writeString]
  have enough : text.toList.length <
      (text.toList.flatMap escapeChar ++ '"' :: rest).length := by
    have escaped := length_le_escaped text.toList
    rw [List.length_append, List.length_cons]
    omega
  have chars : bounded stringUpTo (text.toList.flatMap escapeChar ++ '"' :: rest) =
      some (text.toList, rest) := stringUpTo_writeString text.toList rest enough
  rw [string, whole, bind_of_eq (token_append _ _), bind_of_eq chars, String.ofList_toList]
  rfl

end JsonReading

end WiredGraph
