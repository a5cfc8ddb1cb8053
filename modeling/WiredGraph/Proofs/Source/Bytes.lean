import Mathlib.Data.List.Basic
import WiredGraph.Source.LineIndex

/-!
# Texts as bytes

The UTF-8 form of a text has as many bytes as offsets count, and a byte for a line feed stands only
where the text has one: in characters of several bytes no byte is below 128. Line feeds before an
offset can therefore be counted in either form, also where the offset lies inside a character.
-/

namespace WiredGraph

namespace Utf8

/-- The bytes of a text. -/
def bytes (text : List Char) : List UInt8 := text.flatMap String.utf8EncodeChar

/-- The byte of a line feed. -/
def lineFeed : UInt8 := 10

@[simp]
theorem bytes_nil : bytes [] = [] := rfl

@[simp]
theorem bytes_cons (char : Char) (rest : List Char) :
    bytes (char :: rest) = String.utf8EncodeChar char ++ bytes rest := List.flatMap_cons

/-- The byte of a line feed is given by its number alone among those that fit into a byte. -/
theorem lineFeed_notMem_map_ofNat (numbers : List Nat)
    (others : ∀ number ∈ numbers, number < 256 ∧ number ≠ 10) :
    lineFeed ∉ numbers.map UInt8.ofNat := by
  intro inside
  rcases List.mem_map.mp inside with ⟨number, number_mem, same⟩
  have sameNumber := congrArg UInt8.toNat same
  rw [UInt8.toNat_ofNat', Nat.mod_eq_of_lt (others number number_mem).1] at sameNumber
  exact (others number number_mem).2 sameNumber

/-- No byte of a character other than a line feed is that of a line feed. All bytes but those of
ASCII characters are at least 128. -/
theorem lineFeed_notMem_utf8EncodeChar {char : Char} (other : char ≠ '\n') :
    lineFeed ∉ String.utf8EncodeChar char := by
  have code : char.val.toNat ≠ 10 := by
    intro same
    exact other (Char.ext (UInt32.toNat_inj.mp same))
  simp only [String.utf8EncodeChar]
  split
  · exact lineFeed_notMem_map_ofNat [_] (by simp only [List.mem_singleton, forall_eq]; omega)
  split
  · exact lineFeed_notMem_map_ofNat [_, _] (by simp; omega)
  split
  · exact lineFeed_notMem_map_ofNat [_, _, _] (by simp; omega)
  · exact lineFeed_notMem_map_ofNat [_, _, _, _] (by simp; omega)

theorem count_utf8EncodeChar (char : Char) :
    (String.utf8EncodeChar char).count lineFeed = if char = '\n' then 1 else 0 := by
  split
  · next feed =>
      subst feed
      decide
  · next other => exact List.count_eq_zero.mpr (lineFeed_notMem_utf8EncodeChar other)

/-- An offset inside a character has no byte of a line feed of the character before it. -/
theorem count_take_utf8EncodeChar {char : Char} {offset : Nat} (short : offset < char.utf8Size) :
    ((String.utf8EncodeChar char).take offset).count lineFeed = 0 := by
  by_cases feed : char = '\n'
  · subst feed
    obtain rfl : offset = 0 := Nat.lt_one_iff.mp short
    rfl
  · rw [List.count_eq_zero]
    exact fun inside => lineFeed_notMem_utf8EncodeChar feed (List.mem_of_mem_take inside)

end Utf8

open Utf8 (bytes lineFeed)

/-- Line feeds before an offset are counted in characters as in bytes. -/
theorem lineFeedsBefore_eq_count (offset : Nat) (text : List Char) :
    lineFeedsBefore offset text = ((bytes text).take offset).count lineFeed := by
  induction text generalizing offset with
  | nil => simp [lineFeedsBefore]
  | cons char rest ih =>
      rw [lineFeedsBefore, Utf8.bytes_cons, List.take_append, List.count_append,
        String.length_utf8EncodeChar]
      split
      · next short =>
          rw [Utf8.count_take_utf8EncodeChar short, Nat.sub_eq_zero_of_le (Nat.le_of_lt short),
            List.take_zero, List.count_nil]
      · next long =>
          rw [List.take_of_length_le (by rw [String.length_utf8EncodeChar]; omega),
            Utf8.count_utf8EncodeChar, ih]

end WiredGraph
