/-!
# ASCII text

Names are compared without regard to the case of ASCII letters in some places, and identifiers are
made of ASCII letters, digits and underscores everywhere.
-/

namespace WiredGraph

namespace Ascii

/-- What holds of the characters from one on, step by step, holds of all that lie between it and
another one. -/
theorem of_between (Holds : Char → Nat → Prop) {first last char : Char}
    (each : ∀ step ≤ last.toNat - first.toNat, Holds (Char.ofNat (first.toNat + step)) step)
    (between : first ≤ char ∧ char ≤ last) : Holds char (char.toNat - first.toNat) := by
  have low : first.toNat ≤ char.toNat := between.1
  have high : char.toNat ≤ last.toNat := between.2
  have here := each (char.toNat - first.toNat) (by omega)
  rwa [Nat.add_sub_cancel' low, Char.ofNat_toNat] at here

/-- What holds of the letters and digits with small numbers holds of all letters and digits. -/
theorem of_isAlphanum (Holds : Char → Prop)
    (each : ∀ number < 128, (Char.ofNat number).isAlphanum → Holds (Char.ofNat number))
    {char : Char} (isAlphanum : char.isAlphanum) : Holds char := by
  have kinds : (char.isUpper || char.isLower || char.isDigit) = true := isAlphanum
  have small : char.toNat < 128 := by
    rw [Bool.or_eq_true, Bool.or_eq_true] at kinds
    rcases kinds with (capital | letter) | digit
    · exact Nat.lt_of_le_of_lt (of_decide_eq_true capital).2 (by decide)
    · exact Nat.lt_of_le_of_lt (of_decide_eq_true (Bool.and_eq_true_iff.mp letter).2) (by decide)
    · exact Nat.lt_of_le_of_lt (of_decide_eq_true (Bool.and_eq_true_iff.mp digit).2) (by decide)
  have here := each char.toNat small
  rw [Char.ofNat_toNat] at here
  exact here isAlphanum

/-- A text with its ASCII capitals replaced by small letters. -/
def foldCase (text : String) : String := String.ofList (text.toList.map Char.toLower)

@[simp]
theorem toLower_toLower (char : Char) : char.toLower.toLower = char.toLower := by
  by_cases capital : 'A' ≤ char ∧ char ≤ 'Z'
  · exact of_between (fun char _ => char.toLower.toLower = char.toLower) (by decide) capital
  · have same : char.toLower = char := dif_neg capital
    rw [same, same]

@[simp]
theorem foldCase_foldCase (text : String) : foldCase (foldCase text) = foldCase text := by
  simp [foldCase, Function.comp_def]

/-- A text with its small ASCII letters replaced by capitals. -/
def capitalize (text : String) : String := String.ofList (text.toList.map Char.toUpper)

/-- Whether a text is a letter or an underscore followed by letters, digits and underscores. -/
def isIdentifier : List Char → Bool
  | [] => false
  | first :: rest =>
      (first.isAlpha || first == '_') && rest.all fun char => char.isAlphanum || char == '_'

end Ascii

end WiredGraph
