import Mathlib.Data.List.Infix
import WiredGraph.Wiring.Reference

/-!
# Segments of references

A text is cut at every separator, from left to right. Nothing is lost by that, and the first segment
has no separator in it. Conversely a text without separators that is put before one becomes a
segment, unless a separator begins in the text and ends with the one behind it.
-/

namespace WiredGraph

namespace Reference

namespace Separator

/-- The first character of a separator. -/
def opening : Separator → Char
  | .colons => ':'
  | .arrow => '-'

/-- The last character of a separator. -/
def closing : Separator → Char
  | .colons => ':'
  | .arrow => '>'

/-- How a separator is written. -/
def text (separator : Separator) : List Char := [separator.opening, separator.closing]

end Separator

/-- No separator is written in a text. -/
def Unseparated (text : List Char) : Prop := ∀ separator : Separator, ¬separator.text <:+: text

namespace Unseparated

variable {part text : List Char}

theorem nil : Unseparated [] :=
  fun _ within => List.cons_ne_nil _ _ (List.infix_nil.mp within)

theorem of_within (unseparated : Unseparated text) (within : part <:+: text) : Unseparated part :=
  fun separator inPart => unseparated separator (inPart.trans within)

/-- A hyphen alone ends no separator. -/
theorem append_hyphen (unseparated : Unseparated text) : Unseparated (text ++ ['-']) := by
  intro separator within
  rcases List.infix_concat_iff.mp within with atEnd | before
  · rcases atEnd with ⟨front, whole⟩
    have last : separator.closing = '-' := by
      have ends := congrArg List.getLast? whole
      simpa [Separator.text] using ends
    cases separator <;> exact absurd last (by decide)
  · exact unseparated separator before

/-- Separators begin with a colon or a hyphen. -/
theorem of_plain (plain : ∀ char ∈ text, char ≠ ':' ∧ char ≠ '-') (next : Char) :
    Unseparated (text ++ [next]) := by
  rintro separator ⟨front, back, whole⟩
  have opening_mem : separator.opening ∈ text := by
    have before := congrArg List.dropLast whole
    rw [List.dropLast_concat, Separator.text, List.append_assoc, List.cons_append,
      List.dropLast_append_of_ne_nil (List.cons_ne_nil _ _), List.cons_append,
      List.dropLast_cons_of_ne_nil (List.cons_ne_nil _ _)] at before
    rw [← before]
    simp
  cases separator with
  | colons => exact (plain _ opening_mem).1 rfl
  | arrow => exact (plain _ opening_mem).2 rfl

end Unseparated

section Segments

variable {separator : Separator} {char : Char} {text rest : List Char}

theorem segments_separator (separator : Separator) (rest : List Char) :
    segments (separator.text ++ rest) =
      ([], (separator, (segments rest).1) :: (segments rest).2) := by
  cases separator <;> rfl

/-- A character that begins no separator belongs to the first segment. -/
theorem segments_cons (apart : ∀ separator : Separator, ¬separator.text <+: char :: rest) :
    segments (char :: rest) = (char :: (segments rest).1, (segments rest).2) := by
  rw [segments]
  · rintro later rfl rfl
    exact apart .colons ⟨later, rfl⟩
  · rintro later rfl rfl
    exact apart .arrow ⟨later, rfl⟩

/-- A text is empty, begins with a separator, or begins with a character that belongs to none. -/
theorem separators_induction {motive : List Char → Prop} (nil : motive [])
    (separated : ∀ (separator : Separator) rest, motive rest → motive (separator.text ++ rest))
    (cons : ∀ char rest, (∀ separator : Separator, ¬separator.text <+: char :: rest) →
      motive rest → motive (char :: rest)) (text : List Char) : motive text := by
  induction text using segments.induct with
  | case1 => exact nil
  | case2 rest _ _ _ ih => exact separated .colons rest ih
  | case3 rest _ _ _ ih => exact separated .arrow rest ih
  | case4 char rest noColons noArrow _ _ _ ih =>
      refine cons char rest ?_ ih
      rintro (_ | _) ⟨later, whole⟩
      · exact noColons later (List.cons.inj whole).1.symm (List.cons.inj whole).2.symm
      · exact noArrow later (List.cons.inj whole).1.symm (List.cons.inj whole).2.symm

/-- Nothing is lost in cutting a text. -/
theorem append_segments (text : List Char) :
    (segments text).1 ++ (segments text).2.flatMap (fun piece => piece.1.text ++ piece.2) =
      text := by
  induction text using separators_induction with
  | nil => rfl
  | separated separator rest ih =>
      rw [segments_separator, List.nil_append, List.flatMap_cons, List.append_assoc, ih]
  | cons char rest apart ih => rw [segments_cons apart, List.cons_append, ih]

theorem unseparated_segments (text : List Char) : Unseparated (segments text).1 := by
  induction text using separators_induction with
  | nil => exact .nil
  | separated separator rest ih =>
      rw [segments_separator]
      exact .nil
  | cons char rest apart ih =>
      rw [segments_cons apart]
      intro separator within
      rcases List.infix_cons_iff.mp within with atStart | behind
      · apply apart separator
        refine atStart.trans (List.cons_prefix_cons.mpr ⟨rfl, ?_⟩)
        exact ⟨_, append_segments rest⟩
      · exact ih separator behind

/-- A text without separators is one segment. -/
theorem segments_of_unseparated (unseparated : Unseparated text) : segments text = (text, []) := by
  induction text with
  | nil => rfl
  | cons char rest ih =>
      rw [segments_cons fun separator atStart => unseparated separator atStart.isInfix,
        ih (unseparated.of_within (List.suffix_cons char rest).isInfix)]

/-- A text becomes a segment if no separator ends with the opening of the one behind it. The two
characters of an opening stand before the end of the separator behind them. -/
theorem segments_append (unseparated : Unseparated (text ++ [separator.opening])) :
    segments (text ++ separator.text ++ rest) =
      (text, (separator, (segments rest).1) :: (segments rest).2) := by
  induction text with
  | nil => exact segments_separator separator rest
  | cons char later ih =>
      have apart : ∀ other : Separator,
          ¬other.text <+: char :: (later ++ separator.text ++ rest) := by
        intro other atStart
        apply unseparated other
        have short : other.text.length ≤ (char :: later ++ [separator.opening]).length := by
          simp [Separator.text]
        have within : char :: later ++ [separator.opening] <+:
            char :: (later ++ separator.text ++ rest) := by
          simp [Separator.text]
        exact (List.prefix_of_prefix_length_le atStart within short).isInfix
      have behind := unseparated.of_within (List.suffix_cons char _).isInfix
      rw [List.cons_append, List.cons_append, segments_cons apart, ih behind]

end Segments

end Reference

end WiredGraph
