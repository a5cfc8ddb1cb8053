import Mathlib.Data.List.TakeWhile
import WiredGraph.Token.Scan

/-!
# Numbers

A number is a sign, digits, a fraction and an exponent, of which only the digits are required. The
scan of a number takes exactly such texts: what it takes has these parts, and a text with these
parts is taken as a whole when nothing follows that could go on with it.
-/

namespace WiredGraph

namespace Text

/-- A text stops at its front if its first character, if any, fails a test. -/
def Stops (test : Char → Bool) (text : List Char) : Prop :=
  ∀ first ∈ text.head?, test first = false

@[simp]
theorem stops_nil (test : Char → Bool) : Stops test [] := by simp [Stops]

@[simp]
theorem stops_cons {test : Char → Bool} {first : Char} {rest : List Char} :
    Stops test (first :: rest) ↔ test first = false := by
  simp [Stops]

theorem takeWhile_of_stops {test : Char → Bool} {text : List Char} (stops : Stops test text) :
    text.takeWhile test = [] := by
  cases text with
  | nil => rfl
  | cons first rest => simp [stops_cons.mp stops]

/-- A run of characters that pass a test ends where the text stops. -/
theorem takeWhile_run {test : Char → Bool} {run rest : List Char}
    (passes : ∀ char ∈ run, test char = true) (stops : Stops test rest) :
    (run ++ rest).takeWhile test = run := by
  rw [List.takeWhile_append_of_pos passes, takeWhile_of_stops stops, List.append_nil]

theorem dropWhile_run {test : Char → Bool} {run rest : List Char}
    (passes : ∀ char ∈ run, test char = true) (stops : Stops test rest) :
    (run ++ rest).dropWhile test = rest := by
  have whole := List.takeWhile_append_dropWhile (p := test) (l := run ++ rest)
  rw [takeWhile_run passes stops] at whole
  exact List.append_cancel_left whole

/-- A text is cut in only one way into a run of characters that pass a test and a rest that stops
there. -/
theorem run_unique {test : Char → Bool} {run rest otherRun otherRest : List Char}
    (passes : ∀ char ∈ run, test char = true) (stops : Stops test rest)
    (otherPasses : ∀ char ∈ otherRun, test char = true) (otherStops : Stops test otherRest)
    (same : run ++ rest = otherRun ++ otherRest) : run = otherRun ∧ rest = otherRest := by
  have runs : run = otherRun := by
    rw [← takeWhile_run passes stops, same, takeWhile_run otherPasses otherStops]
  subst runs
  exact ⟨rfl, List.append_cancel_left same⟩

end Text

namespace Scan

open Text (Stops takeWhile_run dropWhile_run)

/-- At least one character, all of them digits. -/
structure IsDigits (chars : List Char) : Prop where
  nonempty : chars ≠ []
  digits : ∀ char ∈ chars, char.isDigit = true

/-- The four parts of a number: an optional minus, digits, an optional fraction and an optional
exponent. -/
structure IsNumber (minus whole decimals exponent : List Char) : Prop where
  minus : minus = [] ∨ minus = ['-']
  whole : IsDigits whole
  /-- A point goes before the digits of a fraction. -/
  decimals : decimals = [] ∨ ∃ digits, IsDigits digits ∧ decimals = '.' :: digits
  /-- A mark and an optional sign go before the digits of an exponent. -/
  exponent : exponent = [] ∨ ∃ mark plusMinus digits, (mark = 'e' ∨ mark = 'E') ∧
    (plusMinus = [] ∨ plusMinus = ['+'] ∨ plusMinus = ['-']) ∧ IsDigits digits ∧
      exponent = mark :: (plusMinus ++ digits)

/-- The kind of a number with a fraction and an exponent, each of which may be empty. -/
def numberKind (decimals exponent : List Char) : TokenKind :=
  if decimals = [] ∧ exponent = [] then .int else .float

/-- A text is a number of a kind. -/
def IsNumberOf (kind : TokenKind) (chars : List Char) : Prop :=
  ∃ minus whole decimals exponent, IsNumber minus whole decimals exponent ∧
    chars = minus ++ whole ++ decimals ++ exponent ∧ kind = numberKind decimals exponent

/-- The characters that go on with a number, together with those that go on with a name. -/
def continuesNumber (char : Char) : Bool := continuesName char || char == '.'

section Taken

/-- The digits that a scan takes, if it takes any. -/
theorem isDigits_takeWhile {text : List Char} (some_digit : text.takeWhile Char.isDigit ≠ []) :
    IsDigits (text.takeWhile Char.isDigit) where
  nonempty := some_digit
  digits _ char_mem := List.mem_takeWhile_imp char_mem

theorem fraction_taken (text : List Char) :
    (fraction text).1 = [] ∨ ∃ digits, IsDigits digits ∧ (fraction text).1 = '.' :: digits := by
  unfold fraction
  split
  · next digit rest =>
      split
      · next starts =>
          refine .inr ⟨digit :: rest.takeWhile Char.isDigit, ⟨by simp, ?_⟩, rfl⟩
          intro char char_mem
          rcases List.mem_cons.mp char_mem with rfl | later
          · exact starts
          · exact List.mem_takeWhile_imp later
      · exact .inl rfl
  · exact .inl rfl

theorem sign_taken (signs text : List Char) :
    (sign signs text).1 = [] ∨ ∃ mark ∈ signs, (sign signs text).1 = [mark] := by
  unfold sign
  split
  · exact .inl rfl
  · next mark rest =>
      split
      · next listed => exact .inr ⟨mark, listed, rfl⟩
      · exact .inl rfl

/-- What a scan takes as a valid number is a number. The scan fails where digits are missing, first
before the fraction and then after the mark. -/
theorem isNumberOf_number {text : List Char} (valid : (number text).kind ≠ .invalid) :
    IsNumberOf (number text).kind (number text).chars := by
  have minus : (sign ['-'] text).1 = [] ∨ (sign ['-'] text).1 = ['-'] := by
    rcases sign_taken ['-'] text with none_taken | ⟨mark, listed, taken⟩
    · exact .inl none_taken
    · exact .inr (by rw [taken, List.mem_singleton.mp listed])
  have decimals := fraction_taken ((sign ['-'] text).2.dropWhile Char.isDigit)
  have exponentMark := sign_taken ['e', 'E']
    (fraction ((sign ['-'] text).2.dropWhile Char.isDigit)).2
  unfold number at valid ⊢
  simp only at valid ⊢
  split at valid
  · exact absurd rfl valid
  next someDigits =>
    have whole := isDigits_takeWhile (mt List.isEmpty_iff.mpr someDigits)
    rw [if_neg someDigits]
    split at valid
    · next rest unmarked =>
        refine ⟨_, _, _, [], ⟨minus, whole, decimals, .inl rfl⟩, (List.append_nil _).symm, ?_⟩
        simp [numberKind, List.isEmpty_iff]
    · next mark afterMark marked taken =>
        rw [taken] at exponentMark
        simp only at valid exponentMark ⊢
        split at valid
        · exact absurd rfl valid
        next moreDigits =>
          have magnitude := isDigits_takeWhile (mt List.isEmpty_iff.mpr moreDigits)
          rcases exponentMark with rfl | ⟨letter, listed, rfl⟩
          · exact absurd rfl marked
          have plusMinus := sign_taken ['+', '-'] afterMark
          refine ⟨_, _, _, letter :: ((sign ['+', '-'] afterMark).1 ++ _),
            ⟨minus, whole, decimals, .inr ⟨letter, _, _, by simpa using listed, ?_, magnitude,
              rfl⟩⟩, ?_, ?_⟩
          · rcases plusMinus with none_taken | ⟨char, among, one_taken⟩
            · exact .inl none_taken
            · rw [one_taken]
              simpa using among
          · simp
          · simp [numberKind, moreDigits]

end Taken

section Reading

theorem sign_listed {signs : List Char} {mark : Char} (listed : mark ∈ signs) (rest : List Char) :
    sign signs (mark :: rest) = ([mark], rest) := by
  rw [sign, if_pos listed]

theorem sign_absent {signs text : List Char} (absent : ∀ first ∈ text.head?, first ∉ signs) :
    sign signs text = ([], text) := by
  cases text with
  | nil => rfl
  | cons first rest => rw [sign, if_neg (absent first rfl)]

theorem fraction_absent {text : List Char} (absent : text.head? ≠ some '.') :
    fraction text = ([], text) := by
  unfold fraction
  split
  · simp at absent
  · rfl

theorem fraction_digits {digits rest : List Char} (isDigits : IsDigits digits)
    (stops : Stops Char.isDigit rest) :
    fraction ('.' :: digits ++ rest) = ('.' :: digits, rest) := by
  rcases digits with - | ⟨digit, digits⟩
  · exact absurd rfl isDigits.nonempty
  have later : ∀ char ∈ digits, char.isDigit = true := fun char char_mem =>
    isDigits.digits char (List.mem_cons_of_mem _ char_mem)
  simp only [List.cons_append, fraction, isDigits.digits digit (by simp), if_true,
    takeWhile_run later stops, dropWhile_run later stops]

/-- The characters that do not go on with a number are no digits, letters or points. -/
theorem not_continuesNumber {char : Char} (ends : continuesNumber char = false) :
    char.isDigit = false ∧ char ≠ 'e' ∧ char ≠ 'E' ∧ char ≠ '.' := by
  refine ⟨?_, ?_, ?_, ?_⟩
  · simp only [continuesNumber, continuesName, Char.isAlphanum, Bool.or_eq_false_iff] at ends
    exact ends.1.1.2
  all_goals
    rintro rfl
    revert ends
    decide

theorem sign_before_digits {signs digits rest : List Char} (isDigits : IsDigits digits)
    (noDigit : signs.any Char.isDigit = false) :
    sign signs (digits ++ rest) = ([], digits ++ rest) := by
  rcases digits with - | ⟨digit, digits⟩
  · exact absurd rfl isDigits.nonempty
  apply sign_absent
  intro first first_mem listed
  obtain rfl : digit = first := by simpa using first_mem
  exact List.any_eq_false.mp noDigit digit listed (isDigits.digits digit (by simp))

/-- After the fraction of a number no digit and no point stands. -/
theorem IsNumber.exponent_stops {minus whole decimals exponent rest : List Char}
    (isNumber : IsNumber minus whole decimals exponent) (stops : Stops continuesNumber rest) :
    ∀ first ∈ (exponent ++ rest).head?, first.isDigit = false ∧ first ≠ '.' := by
  intro first first_mem
  rcases isNumber.exponent with rfl | ⟨mark, plusMinus, digits, letter, -, -, rfl⟩
  · have ends := not_continuesNumber (stops first first_mem)
    exact ⟨ends.1, ends.2.2.2⟩
  · obtain rfl : mark = first := by simpa using first_mem
    rcases letter with rfl | rfl <;> decide

/-- The exponent of a number is taken as a whole, or nothing if there is none. -/
theorem IsNumber.sign_exponent {minus whole decimals exponent rest : List Char}
    (isNumber : IsNumber minus whole decimals exponent) (stops : Stops continuesNumber rest) :
    exponent = [] ∧ sign ['e', 'E'] (exponent ++ rest) = ([], rest) ∨
      ∃ mark plusMinus digits, IsDigits digits ∧ exponent = mark :: (plusMinus ++ digits) ∧
        sign ['e', 'E'] (exponent ++ rest) = ([mark], plusMinus ++ (digits ++ rest)) ∧
          sign ['+', '-'] (plusMinus ++ (digits ++ rest)) = (plusMinus, digits ++ rest) := by
  rcases isNumber.exponent with rfl | ⟨mark, plusMinus, digits, letter, signed, isDigits, rfl⟩
  · refine .inl ⟨rfl, sign_absent ?_⟩
    intro first first_mem
    have ends := not_continuesNumber (stops first first_mem)
    simp [ends.2.1, ends.2.2.1]
  · refine .inr ⟨mark, plusMinus, digits, isDigits, rfl, ?_, ?_⟩
    · rw [List.cons_append, List.append_assoc]
      exact sign_listed (by simpa using letter) _
    · have unsigned : sign ['+', '-'] (digits ++ rest) = ([], digits ++ rest) :=
        sign_before_digits isDigits (by decide)
      rcases signed with rfl | rfl | rfl
      · exact unsigned
      · exact sign_listed (by decide) _
      · exact sign_listed (by decide) _

/-- A number is taken as a whole where nothing goes on with it. Each part ends where the next one
starts, as none of them starts with what the one before it is made of. -/
theorem number_of_isNumber {minus whole decimals exponent rest : List Char}
    (isNumber : IsNumber minus whole decimals exponent) (stops : Stops continuesNumber rest) :
    number (minus ++ whole ++ decimals ++ exponent ++ rest) =
      ⟨numberKind decimals exponent, minus ++ whole ++ decimals ++ exponent, rest⟩ := by
  have afterDecimals := isNumber.exponent_stops stops
  have signed : sign ['-'] (minus ++ (whole ++ (decimals ++ (exponent ++ rest)))) =
      (minus, whole ++ (decimals ++ (exponent ++ rest))) := by
    have unsigned : sign ['-'] (whole ++ (decimals ++ (exponent ++ rest))) =
        ([], whole ++ (decimals ++ (exponent ++ rest))) :=
      sign_before_digits isNumber.whole (by decide)
    rcases isNumber.minus with rfl | rfl
    · exact unsigned
    · exact sign_listed (by decide) _
  have afterWhole : Stops Char.isDigit (decimals ++ (exponent ++ rest)) := by
    rcases isNumber.decimals with rfl | ⟨digits, -, rfl⟩
    · exact fun first first_mem => (afterDecimals first first_mem).1
    · exact Text.stops_cons.mpr (by decide)
  have decimalsTaken :
      fraction (decimals ++ (exponent ++ rest)) = (decimals, exponent ++ rest) := by
    rcases isNumber.decimals with rfl | ⟨digits, isDigits, rfl⟩
    · exact fraction_absent fun point => (afterDecimals '.' point).2 rfl
    · exact fraction_digits isDigits fun first first_mem => (afterDecimals first first_mem).1
  have someDigits : whole.isEmpty = false := List.isEmpty_eq_false_iff.mpr isNumber.whole.nonempty
  simp only [List.append_assoc]
  simp only [number, signed, takeWhile_run isNumber.whole.digits afterWhole,
    dropWhile_run isNumber.whole.digits afterWhole, someDigits, decimalsTaken]
  rcases isNumber.sign_exponent stops with
    ⟨rfl, noExponent⟩ | ⟨mark, plusMinus, digits, isDigits, rfl, marked, signedExponent⟩
  · rw [noExponent]
    simp [numberKind, List.isEmpty_iff]
  · have noMoreDigits : Stops Char.isDigit rest := fun first first_mem =>
      (not_continuesNumber (stops first first_mem)).1
    have moreDigits : digits.isEmpty = false := List.isEmpty_eq_false_iff.mpr isDigits.nonempty
    rw [marked]
    simp only [signedExponent, takeWhile_run isDigits.digits noMoreDigits,
      dropWhile_run isDigits.digits noMoreDigits, moreDigits]
    simp [numberKind]

end Reading

/-- A number has no characters but digits, points, signs and exponent marks. -/
theorem IsNumberOf.chars {kind : TokenKind} {chars : List Char} (isNumber : IsNumberOf kind chars) :
    ∀ char ∈ chars, char.isDigit = true ∨ char ∈ ['-', '.', 'e', 'E', '+'] := by
  rcases isNumber with ⟨minus, whole, decimals, exponent, isNumber, rfl, -⟩
  intro char char_mem
  simp only [List.mem_append] at char_mem
  rcases char_mem with ((inMinus | inWhole) | inDecimals) | inExponent
  · rcases isNumber.minus with rfl | rfl
    · simp at inMinus
    · exact .inr (by simp_all)
  · exact .inl (isNumber.whole.digits char inWhole)
  · rcases isNumber.decimals with rfl | ⟨digits, isDigits, rfl⟩
    · simp at inDecimals
    · rcases List.mem_cons.mp inDecimals with rfl | inDigits
      · exact .inr (by decide)
      · exact .inl (isDigits.digits char inDigits)
  · rcases isNumber.exponent with rfl | ⟨mark, plusMinus, digits, letter, signed, isDigits, rfl⟩
    · simp at inExponent
    · simp only [List.mem_cons, List.mem_append] at inExponent
      rcases inExponent with rfl | inSign | inDigits
      · rcases letter with rfl | rfl <;> exact .inr (by decide)
      · rcases signed with rfl | rfl | rfl <;> exact .inr (by simp_all)
      · exact .inl (isDigits.digits char inDigits)

end Scan

end WiredGraph
