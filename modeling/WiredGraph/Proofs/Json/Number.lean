import Mathlib.Data.List.TakeWhile
import WiredGraph.Json.Reader
import WiredGraph.Json.Writer

/-!
# Numbers are read back

An integer that is written is read back as itself. For a number that stands somewhere in a text it
is enough to know how it is read when nothing follows: where no character goes on with a number, it
is read in the same way and the rest of the text is left.
-/

namespace WiredGraph

namespace JsonReading

variable {Item Whole : Type} {text rest more : List Char}

/-- What is read after a first reading is read where that one ended. -/
theorem bind_of_eq {read : JsonReading Item} {next : Item → JsonReading Whole} {item : Item}
    (found : read text = some (item, rest)) : (read >>= next) text = next item rest := by
  change (read text).bind (fun result => next result.1 result.2) = _
  rw [found]
  rfl

/-- Nothing is read where a first reading fails. -/
theorem bind_of_eq_none {read : JsonReading Item} {next : Item → JsonReading Whole}
    (refused : read text = none) : (read >>= next) text = none := by
  change (read text).bind (fun result => next result.1 result.2) = _
  rw [refused]
  rfl

section Parts

/-- What digits without a point and without an exponent are read as. -/
def wholeNumber (negative : Bool) (word : Nat) : JsonReading Json :=
  if negative then
    match word, Json.ofInt? (-word) with
    | _ + 1, some integer => return integer
    | _, _ => floating negative word 0
  else
    match Json.ofInt? word with
    | some integer => return integer
    | none => floating negative word 0

/-- Reads the digits of an exponent after its sign. -/
def afterSign (negative : Bool) (word : Nat) (shift : Int) (minus : Bool) :
    JsonReading Json := do
  let exponent ← digits
  if exponent.isEmpty then failure
  let number ← scaleWritten? word shift minus (exponent.foldl (fun sum digit =>
    sum * 10 + (digit.toNat - '0'.toNat)) 0)
  return .number (.floating (signed negative number))

/-- Reads a number after the digits in front of its point. -/
def afterWhole (negative : Bool) (whole : List Char) : JsonReading Json := do
  let (word, overflow) := collect 0 whole
  let shift : Int := overflow.length
  if ← eat '.' then
    let decimals ← digits
    if decimals.isEmpty then failure
    let (longer, ignored) := collect word decimals
    floating negative longer (shift - (decimals.length - ignored.length : Nat))
  else if overflow ≠ [] ∨ (← view) = some 'e' ∨ (← view) = some 'E' then
    floating negative word shift
  else
    wholeNumber negative word

theorem number_eq :
    number = (do
      let negative ← eat '-'
      let whole ← digits
      if whole.isEmpty ∨ (whole.head? = some '0' ∧ 1 < whole.length) then failure
      afterWhole negative whole) := rfl

end Parts

section Following

/-- A reading goes the same way if more text follows, and leaves that text. -/
def Local (more : List Char) (read : JsonReading Item) : Prop :=
  ∀ text item rest, read text = some (item, rest) → read (text ++ more) = some (item, rest ++ more)

/-- No character at the front of a text goes on with a number. -/
def EndsNumber (more : List Char) : Prop :=
  ∀ first ∈ more.head?, first.isDigit = false ∧ first ∉ ['.', 'e', 'E', '+', '-']

theorem local_pure (item : Item) : Local more (pure item) := by
  rintro text _ _ ⟨⟩
  rfl

theorem local_failure : Local more (failure : JsonReading Item) := nofun

theorem local_lift (item : Option Item) : Local more (liftM item) := by
  cases item with
  | none => exact nofun
  | some item => exact local_pure item

theorem local_bind {read : JsonReading Item} {next : Item → JsonReading Whole}
    (first : Local more read) (second : ∀ item, Local more (next item)) :
    Local more (read >>= next) := by
  intro text whole rest found
  change (read text).bind (fun result => next result.1 result.2) = _ at found
  cases firstRead : read text with
  | none =>
      rw [firstRead] at found
      cases found
  | some result =>
      rw [firstRead] at found
      rw [bind_of_eq (first text result.1 result.2 firstRead)]
      exact second result.1 result.2 whole rest found

theorem local_discard {read : JsonReading Item} (first : Local more read) :
    Local more (discard read) :=
  local_bind first fun _ => local_pure ()

theorem local_ite {condition : Prop} [Decidable condition] {first second : JsonReading Item}
    (whenTrue : Local more first) (whenFalse : Local more second) :
    Local more (if condition then first else second) := by
  split
  · exact whenTrue
  · exact whenFalse

theorem local_eat {wanted : Char} (other : more.head? ≠ some wanted) :
    Local more (eat wanted) := by
  intro text found rest read
  cases text with
  | cons char text =>
      simp only [eat, Option.some.injEq] at read
      simp only [List.cons_append, eat, Option.some.injEq]
      split at read
      · next same =>
          cases read
          rw [if_pos same]
      · next differs =>
          cases read
          rw [if_neg differs]
          rfl
  | nil =>
      cases read
      cases more with
      | nil => rfl
      | cons first more =>
          have differs : first ≠ wanted := by simpa using other
          simp [eat, differs]

theorem local_eatAny {wanted : List Char} (other : ∀ first ∈ more.head?, first ∉ wanted) :
    Local more (eatAny wanted) := by
  intro text found rest read
  cases text with
  | cons char text =>
      simp only [eatAny, Option.some.injEq] at read
      simp only [List.cons_append, eatAny, Option.some.injEq]
      split at read
      · next same =>
          cases read
          rw [if_pos same]
      · next differs =>
          cases read
          rw [if_neg differs]
          rfl
  | nil =>
      cases read
      cases more with
      | nil => rfl
      | cons first more => simp [eatAny, other first rfl]

theorem local_digits (ends : EndsNumber more) : Local more digits := by
  rintro text _ _ ⟨⟩
  have stops : ∀ first ∈ more.head?, first.isDigit = false := fun first first_mem =>
    (ends first first_mem).1
  induction text with
  | nil =>
      cases more with
      | nil => rfl
      | cons first more => simp [digits, stops first rfl]
  | cons char text ih =>
      by_cases isDigit : char.isDigit = true
      · simp only [digits, Option.some.injEq, Prod.mk.injEq] at ih
        simp [digits, isDigit, ih.1, ih.2]
      · simp [digits, isDigit]

/-- Looking at the next character is no matter if the same follows from what is next later on. -/
theorem local_view {next : Option Char → JsonReading Item} (same : next none = next more.head?)
    (each : ∀ seen, Local more (next seen)) : Local more (view >>= next) := by
  intro text item rest found
  change next text.head? text = _ at found
  change next (text ++ more).head? (text ++ more) = _
  cases text with
  | cons char text => exact each (some char) (char :: text) item rest found
  | nil =>
      rw [List.nil_append, ← same]
      exact each none [] item rest found

variable (ends : EndsNumber more)

theorem EndsNumber.head_ne {more : List Char} (ends : EndsNumber more) {mark : Char}
    (isMark : mark ∈ ['.', 'e', 'E', '+', '-']) : more.head? ≠ some mark :=
  fun same => (ends mark same).2 isMark

include ends

theorem local_afterSign (negative : Bool) (word : Nat) (shift : Int) (minus : Bool) :
    Local more (afterSign negative word shift minus) := by
  refine local_bind (local_digits ends) fun exponent => local_ite ?_ ?_
  · exact local_bind local_failure fun _ => local_bind (local_lift _) fun _ => local_pure _
  · exact local_bind (local_lift _) fun _ => local_pure _

theorem local_floating (negative : Bool) (word : Nat) (shift : Int) :
    Local more (floating negative word shift) := by
  have noMark : ∀ first ∈ more.head?, first ∉ ['e', 'E'] := by
    intro first first_mem isMark
    exact (ends first first_mem).2 (by simp at isMark ⊢; grind)
  have exponent := local_afterSign ends negative word shift
  unfold floating
  refine local_bind (local_eatAny noMark) fun hasExponent => local_ite ?_ ?_
  · refine local_bind (local_eat (ends.head_ne (by simp))) fun minus => local_ite ?_ ?_
    · exact exponent minus
    · exact local_bind (local_discard (local_eat (ends.head_ne (by simp)))) fun _ => exponent minus
  · exact local_bind (local_lift _) fun _ => local_pure _

theorem local_wholeNumber (negative : Bool) (word : Nat) :
    Local more (wholeNumber negative word) := by
  apply local_ite
  · split
    · exact local_pure _
    · exact local_floating ends _ _ _
  · split
    · exact local_pure _
    · exact local_floating ends _ _ _

theorem local_afterWhole (negative : Bool) (whole : List Char) :
    Local more (afterWhole negative whole) := by
  refine local_bind (local_eat (ends.head_ne (by simp))) fun point => local_ite ?_ ?_
  · refine local_bind (local_digits ends) fun decimals => local_ite ?_ ?_
    · exact local_bind local_failure fun _ => local_floating ends _ _ _
    · exact local_floating ends _ _ _
  · refine local_view ?_ fun first => local_view ?_ fun second =>
      local_ite (local_floating ends _ _ _) (local_wholeNumber ends negative _)
    · simp [ends.head_ne (show 'e' ∈ _ by simp)]
    · simp [ends.head_ne (show 'E' ∈ _ by simp)]

/-- A number is read in the same way if nothing that follows goes on with it. -/
theorem local_number : Local more number := by
  rw [number_eq]
  refine local_bind (local_eat (ends.head_ne (by simp))) fun negative =>
    local_bind (local_digits ends) fun whole => local_ite ?_ ?_
  · exact local_bind local_failure fun _ => local_afterWhole ends negative whole
  · exact local_afterWhole ends negative whole

end Following

section Integers

open Json (writeInt)

/-- Only zero is written with a zero in front. -/
theorem eq_zero_of_head_toDigits {value : Nat}
    (zero : (Nat.toDigits 10 value).head? = some '0') : value = 0 := by
  have single : ∀ digit < 10, [Nat.digitChar digit].head? = some '0' → digit = 0 := by decide
  induction value using Nat.strongRecOn with
  | ind value ih =>
      rw [Nat.toDigits_eq_if (by decide)] at zero
      split at zero
      · next small => exact single value small zero
      · next large =>
          rw [List.head?_append, Option.or_eq_some_iff] at zero
          rcases zero with front | ⟨none, -⟩
          · have shorter := ih (value / 10) (by omega) front
            omega
          · exact absurd (List.head?_eq_none_iff.mp none) Nat.toDigits_ne_nil

/-- Digits are collected as long as the whole number fits. -/
theorem collect_of_fits {word : Nat} {digits : List Char}
    (fits : Nat.ofDigitChars 10 digits word ≤ largestWord) :
    collect word digits = (Nat.ofDigitChars 10 digits word, []) := by
  induction digits generalizing word with
  | nil => rfl
  | cons digit digits ih =>
      rw [Nat.ofDigitChars_cons, Nat.mul_comm] at fits ⊢
      have grown : word * 10 + (digit.toNat - '0'.toNat) ≤ largestWord := by
        rw [Nat.ofDigitChars_eq_ofDigitChars_zero] at fits
        have factor : 0 < 10 ^ digits.length := Nat.pow_pos (by decide)
        have larger := Nat.le_mul_of_pos_left (word * 10 + (digit.toNat - '0'.toNat)) factor
        omega
      rw [collect]
      simp only [grown, if_true]
      exact ih fits

theorem digits_toDigits (value : Nat) :
    digits (Nat.toDigits 10 value) = some (Nat.toDigits 10 value, []) := by
  have isDigit : ∀ char ∈ Nat.toDigits 10 value, char.isDigit = true :=
    fun _ => Nat.isDigit_of_mem_toDigits (by decide) (by decide)
  have taken : (Nat.toDigits 10 value).takeWhile Char.isDigit = Nat.toDigits 10 value :=
    List.takeWhile_eq_self_iff.mpr isDigit
  have left : (Nat.toDigits 10 value).dropWhile Char.isDigit = [] :=
    List.dropWhile_eq_nil_iff.mpr isDigit
  rw [digits, taken, left]

/-- An integer that fits is read by its sign and its size. -/
theorem number_toDigits {value : Nat} (fits : value ≤ largestWord) (negative : Bool) :
    number ((if negative then ['-'] else []) ++ Nat.toDigits 10 value) =
      wholeNumber negative value [] := by
  have sign : eat '-' ((if negative then ['-'] else []) ++ Nat.toDigits 10 value) =
      some (negative, Nat.toDigits 10 value) := by
    cases negative with
    | true => rfl
    | false =>
        rcases written : Nat.toDigits 10 value with - | ⟨first, others⟩
        · exact absurd written Nat.toDigits_ne_nil
        · have isDigit : first.isDigit = true :=
            Nat.isDigit_of_mem_toDigits (by decide) (by decide) (written ▸ List.mem_cons_self)
          have differs : first ≠ '-' := by
            rintro rfl
            exact absurd isDigit (by decide)
          simp [eat, differs]
  have allowed : ¬ ((Nat.toDigits 10 value).isEmpty = true ∨
      (Nat.toDigits 10 value).head? = some '0' ∧ 1 < (Nat.toDigits 10 value).length) := by
    rintro (empty | ⟨zero, long⟩)
    · exact Nat.toDigits_ne_nil (List.isEmpty_iff.mp empty)
    · rw [eq_zero_of_head_toDigits zero] at long
      exact absurd long (by decide)
  have collected : collect 0 (Nat.toDigits 10 value) = (value, []) := by
    rw [collect_of_fits]
    · rw [Nat.ofDigitChars_ten_toDigits]
    · rwa [Nat.ofDigitChars_ten_toDigits]
  rw [number_eq, bind_of_eq sign, bind_of_eq (digits_toDigits value), if_neg allowed, afterWhole,
    collected]
  rfl

theorem wholeNumber_of_ofInt? {word : Nat} {integer : Json}
    (isInteger : Json.ofInt? word = some integer) :
    wholeNumber false word text = some (integer, text) := by
  unfold wholeNumber
  simp only [Bool.false_eq_true, if_false, isInteger]
  rfl

theorem wholeNumber_of_ofInt?_neg {word : Nat} {integer : Json}
    (isInteger : Json.ofInt? (-(word + 1 : Nat)) = some integer) :
    wholeNumber true (word + 1) text = some (integer, text) := by
  unfold wholeNumber
  simp only [if_true, isInteger]
  rfl

/-- An integer that is written is read back. -/
theorem number_writeInt (value : Int)
    (fits : -0x8000000000000000 ≤ value ∧ value ≤ 0xffffffffffffffff) :
    number (writeInt value) = some (.number (.integer value fits), []) := by
  have isInteger : Json.ofInt? value = some (.number (.integer value fits)) := by
    rw [Json.ofInt?, dif_pos fits]
  have small : value.natAbs ≤ largestWord := by
    rw [largestWord]
    omega
  by_cases negative : value < 0
  · have whole := number_toDigits small true
    rw [if_pos rfl] at whole
    rw [writeInt, if_pos negative, whole]
    rcases magnitude : value.natAbs with - | rest
    · omega
    · apply wholeNumber_of_ofInt?_neg
      rw [← isInteger]
      congr 1
      omega
  · have whole := number_toDigits small false
    rw [if_neg Bool.false_ne_true] at whole
    rw [writeInt, if_neg negative, whole]
    apply wholeNumber_of_ofInt?
    rw [← isInteger]
    congr 1
    omega

end Integers

end JsonReading

end WiredGraph
