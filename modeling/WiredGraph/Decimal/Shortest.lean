import WiredGraph.Decimal.Binary64

/-!
# Shortest decimals

A floating point number is written with the fewest decimal digits that are read back as the same
number, and with those nearest to it among the shortest. For each count of digits there are two
candidates, the multiples of a power of ten just below and just above the number; the first count
at which a candidate reads back decides. Seventeen digits are always enough.
-/

namespace WiredGraph

/-- A positive decimal: its digits, of which the last is not zero, and the power of ten of the
first one. -/
structure Decimal where
  digits : List Char
  exponent : Int
deriving DecidableEq, Repr

namespace Decimal

/-- The decimal of a positive whole number of `10 ^ grid`. -/
def ofNat (value : Nat) (grid : Int) : Decimal :=
  let digits := Nat.toDigits 10 value
  ⟨(digits.reverse.dropWhile (· == '0')).reverse, grid + digits.length - 1⟩

/-- The power of ten of the first digit of a positive number. -/
def leadingExponent (number : Binary64) : Int :=
  let enlarged := number.units * Nat.pow 10 400 / Binary64.unitsPerOne
  ((Nat.toDigits 10 enlarged).length : Int) - 401

/-- Whether a whole number of `10 ^ grid` is read back as a number. -/
def readsBack (number : Binary64) (grid : Int) (value : Nat) : Bool :=
  Binary64.ofDecimal? number.negative value grid == some number

/-- The whole number of `10 ^ grid` next to a number that is read back as it, if there is one; of
two the nearer, and at equal distance the even one. -/
def onGrid? (number : Binary64) (grid : Int) : Option Nat :=
  let numerator := number.units * Nat.pow 10 (-grid).toNat
  let denominator := Binary64.unitsPerOne * Nat.pow 10 grid.toNat
  let below := numerator / denominator
  let nearest := Binary64.roundDiv numerator denominator
  let other := if nearest = below then below + 1 else below
  [nearest, other].find? (readsBack number grid)

/-- All digits of a positive number. -/
def exact (number : Binary64) : Decimal :=
  ofNat (number.units * Nat.pow 10 1074 / Binary64.unitsPerOne) (-1074)

/-- The decimal on the first of so many grids, each finer than the one before, that has one which
is read back; the exact decimal when none of them has. -/
def search (number : Binary64) : (attempts : Nat) → (grid : Int) → Decimal
  | 0, _ => exact number
  | attempts + 1, grid =>
      match onGrid? number grid with
      | some value => ofNat value grid
      | none => search number attempts (grid - 1)

/-- The shortest decimal of a positive number. -/
def shortest (number : Binary64) : Decimal := search number 17 (leadingExponent number)

/-- How a decimal is laid out as text. -/
structure Style where
  /-- The least power of ten of the first digit that is written with leading zeros. -/
  least : Int
  /-- The least power of ten of the first digit that needs an exponent. -/
  bound : Int

/-- Plain from `0.00001` on and below ten to the sixteenth, with an exponent elsewhere. -/
def artifactStyle : Style := ⟨-5, 16⟩

/-- A decimal as text. Plain numbers always have a point with a digit on both sides; exponents
always have a sign. -/
def text (style : Style) (decimal : Decimal) : List Char :=
  let ⟨digits, exponent⟩ := decimal
  if style.least ≤ exponent ∧ exponent < style.bound then
    if exponent < 0 then
      '0' :: '.' :: List.replicate (-exponent - 1).toNat '0' ++ digits
    else
      let width := exponent.toNat + 1
      let whole := digits.take width ++ List.replicate (width - digits.length) '0'
      let decimals := digits.drop width
      whole ++ '.' :: if decimals.isEmpty then ['0'] else decimals
  else
    let decimals := digits.drop 1
    digits.take 1 ++ (if decimals.isEmpty then [] else '.' :: decimals) ++
      'e' :: (if exponent < 0 then '-' else '+') :: Nat.toDigits 10 exponent.natAbs

end Decimal

/-- A number as text. -/
def Binary64.text (number : Binary64) : List Char :=
  (if number.negative then ['-'] else []) ++
    if number.isZero then ['0', '.', '0'] else (Decimal.shortest number).text Decimal.artifactStyle

end WiredGraph
