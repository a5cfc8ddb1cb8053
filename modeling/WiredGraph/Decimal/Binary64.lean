/-!
# Floating point numbers

A floating point number is kept as an exact fraction: a significand below `2 ^ 53` times a power of
two. Rounding is to the nearest such number, and a value halfway between two goes to the one with
the even significand. A value that is too large has no rounding; where a number is wanted all the
same, it is the infinity of its sign.
-/

namespace WiredGraph

/-- A finite floating point number of 64 bits. Its size is `significand * 2 ^ scale` in units of
`2 ^ -1074`, the smallest positive one. -/
structure Binary64 where
  negative : Bool
  significand : Nat
  scale : Nat
  /-- The significand has at most 53 bits. -/
  significand_lt : significand < 0x20000000000000
  scale_le : scale ≤ 2045
  /-- The significand uses all its bits unless the number is among the smallest. -/
  normal : 0x10000000000000 ≤ significand ∨ scale = 0
deriving DecidableEq, Repr

namespace Binary64

/-- The number of the smallest units that make up one. -/
def unitsPerOne : Nat := Nat.pow 2 1074

/-- Zero, which has a sign like any other number. -/
def zero (negative : Bool) : Binary64 :=
  ⟨negative, 0, 0, by decide, by decide, .inr rfl⟩

/-- Whether the number is zero. -/
def isZero (number : Binary64) : Bool := number.significand == 0

/-- The size in the smallest units. -/
def units (number : Binary64) : Nat := number.significand * Nat.pow 2 number.scale

/-- The number with these parts, when they are in range. -/
def ofParts? (negative : Bool) (significand scale : Nat) : Option Binary64 :=
  if valid : significand < 0x20000000000000 ∧ scale ≤ 2045 ∧
      (0x10000000000000 ≤ significand ∨ scale = 0) then
    some ⟨negative, significand, scale, valid.1, valid.2.1, valid.2.2⟩
  else
    none

/-- A fraction rounded to a whole number; halves go to the even neighbour. -/
def roundDiv (numerator denominator : Nat) : Nat :=
  let quotient := numerator / denominator
  let twice := 2 * (numerator % denominator)
  if denominator < twice ∨ (denominator = twice ∧ quotient % 2 = 1) then quotient + 1
  else quotient

/-- The number nearest to a fraction, unless the fraction is too large. -/
def ofRatio? (negative : Bool) (numerator denominator : Nat) : Option Binary64 :=
  let numerator := numerator * unitsPerOne
  let scale := Nat.log2 (numerator / denominator) - 52
  let rounded := roundDiv numerator (denominator * Nat.pow 2 scale)
  if rounded = 0x20000000000000 then ofParts? negative 0x10000000000000 (scale + 1)
  else ofParts? negative rounded scale

/-- The product of two numbers, rounded, unless it is too large. -/
def mul? (left right : Binary64) : Option Binary64 :=
  ofRatio? (left.negative != right.negative) (left.units * right.units) (unitsPerOne * unitsPerOne)

/-- The quotient of two numbers, rounded, unless it is too large. -/
def div? (left right : Binary64) : Option Binary64 :=
  ofRatio? (left.negative != right.negative) left.units right.units

/-- The number nearest to `digits * 10 ^ exponent`, unless that is too large. Powers of ten far
outside the range are not computed: from `10 ^ 309` on everything is too large, and what is below
`10 ^ -324` is nearest to zero. -/
def ofDecimal? (negative : Bool) (digits : Nat) (exponent : Int) : Option Binary64 :=
  if digits = 0 then
    some (zero negative)
  else
    let magnitude := (Nat.toDigits 10 digits).length + exponent
    if 310 ≤ magnitude then none
    else if magnitude ≤ -324 then some (zero negative)
    else if 0 ≤ exponent then ofRatio? negative (digits * Nat.pow 10 exponent.toNat) 1
    else ofRatio? negative digits (Nat.pow 10 (-exponent).toNat)

end Binary64

/-- A finite number, or what stands for one that is too large. -/
inductive ExtendedBinary64 where
  | finite (number : Binary64)
  | infinite (negative : Bool)
deriving DecidableEq, Repr

namespace ExtendedBinary64

/-- The number nearest to `digits * 10 ^ exponent`. -/
def ofDecimal (negative : Bool) (digits : Nat) (exponent : Int) : ExtendedBinary64 :=
  match Binary64.ofDecimal? negative digits exponent with
  | some number => .finite number
  | none => .infinite negative

/-- The number, if it is finite. -/
def finite? : ExtendedBinary64 → Option Binary64
  | .finite number => some number
  | .infinite _ => none

end ExtendedBinary64

end WiredGraph
