import WiredGraph.Decimal.Binary64

/-!
# Number literals

Documents keep numbers with the digits they were written with. This module gives their values: an
integer literal is an optional minus and digits; a floating point literal may have further digits
after a point and a power of ten after an exponent mark, and is rounded once.
-/

namespace WiredGraph

namespace NumberLiteral

/-- The number that digits stand for. -/
def ofDigits (digits : List Char) : Nat :=
  digits.foldl (fun number digit => 10 * number + (digit.toNat - '0'.toNat)) 0

/-- The number that a text of digits stands for. -/
def nat? (text : List Char) : Option Nat :=
  if text ≠ [] ∧ text.all Char.isDigit then some (ofDigits text) else none

/-- The value of digits after an optional minus. -/
def integer? : List Char → Option Int
  | '-' :: digits => (nat? digits).map fun value => -value
  | digits => (nat? digits).map fun value => value

/-- The value of digits after an optional sign. -/
def exponent? : List Char → Option Int
  | '+' :: digits => (nat? digits).map fun value => value
  | text => integer? text

/-- The power of ten at the end of a literal, which may be left out. -/
def scale? : List Char → Option Int
  | [] => some 0
  | mark :: rest => if mark = 'e' ∨ mark = 'E' then exponent? rest else none

/-- The digits after a point, if there is one, and what follows them. -/
def decimals : List Char → List Char × List Char
  | '.' :: rest => (rest.takeWhile Char.isDigit, rest.dropWhile Char.isDigit)
  | text => ([], text)

/-- The value of a floating point literal without a sign. -/
def magnitude? (negative : Bool) (text : List Char) : Option ExtendedBinary64 := do
  let whole ← some (text.takeWhile Char.isDigit)
  let (places, rest) ← some (decimals (text.dropWhile Char.isDigit))
  let digits ← nat? (whole ++ places)
  let scale ← scale? rest
  some (.ofDecimal negative digits (scale - places.length))

/-- The value of a floating point literal. -/
def float? : List Char → Option ExtendedBinary64
  | '-' :: text => magnitude? true text
  | text => magnitude? false text

end NumberLiteral

end WiredGraph
