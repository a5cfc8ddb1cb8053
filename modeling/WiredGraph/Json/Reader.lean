import WiredGraph.Json.Basic
import WiredGraph.Literal.Quoted
import WiredGraph.Text.Cut

/-!
# Reading JSON

A text is one JSON value with blanks around it. Lists and objects nest at most 127 deep. An integer
that fits into 64 bits stays an integer; minus zero and all other numbers become floating point
numbers, and one that is too large is refused.

Floating point numbers are read quickly rather than exactly: the digits are collected in a 64-bit
word, digits that no longer fit only count as a power of ten, and the rounded word is multiplied or
divided by a rounded power of ten. The result is the nearest number when the word is below
`2 ^ 53` and the power of ten is at most 22, and next to the nearest at worst a few places further
off.
-/

namespace WiredGraph

/-- A step of reading a text: it takes characters off the front and yields a value, or fails. -/
abbrev JsonReading (Item : Type) := StateT (List Char) Option Item

namespace JsonReading

variable {Item : Type}

/-- The nesting that is allowed. -/
def depthLimit : Nat := 127

/-- The largest word that digits are collected in. -/
def largestWord : Nat := 0xffffffffffffffff

/-- Passes blanks. -/
def blanks : JsonReading Unit := fun text =>
  some ((), text.dropWhile fun char => char == ' ' || char == '\n' || char == '\t' || char == '\r')

/-- The character in view. -/
def view : JsonReading (Option Char) := fun text => some (text.head?, text)

/-- Passes characters that must be next. -/
def token (expected : List Char) : JsonReading Unit := fun text =>
  (Text.dropStart? expected text).map ((), ·)

/-- Passes a character if it is next, and tells whether it was. -/
def eat (wanted : Char) : JsonReading Bool := fun text =>
  match text with
  | char :: rest => some (if char = wanted then (true, rest) else (false, char :: rest))
  | [] => some (false, [])

/-- Passes one out of several characters if it is next, and tells whether it was. -/
def eatAny (wanted : List Char) : JsonReading Bool := fun text =>
  match text with
  | char :: rest => some (if char ∈ wanted then (true, rest) else (false, char :: rest))
  | [] => some (false, [])

/-- Reads with a bound that is the number of characters ahead. -/
def bounded (read : Nat → JsonReading Item) : JsonReading Item := fun text =>
  read text.length text

/-- The digits in view. -/
def digits : JsonReading (List Char) := fun text =>
  some (text.takeWhile Char.isDigit, text.dropWhile Char.isDigit)

/-- Digits collected in a word: the word, and the digits from the first one on that does not fit. -/
def collect (word : Nat) : List Char → Nat × List Char
  | [] => (word, [])
  | digit :: rest =>
      let grown := word * 10 + (digit.toNat - '0'.toNat)
      if grown ≤ largestWord then collect grown rest else (word, digit :: rest)

/-- A power of ten as a floating point number. -/
def powerOfTen? (exponent : Nat) : Option Binary64 := Binary64.ofDecimal? false 1 exponent

/-- A number divided by a power of ten, by steps of at most 308 places. -/
def scaleDown? (number : Binary64) (places : Nat) : Option Binary64 :=
  if places ≤ 308 then
    (powerOfTen? places).bind number.div?
  else if number.isZero then
    some number
  else
    ((powerOfTen? 308).bind number.div?).bind fun reduced => scaleDown? reduced (places - 308)
termination_by places

/-- A word times a power of ten, unless it is too large. -/
def scale? (word : Nat) (exponent : Int) : Option Binary64 := do
  let number ← Binary64.ofRatio? false word 1
  if exponent < 0 then
    scaleDown? number exponent.natAbs
  else if exponent ≤ 308 then
    (powerOfTen? exponent.natAbs).bind number.mul?
  else if number.isZero then
    some number
  else
    none

/-- The largest exponent that is read as a number. -/
def largestExponent : Nat := 0x7fffffff

/-- A word times a power of ten that is itself given by a sum, whose parts are 32-bit words. An
exponent that does not fit makes the number too large or zero. -/
def scaleWritten? (word : Nat) (shift : Int) (negative : Bool) (exponent : Nat) :
    Option Binary64 :=
  if largestExponent < exponent then
    if word ≠ 0 ∧ !negative then none else some (.zero false)
  else
    let sum := if negative then shift - exponent else shift + exponent
    scale? word (max (-0x80000000) (min 0x7fffffff sum))

/-- The number with a sign. -/
def signed (negative : Bool) (number : Binary64) : Binary64 := { number with negative := negative }

/-- The floating point number whose word and shift have been read, with the exponent that may
follow. -/
def floating (negative : Bool) (word : Nat) (shift : Int) : JsonReading Json := do
  let number ←
    if ← eatAny ['e', 'E'] then
      let minus ← eat '-'
      unless minus do discard (eat '+')
      let exponent ← digits
      if exponent.isEmpty then failure
      scaleWritten? word shift minus (exponent.foldl (fun sum digit =>
        sum * 10 + (digit.toNat - '0'.toNat)) 0)
    else
      scale? word shift
  return .number (.floating (signed negative number))

/-- Reads a number. -/
def number : JsonReading Json := do
  let negative ← eat '-'
  let whole ← digits
  if whole.isEmpty ∨ (whole.head? = some '0' ∧ 1 < whole.length) then failure
  let (word, overflow) := collect 0 whole
  let shift : Int := overflow.length
  if ← eat '.' then
    let decimals ← digits
    if decimals.isEmpty then failure
    let (longer, ignored) := collect word decimals
    floating negative longer (shift - (decimals.length - ignored.length : Nat))
  else if overflow ≠ [] ∨ (← view) = some 'e' ∨ (← view) = some 'E' then
    floating negative word shift
  else if negative then
    match word, Json.ofInt? (-word) with
    | _ + 1, some integer => return integer
    | _, _ => floating negative word 0
  else
    match Json.ofInt? word with
    | some integer => return integer
    | none => floating negative word 0

/-- Reads four hexadecimal digits. -/
def hexUnit : JsonReading Nat := fun text =>
  match text with
  | first :: second :: third :: fourth :: rest =>
      (Quoted.hexFrom 0 [first, second, third, fourth]).map (·, rest)
  | _ => none

/-- Reads the character that an escape by number stands for; characters outside the basic plane are
written as two surrogates. -/
def escapedUnit : JsonReading Char := do
  let unit ← hexUnit
  if 0xd800 ≤ unit ∧ unit < 0xdc00 then
    token ['\\', 'u']
    let low ← hexUnit
    if 0xdc00 ≤ low ∧ low < 0xe000 then
      Quoted.charOfCode? (0x10000 + (unit - 0xd800) * 0x400 + (low - 0xdc00))
    else
      failure
  else
    Quoted.charOfCode? unit

/-- Reads the characters of a string up to its closing mark. -/
def stringUpTo : Nat → JsonReading (List Char)
  | 0 => failure
  | bound + 1 => fun text =>
      match text with
      | '"' :: rest => some ([], rest)
      | '\\' :: 'u' :: rest => do
          let (char, rest) ← escapedUnit rest
          let (chars, rest) ← stringUpTo bound rest
          some (char :: chars, rest)
      | '\\' :: letter :: rest => do
          let char ← Quoted.unescapeLetter? letter
          let (chars, rest) ← stringUpTo bound rest
          some (char :: chars, rest)
      | char :: rest =>
          if char = '\\' ∨ char.toNat < 0x20 then none
          else do
            let (chars, rest) ← stringUpTo bound rest
            some (char :: chars, rest)
      | [] => none

/-- Reads a string. -/
def string : JsonReading String := do
  token ['"']
  let chars ← bounded stringUpTo
  return String.ofList chars

/-- Reads the items after the first one, each after a comma, up to the closing mark. -/
def restUpTo (close : Char) (item : JsonReading Item) : Nat → JsonReading (List Item)
  | 0 => failure
  | bound + 1 => do
      blanks
      if ← eat close then
        return []
      else
        token [',']
        blanks
        let next ← item
        let rest ← restUpTo close item bound
        return next :: rest

/-- Reads items with commas between them, up to the closing mark. -/
def items (close : Char) (item : JsonReading Item) : JsonReading (List Item) := do
  blanks
  if ← eat close then
    return []
  else
    let first ← item
    let rest ← bounded (restUpTo close item)
    return first :: rest

/-- Reads a member of an object. -/
def member (value : JsonReading Json) : JsonReading (String × Json) := do
  let key ← string
  blanks
  token [':']
  blanks
  let value ← value
  return (key, value)

/-- Reads a value that starts here, given how to read lists and objects. -/
def valueWith (array object : JsonReading Json) : JsonReading Json := do
  match ← view with
  | some 'n' =>
      token "null".toList
      return .null
  | some 't' =>
      token "true".toList
      return .bool true
  | some 'f' =>
      token "false".toList
      return .bool false
  | some '"' => return .string (← string)
  | some '[' => array
  | some '{' => object
  | _ => number

/-- Reads a value that starts here and nests at most so deep. -/
def valueIn : Nat → JsonReading Json
  | 0 => valueWith failure failure
  | depth + 1 =>
      valueWith
        (do
          token ['[']
          return .array (← items ']' (valueIn depth)))
        (do
          token ['{']
          return .object (← items '}' (member (valueIn depth))))

end JsonReading

namespace Json

/-- The value that a text is. -/
def parse? (text : List Char) : Option Json := do
  let read : JsonReading Json := do
    JsonReading.blanks
    let value ← JsonReading.valueIn JsonReading.depthLimit
    JsonReading.blanks
    return value
  let (value, rest) ← read text
  if rest.isEmpty then some value else none

/-- The value that a text is. -/
def ofText? (text : String) : Option Json := parse? text.toList

end Json

end WiredGraph
