/-!
# Quoted text

Inside quotation marks a backslash starts an escape: a letter for a character that is hard to
write, or `u` and up to four hexadecimal digits for a character by its number. `decode` reads the
text between the marks and refuses anything else after a backslash; `encode` writes a text so that
it is read back.
-/

namespace WiredGraph

namespace Quoted

/-- The value of a hexadecimal digit. -/
def hexDigit? (char : Char) : Option Nat :=
  if '0' ≤ char ∧ char ≤ '9' then some (char.toNat - '0'.toNat)
  else if 'a' ≤ char ∧ char ≤ 'f' then some (char.toNat - 'a'.toNat + 10)
  else if 'A' ≤ char ∧ char ≤ 'F' then some (char.toNat - 'A'.toNat + 10)
  else none

/-- The number that hexadecimal digits write, going on from a number already read. -/
def hexFrom (value : Nat) : List Char → Option Nat
  | [] => some value
  | char :: rest => do
      let digit ← hexDigit? char
      hexFrom (value * 16 + digit) rest

/-- The number that at least one hexadecimal digit writes; a plus sign may stand before. -/
def hexNumber? : List Char → Option Nat
  | [] => none
  | ['+'] => none
  | '+' :: digits => hexFrom 0 digits
  | digits => hexFrom 0 digits

/-- The character with a number, unless the number is no character's. -/
def charOfCode? (code : Nat) : Option Char :=
  if code.isValidChar then some (Char.ofNat code) else none

/-- The character that an escape letter stands for. -/
def unescapeLetter? : Char → Option Char
  | '"' => some '"'
  | '\\' => some '\\'
  | '/' => some '/'
  | 'b' => some '\x08'
  | 'f' => some '\x0c'
  | 'n' => some '\n'
  | 'r' => some '\r'
  | 't' => some '\t'
  | _ => none

/-- The text that the characters between two quotation marks stand for. -/
def decode : List Char → Option (List Char)
  | [] => some []
  | ['\\'] => none
  | '\\' :: 'u' :: rest => do
      let code ← hexNumber? (rest.take 4)
      let char ← charOfCode? code
      let decoded ← decode (rest.drop 4)
      some (char :: decoded)
  | '\\' :: letter :: rest => do
      let char ← unescapeLetter? letter
      let decoded ← decode rest
      some (char :: decoded)
  | char :: rest => do
      let decoded ← decode rest
      some (char :: decoded)
termination_by text => text.length
decreasing_by all_goals simp_wf; try omega

/-- The text that a string token stands for, quotation marks included. -/
def decodeToken? : List Char → Option (List Char)
  | '"' :: afterMark =>
      if afterMark.getLast? = some '"' then decode afterMark.dropLast else none
  | _ => none

/-- The upper-case hexadecimal digit of a number below sixteen. -/
def upperHexDigit (value : Nat) : Char :=
  Char.ofNat (if value < 10 then '0'.toNat + value else 'A'.toNat + (value - 10))

/-- A character as it is written between quotation marks. -/
def encodeChar (char : Char) : List Char :=
  if char = '"' then ['\\', '"']
  else if char = '\\' then ['\\', '\\']
  else if char = '\n' then ['\\', 'n']
  else if char = '\r' then ['\\', 'r']
  else if char = '\t' then ['\\', 't']
  else if char = '\x08' then ['\\', 'b']
  else if char = '\x0c' then ['\\', 'f']
  else if char.toNat < 0x20 ∨ char.toNat = 0x7f then
    ['\\', 'u', '0', '0', upperHexDigit (char.toNat / 16), upperHexDigit (char.toNat % 16)]
  else [char]

/-- A text as it is written, quotation marks included. -/
def encode (text : List Char) : List Char := '"' :: text.flatMap encodeChar ++ ['"']

end Quoted

end WiredGraph
