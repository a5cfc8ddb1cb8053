import WiredGraph.Decimal.Shortest
import WiredGraph.Json.Basic
import WiredGraph.Text.Cut

/-!
# Writing JSON

A value is written either without any blank, or with one item on a line and two blanks of
indentation for each level. Strings escape quotation marks, backslashes and control characters and
leave everything else as it is.
-/

namespace WiredGraph

namespace Json

/-- The lower-case hexadecimal digit of a number below sixteen. -/
def lowerHexDigit (value : Nat) : Char :=
  Char.ofNat (if value < 10 then '0'.toNat + value else 'a'.toNat + (value - 10))

/-- A character as it is written in a string. -/
def escapeChar (char : Char) : List Char :=
  if char = '"' then ['\\', '"']
  else if char = '\\' then ['\\', '\\']
  else if char = '\x08' then ['\\', 'b']
  else if char = '\t' then ['\\', 't']
  else if char = '\n' then ['\\', 'n']
  else if char = '\x0c' then ['\\', 'f']
  else if char = '\r' then ['\\', 'r']
  else if char.toNat < 0x20 then
    ['\\', 'u', '0', '0', lowerHexDigit (char.toNat / 16), lowerHexDigit (char.toNat % 16)]
  else [char]

/-- A string as it is written. -/
def writeString (text : String) : List Char := '"' :: text.toList.flatMap escapeChar ++ ['"']

/-- An integer as it is written. -/
def writeInt (value : Int) : List Char :=
  (if value < 0 then ['-'] else []) ++ Nat.toDigits 10 value.natAbs

/-- A number as it is written. -/
def writeNumber : JsonNumber → List Char
  | .integer value _ => writeInt value
  | .floating value => value.text

/-- A truth value as it is written. -/
def writeBool (value : Bool) : List Char := if value then "true".toList else "false".toList

mutual

/-- A value without blanks. -/
def compact : Json → List Char
  | .null => "null".toList
  | .bool value => writeBool value
  | .number value => writeNumber value
  | .string value => writeString value
  | .array items => '[' :: Text.join [','] (compactItems items) ++ [']']
  | .object members => '{' :: Text.join [','] (compactMembers members) ++ ['}']

/-- Values without blanks. -/
def compactItems : List Json → List (List Char)
  | [] => []
  | item :: rest => item.compact :: compactItems rest

/-- Members without blanks. -/
def compactMembers : List (String × Json) → List (List Char)
  | [] => []
  | (key, value) :: rest => (writeString key ++ ':' :: value.compact) :: compactMembers rest

end

/-- A new line at a level of indentation. -/
def newline (level : Nat) : List Char := '\n' :: List.replicate (2 * level) ' '

/-- Written items between brackets, each on a line of its own one level further in. -/
def spread (level : Nat) (openMark close : Char) : List (List Char) → List Char
  | [] => [openMark, close]
  | items =>
      openMark :: Text.join [','] (items.map (newline (level + 1) ++ ·)) ++ newline level ++ [close]

mutual

/-- A value on lines of its own, at a level of indentation. -/
def prettyAt (level : Nat) : Json → List Char
  | .null => "null".toList
  | .bool value => writeBool value
  | .number value => writeNumber value
  | .string value => writeString value
  | .array items => spread level '[' ']' (prettyItems (level + 1) items)
  | .object members => spread level '{' '}' (prettyMembers (level + 1) members)

/-- Values on lines of their own. -/
def prettyItems (level : Nat) : List Json → List (List Char)
  | [] => []
  | item :: rest => item.prettyAt level :: prettyItems level rest

/-- Members on lines of their own. -/
def prettyMembers (level : Nat) : List (String × Json) → List (List Char)
  | [] => []
  | (key, value) :: rest =>
      (writeString key ++ ':' :: ' ' :: value.prettyAt level) :: prettyMembers level rest

end

/-- A value without blanks. -/
def compactText (value : Json) : String := String.ofList value.compact

/-- A value with one item on a line. -/
def prettyText (value : Json) : String := String.ofList (value.prettyAt 0)

end Json

end WiredGraph
