/-!
# Blanks

Blanks are the characters with the Unicode property White_Space. Names and references are read
without the blanks around them, and a line of blanks only counts as empty.
-/

namespace WiredGraph

namespace Text

/-- Whether a character has the property White_Space. -/
def isBlank (char : Char) : Bool :=
  let code := char.toNat
  (0x9 ≤ code && code ≤ 0xd) || code == 0x20 || code == 0x85 || code == 0xa0 || code == 0x1680 ||
    (0x2000 ≤ code && code ≤ 0x200a) || code == 0x2028 || code == 0x2029 || code == 0x202f ||
    code == 0x205f || code == 0x3000

/-- Whether a line has blanks only. -/
def isBlankLine (line : List Char) : Bool := line.all isBlank

/-- A list without the longest run of certain items at its end. -/
def dropWhileEnd {Item : Type} (test : Item → Bool) (items : List Item) : List Item :=
  (items.reverse.dropWhile test).reverse

/-- Text without the blanks at its front. -/
def trimStart (text : List Char) : List Char := text.dropWhile isBlank

/-- Text without the blanks at its end. -/
def trimEnd (text : List Char) : List Char := dropWhileEnd isBlank text

/-- Text without the blanks around it. -/
def trim (text : List Char) : List Char := trimEnd (trimStart text)

end Text

end WiredGraph
