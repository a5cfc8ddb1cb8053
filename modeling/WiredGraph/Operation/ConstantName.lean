import WiredGraph.Operation.Record
import WiredGraph.Text.Cut

/-!
# Names of generated constants

Constants are named in capitals with underscores between words. A word of a name ends where
something else than an ASCII letter or digit stands, and before a capital that follows a small
letter or a digit, or that follows a capital and has a small letter after it.
-/

namespace WiredGraph

namespace ConstantName

/-- Whether a word starts at a letter or digit, given the characters next to it. -/
def startsWord (previous current : Char) (next : Option Char) : Bool :=
  current.isUpper &&
    (previous.isLower || previous.isDigit || (previous.isUpper && next.any Char.isLower))

/-- The rest of a name in capitals, given whether a word has been written and the letter or digit
just before. -/
def continueCase (written : Bool) (previous : Option Char) : List Char → List Char
  | [] => []
  | char :: rest =>
      if char.isAlphanum then
        let starts := match previous with
          | none => true
          | some previous => startsWord previous char rest.head?
        let capital := char.toUpper :: continueCase true (some char) rest
        if written && starts then '_' :: capital else capital
      else
        continueCase written none rest

/-- A name in capitals with underscores between its words. -/
def constantCase (name : String) : String :=
  String.ofList (continueCase false none name.toList)

/-- The name of the constant for an operation; its start is not repeated if the name has it. -/
def ofOperation (kind : OperationKind) (name : String) : String :=
  let constant := constantCase name
  let start := kind.constantStart
  if (Text.dropStart? start.toList constant.toList).isSome then constant else start ++ constant

end ConstantName

end WiredGraph
