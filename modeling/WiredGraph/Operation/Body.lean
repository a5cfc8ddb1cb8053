import WiredGraph.Digest.Sha256
import WiredGraph.Document.Printer
import WiredGraph.Operation.Fragments
import WiredGraph.Operation.Typename

/-!
# Bodies of persisted operations

The body of an operation is its printed form followed by those of the fragments it uses, the ones
found last first. Its hash is the digest of the body with every run of blanks made one, so that only
the layout may change without changing the hash.
-/

namespace WiredGraph

namespace OperationBody

/-- Whether a character is one of the blanks that are collapsed. -/
def isCollapsed (char : Char) : Bool :=
  char == ' ' || char == '\t' || char == '\n' || char == '\r'

/-- A text with every run of blanks made one space, given whether one stands just before. -/
def collapseAfter : (blank : Bool) → List Char → List Char
  | _, [] => []
  | blank, char :: rest =>
      if isCollapsed char then
        if blank then collapseAfter true rest else ' ' :: collapseAfter true rest
      else
        char :: collapseAfter false rest

/-- A text with every run of blanks made one space. -/
def normalize (body : String) : String := String.ofList (collapseAfter false body.toList)

/-- The hash of a body. -/
def hash (body : String) : String := Sha256.hexDigest (normalize body)

/-- The body of an operation that uses some fragments. -/
def render (fragments : Fragments) (operation : OperationDefinition) (used : List String) :
    String :=
  let printed := used.reverse.filterMap fun name =>
    (fragments.get? name).map fun fragment => fragment.withTypenames.print
  let appended := if used.isEmpty then [] else '\n' :: Text.join ['\n'] printed
  String.ofList (operation.withTypenames.print ++ appended)

end OperationBody

end WiredGraph
