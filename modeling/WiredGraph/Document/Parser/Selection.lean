import WiredGraph.Document.Parser.Value
import WiredGraph.Document.Selection

/-!
# Reading selections

A selection set is read by recursion on a bound for the number of tokens ahead: what stands between
its braces has fewer of them.
-/

namespace WiredGraph

namespace Reading

/-- Reads a field selection, given how to read a selection set. -/
def fieldSelection (set : Reading SelectionSet) : Reading Selection := do
  let start ← startOffset
  let first ← name
  let (aliasName, name) ←
    if ← eat (.punctuator .colon) then
      pure (some first, ← name)
    else
      pure (none, first)
  let arguments ← arguments
  let directives ← directives
  let set ← if (← kind) = .punctuator .braceOpen then some <$> set else pure none
  return .field aliasName name arguments directives set (← spanFrom start)

/-- Reads a selection, given how to read a selection set. After three points any name but `on` is
that of a fragment. -/
def selection (set : Reading SelectionSet) : Reading Selection := do
  let start ← startOffset
  if ← eat (.punctuator .spread) then
    let kind ← kind
    if kind.isName ∧ kind ≠ .keyword .on then
      let name ← name
      let directives ← directives
      return .spread name directives (← spanFrom start)
    else
      let condition ← if ← eat (.keyword .on) then some <$> name else pure none
      let directives ← directives
      let set ← set
      return .inline condition directives set (← spanFrom start)
  else
    fieldSelection set

/-- Reads a selection set, with at most so many tokens ahead. -/
def selectionSetUpTo : Nat → Reading SelectionSet
  | 0 => expected (TokenKind.punctuator .braceOpen).text
  | bound + 1 => do
      let start ← startOffset
      expect (.punctuator .braceOpen)
      spannedItems .braceClose (selection (selectionSetUpTo bound)) .mk start

/-- Reads a selection set. -/
def selectionSet : Reading SelectionSet := bounded selectionSetUpTo

end Reading

end WiredGraph
