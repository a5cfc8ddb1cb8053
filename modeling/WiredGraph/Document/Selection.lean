import WiredGraph.Document.Value

/-!
# Selections

A selection set asks for fields of a value, each with selections of its own, and includes further
selections by the name of a fragment or in place.
-/

namespace WiredGraph

mutual

/-- One thing asked for. -/
inductive Selection where
  | field (aliasName : Option Name) (name : Name) (arguments : List Argument)
      (directives : List Directive) (set : Option SelectionSet) (span : Span)
  /-- The selections of a fragment, by name. -/
  | spread (name : Name) (directives : List Directive) (span : Span)
  /-- Selections in place, under an optional type condition. -/
  | inline (condition : Option Name) (directives : List Directive) (set : SelectionSet)
      (span : Span)

/-- Selections between braces. -/
inductive SelectionSet where
  | mk (selections : List Selection) (span : Span)

end

namespace SelectionSet

/-- The selections between the braces. -/
def selections : SelectionSet → List Selection
  | .mk selections _ => selections

/-- Where the set stands. -/
def span : SelectionSet → Span
  | .mk _ span => span

end SelectionSet

mutual

/-- The names of the fragments that a selection spreads at any depth, in source order. -/
def Selection.spreadNames : Selection → List String
  | .field _ _ _ _ none _ => []
  | .field _ _ _ _ (some set) _ => set.spreadNames
  | .spread name _ _ => [name.text]
  | .inline _ _ set _ => set.spreadNames

/-- The names of the fragments that a set spreads at any depth, in source order. -/
def SelectionSet.spreadNames : SelectionSet → List String
  | .mk selections _ => Selection.spreadNamesOfList selections

/-- The names of the fragments that selections spread at any depth, in source order. -/
def Selection.spreadNamesOfList : List Selection → List String
  | [] => []
  | selection :: rest => selection.spreadNames ++ Selection.spreadNamesOfList rest

end

/-- The fragments that a set spreads at any depth, each once, in source order. -/
def SelectionSet.spreads (set : SelectionSet) : List String := set.spreadNames.eraseDups

end WiredGraph
