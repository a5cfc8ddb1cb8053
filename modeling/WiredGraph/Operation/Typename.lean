import WiredGraph.Document.Definition

/-!
# Type names in selections

Clients need to know the type of every value they are given. Each selection set below the root of
an operation, and each one in a fragment, therefore asks for the type name as its last selection,
unless it already selects a field whose name starts with two underscores.
-/

namespace WiredGraph

namespace Selection

/-- The field that asks for the name of a type. -/
def typename : Selection := .field none ⟨"__typename", .empty 0⟩ [] [] none (.empty 0)

/-- Whether a selection is a field whose name starts with two underscores. -/
def introspects : Selection → Bool
  | .field _ name _ _ _ _ =>
      match name.text.toList with
      | '_' :: '_' :: _ => true
      | _ => false
  | _ => false

end Selection

mutual

/-- A selection whose sets ask for type names. -/
def Selection.withTypenames : Selection → Selection
  | .field aliasName name arguments directives none span =>
      .field aliasName name arguments directives none span
  | .field aliasName name arguments directives (some set) span =>
      .field aliasName name arguments directives (some set.withTypenames) span
  | .spread name directives span => .spread name directives span
  | .inline condition directives set span => .inline condition directives set.withTypenames span

/-- A set that asks for type names, itself and at every depth. -/
def SelectionSet.withTypenames : SelectionSet → SelectionSet
  | .mk selections span =>
      let below := Selection.withTypenamesEach selections
      .mk (if below.any Selection.introspects then below else below ++ [.typename]) span

/-- Selections whose sets ask for type names. -/
def Selection.withTypenamesEach : List Selection → List Selection
  | [] => []
  | selection :: rest => selection.withTypenames :: Selection.withTypenamesEach rest

end

/-- An operation whose sets below its root ask for type names. -/
def OperationDefinition.withTypenames (definition : OperationDefinition) : OperationDefinition :=
  { definition with
    set := .mk (Selection.withTypenamesEach definition.set.selections) definition.set.span }

/-- A fragment whose sets ask for type names. -/
def FragmentDefinition.withTypenames (definition : FragmentDefinition) : FragmentDefinition :=
  { definition with set := definition.set.withTypenames }

end WiredGraph
