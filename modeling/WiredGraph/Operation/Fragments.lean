import WiredGraph.Document.Definition
import WiredGraph.OrderedMap

/-!
# Fragments of operations

An operation uses the fragments that it spreads, those that they spread, and so on. They are found
in rounds: each round adds the fragments that the ones known so far spread, and the search ends
with the round that adds none. Every fragment met has to be defined.
-/

namespace WiredGraph

/-- The fragments by name. -/
abbrev Fragments := OrderedMap String FragmentDefinition

namespace Fragments

/-- The fragments of some documents; the last definition of a name counts. -/
def ofDocuments (documents : List Document) : Fragments :=
  .ofList ((documents.flatMap Document.fragments).map fun fragment =>
    (fragment.name.text, fragment))

/-- The names that the fragment of a name spreads, or the name itself if it has no fragment. -/
def spreadsOf (fragments : Fragments) (name : String) : Except String (List String) :=
  match fragments.get? name with
  | some fragment => .ok fragment.set.spreads
  | none => .error name

/-- The names known after a round, or a name without a fragment. -/
def expand (fragments : Fragments) (known : List String) : Except String (List String) := do
  let found ← known.mapM fragments.spreadsOf
  return (known ++ found.flatten).eraseDups

/-- The names known after at most so many rounds. -/
def closeUpTo (fragments : Fragments) : (rounds : Nat) → List String → Except String (List String)
  | 0, known => .ok known
  | rounds + 1, known => do
      let next ← fragments.expand known
      if next.length = known.length then return known else fragments.closeUpTo rounds next

/-- The fragments that a selection set uses, in the order in which they are found, or the name of
one that is not defined. Two rounds more than there are fragments are enough: each round but the
last adds a name, and a round succeeds only if all names known before it are defined. -/
def closure (fragments : Fragments) (set : SelectionSet) : Except String (List String) :=
  fragments.closeUpTo (fragments.size + 2) set.spreads

end Fragments

end WiredGraph
