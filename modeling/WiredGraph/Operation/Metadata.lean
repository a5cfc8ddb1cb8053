import WiredGraph.Document.Parser.Definition
import WiredGraph.Operation.ConstantName
import WiredGraph.Source.File

/-!
# Operation metadata

Metadata ties an operation, by kind and name, to the constant it is exported as and to the
destination it belongs to. For a plain operation document it is made up from the names of the
operations. Operations without a name and subscriptions have none.
-/

namespace WiredGraph

/-- What is known about an exported operation besides its text. -/
structure OperationMetadata where
  kind : OperationKind
  name : String
  constantName : String
  destination : Option String
  /-- The line of the declaration in its host file. -/
  line : UInt32
deriving DecidableEq, Repr

namespace OperationKind

/-- The kind of an operation, unless it is a subscription. -/
def ofType? : OperationType → Option OperationKind
  | .query => some .query
  | .mutation => some .mutation
  | .subscription => none

end OperationKind

namespace OperationDefinition

/-- The kind and the name of an operation that can be persisted. -/
def identity? (definition : OperationDefinition) : Option (OperationKind × String) := do
  let kind ← OperationKind.ofType? definition.operation
  let name ← definition.name
  some (kind, name.text)

end OperationDefinition

namespace OperationMetadata

/-- The metadata made up for an operation of a plain document. -/
def synthesizeOne? (file : SourceFile) (definition : OperationDefinition) :
    Option OperationMetadata := do
  let (kind, name) ← definition.identity?
  some ⟨kind, name, ConstantName.ofOperation kind name, none,
    (file.lineOf definition.span).toUInt32⟩

/-- The metadata made up for a plain document. -/
def synthesize (file : SourceFile) (document : Document) : List OperationMetadata :=
  document.operations.filterMap (synthesizeOne? file)

end OperationMetadata

end WiredGraph
