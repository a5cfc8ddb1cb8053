import WiredGraph.Compile.Sources
import WiredGraph.Module.Label
import WiredGraph.Operation.Body
import WiredGraph.Operation.Template
import WiredGraph.Wiring.Settings

/-!
# Compiling operations

Operation documents are compiled to one registry for each destination. Every operation needs a name
and metadata in its own input, no other operation may have its kind and name, and all fragments it
uses must be defined in some document. The first violation, in input order, is reported.
-/

namespace WiredGraph

/-- Operation documents that share their metadata. -/
structure OperationInput where
  documents : List SourceFile
  /-- Without metadata, it is made up from the operations' names. -/
  metadata : Option (List OperationMetadata)

namespace OperationInput

/-- A plain operation document. -/
def plain (file : SourceFile) : OperationInput := ⟨[file], none⟩

/-- The documents embedded in a host file. -/
def embedded (documents : EmbeddedDocuments) : OperationInput :=
  ⟨documents.documents, some documents.metadata⟩

end OperationInput

/-- An operation in its source, with the metadata of its input. -/
structure OperationCandidate where
  source : ParsedSource
  definition : OperationDefinition
  metadata : List OperationMetadata

/-- An operation that may be persisted. -/
structure AcceptedOperation where
  file : SourceFile
  definition : OperationDefinition
  kind : OperationKind
  name : String
  metadata : OperationMetadata
  /-- The names of the fragments it uses, in the order in which they were found. -/
  fragments : List String

namespace OperationCandidate

/-- Where an operation is reported: at its name, if it has one. -/
def location (candidate : OperationCandidate) : Location :=
  candidate.source.locate
    ((candidate.definition.name.map Name.span).getD candidate.definition.span)

/-- The operations of the documents of an input. -/
def ofSources (sources : List ParsedSource) (metadata : List OperationMetadata) :
    List OperationCandidate :=
  sources.flatMap fun source => source.document.operations.map (⟨source, ·, metadata⟩)

/-- Accepts an operation after those whose kinds, names and locations are given. -/
def accept (fragments : Fragments) (earlier : List (OperationKind × String × Location))
    (candidate : OperationCandidate) : Except CompileError AcceptedOperation := do
  let location := candidate.location
  let some name := candidate.definition.name | throw (.anonymousOperation location)
  let name := name.text
  let some kind := OperationKind.ofType? candidate.definition.operation
    | throw (.missingMetadata location candidate.definition.operation.text name)
  let some metadata := candidate.metadata.find? fun entry => entry.kind = kind ∧ entry.name = name
    | throw (.missingMetadata location kind.text name)
  if let some (_, _, previous) := earlier.find? fun entry => entry.1 = kind ∧ entry.2.1 = name then
    throw (.duplicateOperation location previous kind name)
  match fragments.closure candidate.definition.set with
  | .error fragment => throw (.unknownFragment location fragment name)
  | .ok used => return ⟨candidate.source.file, candidate.definition, kind, name, metadata, used⟩

/-- Accepts operations from left to right, after those that are given. -/
def acceptAll (fragments : Fragments) (earlier : List (OperationKind × String × Location)) :
    List OperationCandidate → Except CompileError (List AcceptedOperation)
  | [] => .ok []
  | candidate :: rest => do
      let accepted ← candidate.accept fragments earlier
      let further ← acceptAll fragments
        (earlier ++ [(accepted.kind, accepted.name, candidate.location)]) rest
      return accepted :: further

end OperationCandidate

namespace AcceptedOperation

/-- The destination of an operation. -/
def destination (settings : Settings) (accepted : AcceptedOperation) : String :=
  accepted.metadata.destination.getD settings.defaultDestination

/-- The record of an operation. -/
def record (fragments : Fragments) (accepted : AcceptedOperation) : OperationRecord :=
  let body := OperationBody.render fragments accepted.definition accepted.fragments
  { kind := accepted.kind
    operationName := accepted.name
    constantName := accepted.metadata.constantName
    hash := OperationBody.hash body
    body := body
    originFile := accepted.file.path
    originLine := accepted.metadata.line
    module := ModuleLabel.ofPath accepted.file.path }

end AcceptedOperation

namespace OperationCompiler

/-- Puts a record into the registry of its destination. -/
def route (registries : OrderedMap String OperationRegistry)
    (routed : String × OperationRecord) : OrderedMap String OperationRegistry :=
  registries.upsert routed.1 fun held => (held.getD (.empty routed.1)).push routed.2

/-- The metadata of an input: its own, or else what is made up for its documents. -/
def metadataOf (input : OperationInput) (sources : List ParsedSource) : List OperationMetadata :=
  match input.metadata with
  | some metadata => metadata
  | none => sources.flatMap fun source => OperationMetadata.synthesize source.file source.document

/-- The documents of each input, none of which may have a fault. -/
def readInputs (inputs : List OperationInput) :
    Except CompileError (List (OperationInput × List ParsedSource)) := do
  let read ← inputs.mapM fun input => do
    return (input, ← input.documents.mapM SourceFile.read)
  read.mapM fun (input, documents) => do
    return (input, ← documents.mapM ParsedSource.ofRead)

/-- Compiles operation documents to registries, in the order of each destination's first
operation. -/
def compile (settings : Settings) (inputs : List OperationInput) :
    Except CompileError (List OperationRegistry) := do
  let read ← readInputs inputs
  let documents := read.flatMap fun (_, sources) => sources.map ParsedSource.document
  let fragments := Fragments.ofDocuments documents
  let candidates := read.flatMap fun (input, sources) =>
    OperationCandidate.ofSources sources (metadataOf input sources)
  let accepted ← OperationCandidate.acceptAll fragments [] candidates
  let records := accepted.map fun operation =>
    (operation.destination settings, operation.record fragments)
  return (records.foldl route .empty).values

end OperationCompiler

end WiredGraph
