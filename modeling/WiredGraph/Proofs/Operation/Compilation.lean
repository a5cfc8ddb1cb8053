import WiredGraph.Proofs.Compile.Sources
import WiredGraph.Proofs.Operation.Acceptance
import WiredGraph.Proofs.Operation.Routing

/-!
# What compiling operations does

Compiling reads all documents, accepts their operations, makes a record of each, and routes the
records to registries. `compile_eq_ok_iff` says so step by step. `compile_spec` says it in terms of
the inputs alone: when there are registries, and how their records correspond to the operations.
-/

namespace WiredGraph

namespace OperationInput

/-- The sources of an input with their documents. -/
def sources (input : OperationInput) : List ParsedSource :=
  input.documents.map SourceFile.parsed

end OperationInput

namespace OperationCandidate

/-- How an operation is compiled to a record for a destination: under its own kind and name, with
what the first entry for them in the metadata of its input says. -/
structure CompiledAs (settings : Settings) (candidate : OperationCandidate)
    (destination : String) (record : OperationRecord) : Prop where
  identity : candidate.definition.identity? = some (record.kind, record.operationName)
  described : ∃ entry, candidate.entryFor? (record.kind, record.operationName) = some entry ∧
    record.constantName = entry.constantName ∧ record.originLine = entry.line ∧
      destination = entry.destination.getD settings.defaultDestination
  originFile : record.originFile = candidate.source.file.path
  hash : record.hash = OperationBody.hash record.body

theorem AcceptedAs.compiledAs {fragments : Fragments} {candidate : OperationCandidate}
    {accepted : AcceptedOperation} (accepts : candidate.AcceptedAs fragments accepted)
    (settings : Settings) :
    candidate.CompiledAs settings (accepted.destination settings) (accepted.record fragments) where
  identity := accepts.identity
  described := ⟨accepted.metadata, accepts.metadata, rfl, rfl, rfl⟩
  originFile := congrArg SourceFile.path accepts.file
  hash := rfl

/-- An operation can be accepted by itself if it has a kind and a name, there is a metadata entry
for them, and the fragments that it uses are defined. -/
theorem exists_acceptedAs_iff {fragments : Fragments} {candidate : OperationCandidate} :
    (∃ accepted, candidate.AcceptedAs fragments accepted) ↔
      ∃ identity, candidate.definition.identity? = some identity ∧
        (∃ entry ∈ candidate.metadata, (entry.kind, entry.name) = identity) ∧
          ∀ name, candidate.definition.set.Uses fragments.get? name →
            (fragments.get? name).isSome := by
  have entry_found : ∀ identity : OperationKind × String,
      (∃ entry ∈ candidate.metadata, (entry.kind, entry.name) = identity) ↔
        ∃ entry, candidate.entryFor? identity = some entry := by
    rintro ⟨kind, name⟩
    rw [← Option.isSome_iff_exists, entryFor?, List.find?_isSome]
    simp
  simp only [entry_found, ← Fragments.exists_closure_iff]
  constructor
  · rintro ⟨accepted, accepts⟩
    exact ⟨accepted.identity, accepts.identity, ⟨_, accepts.metadata⟩, ⟨_, accepts.fragments⟩⟩
  · rintro ⟨⟨kind, name⟩, identity, ⟨entry, described⟩, used, closed⟩
    exact ⟨⟨candidate.source.file, candidate.definition, kind, name, entry, used⟩,
      rfl, rfl, identity, described, closed⟩

end OperationCandidate

namespace OperationCompiler

/-- The documents of some inputs, in order. -/
def documents (inputs : List OperationInput) : List Document :=
  inputs.flatMap fun input => input.sources.map ParsedSource.document

/-- The operations of some inputs, in order, each with the metadata of its input. -/
def operations (inputs : List OperationInput) : List OperationCandidate :=
  inputs.flatMap fun input =>
    OperationCandidate.ofSources input.sources (metadataOf input input.sources)

/-- The record of an accepted operation and the destination that it is for. -/
def routed (settings : Settings) (fragments : Fragments) (accepted : AcceptedOperation) :
    String × OperationRecord :=
  (accepted.destination settings, accepted.record fragments)

/-- Reads the documents of an input. -/
def readFiles (input : OperationInput) :
    Except CompileError (OperationInput × List (SourceFile × ParsedDocument)) := do
  return (input, ← input.documents.mapM SourceFile.read)

/-- Checks the documents of an input for faults. -/
def checkFiles (read : OperationInput × List (SourceFile × ParsedDocument)) :
    Except CompileError (OperationInput × List ParsedSource) := do
  return (read.1, ← read.2.mapM ParsedSource.ofRead)

theorem readInputs_eq (inputs : List OperationInput) :
    readInputs inputs = (do (← inputs.mapM readFiles).mapM checkFiles) := rfl

theorem readFiles_checkFiles_eq_ok_iff {input : OperationInput}
    {result : OperationInput × List ParsedSource} :
    (∃ read, readFiles input = .ok read ∧ checkFiles read = .ok result) ↔
      (∀ file ∈ input.documents, file.IsClean) ∧ (input, input.sources) = result := by
  rcases result with ⟨same, sources⟩
  simp only [readFiles, checkFiles, Success.bind_eq_ok, Success.pure_eq_ok, Prod.mk.injEq,
    OperationInput.sources, and_left_comm (b := input = same),
    ← ParsedSource.readAll_eq_ok_iff]
  constructor
  · rintro ⟨_, ⟨between, reads, rfl⟩, _, offered, rfl, rfl⟩
    exact ⟨rfl, between, reads, offered⟩
  · rintro ⟨rfl, between, reads, offered⟩
    exact ⟨(input, between), ⟨between, reads, rfl⟩, sources, offered, rfl, rfl⟩

/-- The documents of inputs can be read exactly if all of their sources are clean. Reading comes
before the check for faults, and both are made for all files of an input. -/
theorem readInputs_eq_ok_iff {inputs : List OperationInput}
    {read : List (OperationInput × List ParsedSource)} :
    readInputs inputs = .ok read ↔
      (∀ input ∈ inputs, ∀ file ∈ input.documents, file.IsClean) ∧
        (inputs.map fun input => (input, input.sources)) = read := by
  rw [readInputs_eq, Success.bind_eq_ok, Success.mapM_mapM_eq_ok_iff]
  simp only [readFiles_checkFiles_eq_ok_iff]
  exact Success.forall₂_and_eq_iff

/-- The fragments that the documents of some inputs define. -/
def fragments (inputs : List OperationInput) : Fragments := .ofDocuments (documents inputs)

/-- Compiling step by step: all sources are clean, every operation is accepted and none has the
kind and name of another, and the records of the accepted operations are routed to registries. -/
theorem compile_eq_ok_iff {settings : Settings} {inputs : List OperationInput}
    {registries : List OperationRegistry} :
    compile settings inputs = .ok registries ↔
      (∀ input ∈ inputs, ∀ file ∈ input.documents, file.IsClean) ∧
        ∃ accepted,
          List.Forall₂ (OperationCandidate.AcceptedAs (fragments inputs)) (operations inputs)
            accepted ∧
          (accepted.map AcceptedOperation.identity).Nodup ∧
          ((accepted.map (routed settings (fragments inputs))).foldl route .empty).values =
            registries := by
  simp only [compile, Success.bind_eq_ok, Success.pure_eq_ok, readInputs_eq_ok_iff]
  constructor
  · rintro ⟨_, ⟨clean, rfl⟩, accepted, accepts, rfl⟩
    rw [List.flatMap_map, List.flatMap_map, OperationCandidate.acceptAll_eq_ok_iff] at accepts
    rw [List.flatMap_map]
    exact ⟨clean, accepted, accepts.1, accepts.2.1, rfl⟩
  · rintro ⟨clean, accepted, related, distinct, rfl⟩
    refine ⟨_, ⟨clean, rfl⟩, accepted, ?_, ?_⟩
    · rw [List.flatMap_map, List.flatMap_map, OperationCandidate.acceptAll_eq_ok_iff]
      exact ⟨related, distinct, by simp [OperationCandidate.taken]⟩
    · rw [List.flatMap_map]
      rfl

/-- The conditions under which operation documents can be compiled. -/
structure Compilable (inputs : List OperationInput) : Prop where
  /-- Every document can be read to its end. -/
  clean : ∀ input ∈ inputs, ∀ file ∈ input.documents, file.IsClean
  /-- Every operation has a name and is a query or a mutation. -/
  persistable : ∀ candidate ∈ operations inputs,
    candidate.definition.name.isSome ∧
      (candidate.definition.operation = .query ∨ candidate.definition.operation = .mutation)
  /-- Every operation has an entry in the metadata of its own input. -/
  described : ∀ candidate ∈ operations inputs, ∀ identity,
    candidate.definition.identity? = some identity →
      ∃ entry ∈ candidate.metadata, (entry.kind, entry.name) = identity
  /-- No two operations have the same kind and name. -/
  unique : ((operations inputs).filterMap (·.definition.identity?)).Nodup
  /-- Every fragment that an operation uses is defined in some document. -/
  defined : ∀ candidate ∈ operations inputs, ∀ name,
    candidate.definition.set.Uses (Document.lastFragment? (documents inputs)) name →
      ∃ document ∈ documents inputs, ∃ fragment ∈ document.fragments, fragment.name.text = name

/-- How records for destinations are collected in registries. -/
structure CollectedIn (compiled : List (String × OperationRecord))
    (registries : List OperationRegistry) : Prop where
  /-- There is one registry for each destination, in the order of the destinations' first
  records. -/
  destinations :
    registries.map OperationRegistry.destination = (compiled.map Prod.fst).eraseDups
  /-- A registry has the records for its destination, in order. -/
  operations : ∀ registry ∈ registries,
    registry.operations =
      (compiled.filter fun entry => entry.1 = registry.destination).map Prod.snd
  /-- All records are in the registries, each once. -/
  records :
    (registries.flatMap OperationRegistry.operations).Perm (compiled.map Prod.snd)
  /-- The hash of a name is that of the last record with the name. -/
  hashes : ∀ registry ∈ registries, ∀ name,
    registry.hashFor? name =
      (registry.operations.reverse.find? (·.operationName = name)).map OperationRecord.hash

/-- A registry is what the records for one of the destinations lead to. -/
theorem mem_values_foldl_route {compiled : List (String × OperationRecord)}
    {registry : OperationRegistry}
    (registry_mem : registry ∈ (compiled.foldl route .empty).values) :
    registry.destination ∈ compiled.map Prod.fst ∧
      registry = .ofRecords registry.destination
        ((compiled.filter fun entry => entry.1 = registry.destination).map Prod.snd) := by
  rw [values_foldl_route] at registry_mem
  rcases List.mem_map.mp registry_mem with ⟨destination, destination_mem, rfl⟩
  rw [OperationRegistry.destination_ofRecords]
  exact ⟨List.mem_eraseDups.mp destination_mem, rfl⟩

/-- Each destination groups its own records, and no record has two destinations. -/
theorem collectedIn_values_foldl_route (compiled : List (String × OperationRecord)) :
    CollectedIn compiled (compiled.foldl route .empty).values where
  destinations := by
    rw [values_foldl_route, List.map_map]
    apply List.map_id''
    intro destination
    exact OperationRegistry.destination_ofRecords _ _
  operations registry registry_mem := by
    have operations := congrArg OperationRegistry.operations (mem_values_foldl_route registry_mem).2
    rwa [OperationRegistry.operations_ofRecords] at operations
  records := by
    rw [values_foldl_route, List.flatMap_map]
    simp only [OperationRegistry.operations_ofRecords]
    rw [← List.map_flatMap]
    apply List.Perm.map
    apply Distinct.flatMap_filter_perm Prod.fst (Distinct.nodup_eraseDups _)
    intro entry entry_mem
    exact List.mem_eraseDups.mpr (List.mem_map_of_mem entry_mem)
  hashes registry registry_mem name := by
    rw [(mem_values_foldl_route registry_mem).2, OperationRegistry.hashFor?_ofRecords,
      OperationRegistry.operations_ofRecords]

/-- The records that compiling some inputs produces, or none if it fails. -/
def records (settings : Settings) (inputs : List OperationInput) : List OperationRecord :=
  match compile settings inputs with
  | .ok registries => registries.flatMap OperationRegistry.operations
  | .error _ => []

theorem mem_records_iff {settings : Settings} {inputs : List OperationInput}
    {record : OperationRecord} :
    record ∈ records settings inputs ↔ ∃ registries, compile settings inputs = .ok registries ∧
      ∃ registry ∈ registries, record ∈ registry.operations := by
  rw [records]
  split
  · next compiles => simp [compiles]
  · next failed => simp [failed]

theorem exists_compile_of_records_ne_nil {settings : Settings} {inputs : List OperationInput}
    (some_record : records settings inputs ≠ []) :
    ∃ registries, compile settings inputs = .ok registries := by
  rcases List.exists_mem_of_ne_nil _ some_record with ⟨record, record_mem⟩
  rcases mem_records_iff.mp record_mem with ⟨registries, compiles, -⟩
  exact ⟨registries, compiles⟩

/-- A record is made of one of the operations. -/
theorem exists_accepted_of_mem {settings : Settings} {inputs : List OperationInput}
    {record : OperationRecord} (record_mem : record ∈ records settings inputs) :
    ∃ candidate ∈ operations inputs, ∃ accepted,
      candidate.AcceptedAs (fragments inputs) accepted ∧
        accepted.record (fragments inputs) = record := by
  rcases mem_records_iff.mp record_mem with
    ⟨registries, compiles, registry, registry_mem, record_mem⟩
  rcases compile_eq_ok_iff.mp compiles with ⟨-, accepted, related, -, rfl⟩
  have collected := collectedIn_values_foldl_route
    (accepted.map (routed settings (fragments inputs)))
  have compiled_mem := collected.records.mem_iff.mp
    (List.mem_flatMap.mpr ⟨registry, registry_mem, record_mem⟩)
  rw [List.map_map] at compiled_mem
  rcases List.mem_map.mp compiled_mem with ⟨operation, operation_mem, made⟩
  rcases Success.exists_left_of_forall₂ related operation_mem with
    ⟨candidate, candidate_mem, accepts⟩
  exact ⟨candidate, candidate_mem, operation, accepts, made⟩

/-- The hash of a record is that of its body. -/
theorem hash_of_mem_records {settings : Settings} {inputs : List OperationInput}
    {record : OperationRecord} (record_mem : record ∈ records settings inputs) :
    record.hash = OperationBody.hash record.body := by
  rcases exists_accepted_of_mem record_mem with ⟨_, -, accepted, -, rfl⟩
  rfl

theorem lastFragment?_isSome_iff {inputs : List OperationInput} {name : String} :
    (Document.lastFragment? (documents inputs) name).isSome ↔
      ∃ document ∈ documents inputs, ∃ fragment ∈ document.fragments,
        fragment.name.text = name := by
  simp only [Document.lastFragment?, List.find?_isSome, List.mem_reverse, List.mem_flatMap,
    decide_eq_true_eq]
  constructor
  · rintro ⟨fragment, ⟨document, document_mem, fragment_mem⟩, named⟩
    exact ⟨document, document_mem, fragment, fragment_mem, named⟩
  · rintro ⟨document, document_mem, fragment, fragment_mem, named⟩
    exact ⟨fragment, ⟨document, document_mem, fragment_mem⟩, named⟩

theorem fragments_get?_eq (inputs : List OperationInput) :
    (fragments inputs).get? = Document.lastFragment? (documents inputs) :=
  funext fun name => Fragments.get?_ofDocuments (documents inputs) name

/-- Accepted operations have the kinds and names of the operations that they were accepted
from. -/
theorem filterMap_identity?_of_accepted {candidates : List OperationCandidate}
    {accepted : List AcceptedOperation} {defined : Fragments}
    (related : List.Forall₂ (OperationCandidate.AcceptedAs defined) candidates accepted) :
    candidates.filterMap (·.definition.identity?) = accepted.map AcceptedOperation.identity := by
  induction related with
  | nil => rfl
  | cons accepts _ ih =>
      simp only [List.filterMap_cons, accepts.identity, ih, List.map_cons]

/-- An operation has a kind and a name if it is named and is a query or a mutation. -/
theorem exists_identity?_iff {definition : OperationDefinition} :
    (∃ identity, definition.identity? = some identity) ↔
      definition.name.isSome ∧
        (definition.operation = .query ∨ definition.operation = .mutation) := by
  rcases definition with ⟨operation, name, _, _, _, _⟩
  cases operation <;> cases name <;>
    simp [OperationDefinition.identity?, OperationKind.ofType?]

/-- Operation documents can be compiled exactly under the conditions of `Compilable`. Only that no
identity is repeated concerns several operations; the rest is about each alone. -/
theorem exists_compile_iff {settings : Settings} {inputs : List OperationInput} :
    (∃ registries, compile settings inputs = .ok registries) ↔ Compilable inputs := by
  simp only [compile_eq_ok_iff]
  constructor
  · rintro ⟨_, clean, accepted, related, distinct, rfl⟩
    have acceptable : ∀ candidate ∈ operations inputs,
        ∃ accepted, candidate.AcceptedAs (fragments inputs) accepted := by
      intro candidate candidate_mem
      rcases Success.exists_right_of_forall₂ related candidate_mem with ⟨accepted, _, accepts⟩
      exact ⟨accepted, accepts⟩
    simp only [OperationCandidate.exists_acceptedAs_iff] at acceptable
    refine ⟨clean, ?_, ?_, ?_, ?_⟩
    · intro candidate candidate_mem
      rcases acceptable candidate candidate_mem with ⟨identity, identified, -, -⟩
      exact exists_identity?_iff.mp ⟨identity, identified⟩
    · intro candidate candidate_mem identity identified
      rcases acceptable candidate candidate_mem with ⟨_, also_identified, described, -⟩
      obtain rfl := Option.some.inj (identified.symm.trans also_identified)
      exact described
    · rwa [filterMap_identity?_of_accepted related]
    · intro candidate candidate_mem name used
      rcases acceptable candidate candidate_mem with ⟨_, -, -, defined⟩
      rw [← lastFragment?_isSome_iff, ← fragments_get?_eq]
      exact defined name (fragments_get?_eq inputs ▸ used)
  · intro compilable
    have acceptable : ∀ candidate ∈ operations inputs,
        ∃ accepted, candidate.AcceptedAs (fragments inputs) accepted := by
      intro candidate candidate_mem
      rw [OperationCandidate.exists_acceptedAs_iff]
      rcases exists_identity?_iff.mpr (compilable.persistable candidate candidate_mem) with
        ⟨identity, identified⟩
      refine ⟨identity, identified,
        compilable.described candidate candidate_mem identity identified, ?_⟩
      intro name used
      rw [fragments_get?_eq] at used ⊢
      exact lastFragment?_isSome_iff.mpr (compilable.defined candidate candidate_mem name used)
    rcases Success.exists_forall₂ acceptable with ⟨accepted, related⟩
    refine ⟨_, compilable.clean, accepted, related, ?_, rfl⟩
    rw [← filterMap_identity?_of_accepted related]
    exact compilable.unique

/-- Compiling operation documents succeeds exactly under the conditions of `Compilable`. If it
does, each operation is compiled to one record for one destination, and the records are collected
in the registries of their destinations. -/
theorem compile_spec (settings : Settings) (inputs : List OperationInput) :
    ((∃ registries, compile settings inputs = .ok registries) ↔ Compilable inputs) ∧
      ∀ registries, compile settings inputs = .ok registries →
        ∃ compiled : List (String × OperationRecord),
          List.Forall₂ (fun candidate entry => candidate.CompiledAs settings entry.1 entry.2)
            (operations inputs) compiled ∧
          (compiled.map fun entry => (entry.2.kind, entry.2.operationName)).Nodup ∧
          CollectedIn compiled registries := by
  refine ⟨exists_compile_iff, ?_⟩
  intro registries compiles
  rcases compile_eq_ok_iff.mp compiles with ⟨-, accepted, related, distinct, rfl⟩
  refine ⟨accepted.map (routed settings (fragments inputs)), ?_, ?_,
    collectedIn_values_foldl_route _⟩
  · rw [List.forall₂_map_right_iff]
    exact related.imp fun _ _ accepts => accepts.compiledAs settings
  · rw [List.map_map]
    exact distinct

/-- Two operations for two destinations that share a fragment, one of them with metadata of its
own. -/
def twoDestinations : List OperationInput :=
  [.plain ⟨"me.graphql", "query Me \x7b me \x7b ...Person \x7d \x7d", 1⟩,
    ⟨[⟨"ban.graphql", "mutation Ban \x7b ban(id: 1) \x7b ...Person \x7d \x7d", 1⟩,
        ⟨"person.graphql", "fragment Person on User \x7b name \x7d", 1⟩],
      some [⟨.mutation, "Ban", "BAN", some "admin", 3⟩]⟩]

theorem compile_spec_twoDestinations :
    Compilable twoDestinations ∧ (operations twoDestinations).length = 2 ∧
      ∃ registries, compile .standard twoDestinations = .ok registries ∧
        ∃ compiled : List (String × OperationRecord),
          List.Forall₂ (fun candidate entry => candidate.CompiledAs .standard entry.1 entry.2)
            (operations twoDestinations) compiled ∧
          (compiled.map fun entry => (entry.2.kind, entry.2.operationName)).Nodup ∧
          CollectedIn compiled registries := by
  have succeeds : ∃ registries, compile .standard twoDestinations = .ok registries :=
    exists_compile_of_records_ne_nil (by decide +kernel)
  rcases compile_spec .standard twoDestinations with ⟨compilable, collected⟩
  refine ⟨compilable.mp succeeds, by decide +kernel, ?_⟩
  rcases succeeds with ⟨registries, compiles⟩
  exact ⟨registries, compiles, collected registries compiles⟩

end OperationCompiler

end WiredGraph
