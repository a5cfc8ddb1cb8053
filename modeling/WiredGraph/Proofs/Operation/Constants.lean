import Mathlib.Data.List.Perm.Subperm
import WiredGraph.Proofs.Operation.AllowList

/-!
# The constants of a registry

That no two operations share kind and name does not make their constants different: a host file may
give one constant twice, and different names may become the same in capitals. The map of constants
has one entry for each constant, with the hash of the last record that has it. It has all of the
operations exactly if their constants differ. Where names are made up, only operations of one kind
can share a constant.
-/

namespace WiredGraph

theorem Distinct.length_eraseDups_eq_iff {Item : Type} [DecidableEq Item] {items : List Item} :
    items.eraseDups.length = items.length ↔ items.Nodup := by
  constructor
  · intro same
    have within : items.eraseDups.Subperm items :=
      List.subperm_of_subset (nodup_eraseDups items) fun _ => List.mem_eraseDups.mp
    exact (within.perm_of_length_le same.ge).nodup_iff.mp (nodup_eraseDups items)
  · intro distinct
    rw [eraseDups_of_nodup distinct]

namespace ConstantName

/-- The made up constant of an operation starts with the word for its kind. -/
theorem exists_toList_ofOperation (kind : OperationKind) (name : String) :
    ∃ rest, (ofOperation kind name).toList = kind.constantStart.toList ++ rest := by
  rw [ofOperation]
  split
  · next started =>
      rcases Option.isSome_iff_exists.mp started with ⟨rest, dropped⟩
      exact ⟨rest, Text.dropStart?_eq_some.mp dropped⟩
  · exact ⟨(constantCase name).toList, String.toList_append⟩

/-- A query and a mutation have different constants where constants are made up. -/
theorem kind_eq_of_ofOperation_eq {kind otherKind : OperationKind} {name otherName : String}
    (same : ofOperation kind name = ofOperation otherKind otherName) : kind = otherKind := by
  rcases exists_toList_ofOperation kind name with ⟨rest, started⟩
  rcases exists_toList_ofOperation otherKind otherName with ⟨otherRest, otherStarted⟩
  rw [same, otherStarted] at started
  cases kind <;> cases otherKind <;>
    first | rfl | exact absurd (List.cons.inj started).1 (by decide)

end ConstantName

namespace OperationRegistry

variable (registry : OperationRegistry)

theorem keys_constants :
    registry.constants.keys = (registry.operations.map OperationRecord.constantName).eraseDups := by
  rw [constants, OrderedMap.keys_ofList, List.map_map]
  rfl

/-- A constant stands for the hash of the last record that has it. -/
theorem get?_constants (name : String) :
    registry.constants.get? name =
      (registry.operations.reverse.find? (·.constantName = name)).map OperationRecord.hash := by
  rw [constants, OrderedMap.get?_ofList, ← List.map_reverse, List.find?_map, Option.map_map]
  rfl

theorem size_constants_eq_iff :
    registry.constants.size = registry.operations.length ↔
      (registry.operations.map OperationRecord.constantName).Nodup := by
  have size : registry.constants.size = registry.constants.keys.length := by
    rw [OrderedMap.size, OrderedMap.keys, List.length_map]
  rw [size, keys_constants, ← Distinct.length_eraseDups_eq_iff, List.length_map]

variable {registry}

/-- Records with different constants are all found under their constants. -/
theorem get?_constants_of_nodup
    (distinct : (registry.operations.map OperationRecord.constantName).Nodup)
    {record : OperationRecord} (record_mem : record ∈ registry.operations) :
    registry.constants.get? record.constantName = some record.hash := by
  rw [get?_constants, Distinct.find?_key_perm distinct (List.reverse_perm _),
    Distinct.find?_key_eq_some distinct record_mem, Option.map_some]

/-- Records with different hashes are all found under their constants only if their constants
differ. -/
theorem nodup_constantNames_of_get?
    (hashes : (registry.operations.map OperationRecord.hash).Nodup)
    (found : ∀ record ∈ registry.operations,
      registry.constants.get? record.constantName = some record.hash) :
    (registry.operations.map OperationRecord.constantName).Nodup := by
  refine List.Nodup.map_on ?_ (List.Nodup.of_map _ hashes)
  intro first first_mem second second_mem same
  have sameHash : some first.hash = some second.hash := by
    rw [← found first first_mem, ← found second second_mem, same]
  exact List.inj_on_of_nodup_map hashes first_mem second_mem (Option.some.inj sameHash)

end OperationRegistry

namespace OperationCompiler

variable {settings : Settings} {inputs : List OperationInput}

/-- Where all metadata is made up, a record has the constant that is made of its kind and name. -/
theorem constantName_of_synthesized (synthesized : ∀ input ∈ inputs, input.metadata = none)
    {record : OperationRecord} (record_mem : record ∈ records settings inputs) :
    record.constantName = ConstantName.ofOperation record.kind record.operationName := by
  rcases exists_accepted_of_mem record_mem with ⟨candidate, candidate_mem, accepted, accepts, rfl⟩
  have entry_mem := List.mem_of_find?_eq_some accepts.metadata
  have entry_for := List.find?_some accepts.metadata
  rw [decide_eq_true_eq] at entry_for
  rcases List.mem_flatMap.mp candidate_mem with ⟨input, input_mem, offered⟩
  rcases List.mem_flatMap.mp offered with ⟨source, -, offered⟩
  rcases List.mem_map.mp offered with ⟨definition, -, rfl⟩
  simp only [metadataOf, synthesized input input_mem, List.mem_flatMap] at entry_mem
  rcases entry_mem with ⟨from_source, -, entry_mem⟩
  rcases List.mem_filterMap.mp entry_mem with ⟨operation, -, made⟩
  simp only [OperationMetadata.synthesizeOne?, Option.bind_eq_bind, Option.bind_eq_some_iff,
    Option.some.injEq] at made
  rcases made with ⟨⟨kind, name⟩, -, made⟩
  have constant : accepted.metadata.constantName =
      ConstantName.ofOperation accepted.metadata.kind accepted.metadata.name := by
    rw [← made]
  rw [entry_for.1, entry_for.2] at constant
  exact constant

/-- The map of constants of a compiled registry has one entry for each constant of its records,
with the hash of the last record that has it. It has all operations exactly if their constants
differ, and then each constant stands for its record. Only operations of one kind share a constant
that is made up. -/
theorem constants_of_compile {registries : List OperationRegistry}
    (compiles : compile settings inputs = .ok registries)
    {registry : OperationRegistry} (registry_mem : registry ∈ registries) :
    registry.constants.keys = (registry.operations.map OperationRecord.constantName).eraseDups ∧
      (∀ name, registry.constants.get? name =
        (registry.operations.reverse.find? (·.constantName = name)).map OperationRecord.hash) ∧
      (registry.constants.size = registry.operations.length ↔
        (registry.operations.map OperationRecord.constantName).Nodup) ∧
      ((registry.operations.map OperationRecord.constantName).Nodup →
        ∀ record ∈ registry.operations,
          registry.constants.get? record.constantName = some record.hash) ∧
      (NoCollision settings inputs →
        (∀ record ∈ registry.operations,
          registry.constants.get? record.constantName = some record.hash) →
        (registry.operations.map OperationRecord.constantName).Nodup) ∧
      ((∀ input ∈ inputs, input.metadata = none) →
        ∀ first ∈ registry.operations, ∀ second ∈ registry.operations,
          first.constantName = second.constantName → first.kind = second.kind) := by
  refine ⟨registry.keys_constants, registry.get?_constants, registry.size_constants_eq_iff,
    fun distinct record => OperationRegistry.get?_constants_of_nodup distinct, ?_, ?_⟩
  · intro noCollision found
    have within : registry.operations.Sublist (registries.flatMap OperationRegistry.operations) :=
      List.sublist_flatten_of_mem (List.mem_map_of_mem registry_mem)
    exact OperationRegistry.nodup_constantNames_of_get?
      ((within.map OperationRecord.hash).nodup (nodup_hashes compiles noCollision).1) found
  · intro synthesized first first_mem second second_mem same
    have recorded : ∀ record ∈ registry.operations, record ∈ records settings inputs :=
      fun record record_mem =>
        mem_records_iff.mpr ⟨registries, compiles, registry, registry_mem, record_mem⟩
    rw [constantName_of_synthesized synthesized (recorded first first_mem),
      constantName_of_synthesized synthesized (recorded second second_mem)] at same
    exact ConstantName.kind_eq_of_ofOperation_eq same

/-- What is checked of the registries that inputs are compiled to holds of them. -/
theorem exists_compile_of_any {holds : List OperationRegistry → Prop} [DecidablePred holds]
    (checked : (compile settings inputs).toOption.any (decide <| holds ·) = true) :
    ∃ registries, compile settings inputs = .ok registries ∧ holds registries := by
  cases compiles : compile settings inputs with
  | error error =>
      rw [compiles] at checked
      cases checked
  | ok registries =>
      rw [compiles] at checked
      exact ⟨registries, rfl, of_decide_eq_true checked⟩

/-- Two queries whose names become the same in capitals. -/
def sameInCapitals : List OperationInput :=
  [.plain ⟨"query.graphql", "query me { a } query Me { b }", 1⟩]

/-- Operations with different names may share a constant, which then stands for one of them. -/
theorem constants_lack_operation_sameInCapitals :
    ∃ registries, compile .standard sameInCapitals = .ok registries ∧
      ∃ registry ∈ registries, registry.constants.size < registry.operations.length ∧
        ∃ record ∈ registry.operations,
          registry.constants.get? record.constantName ≠ some record.hash :=
  exists_compile_of_any (by decide +kernel)

/-- A query and a mutation whose names become the same in capitals. -/
def sameAcrossKinds : List OperationInput :=
  [.plain ⟨"me.graphql", "query me { a } mutation Me { b }", 1⟩]

theorem constants_of_compile_sameAcrossKinds :
    NoCollision .standard sameAcrossKinds ∧
      (∀ input ∈ sameAcrossKinds, input.metadata = none) ∧
      ∃ registries, compile .standard sameAcrossKinds = .ok registries ∧
        ∃ registry ∈ registries, registry.operations.length = 2 ∧
          registry.constants.size = registry.operations.length ∧
          (∀ record ∈ registry.operations,
            registry.constants.get? record.constantName = some record.hash) ∧
          ∀ first ∈ registry.operations, ∀ second ∈ registry.operations,
            first.constantName = second.constantName → first.kind = second.kind := by
  have noCollision : NoCollision .standard sameAcrossKinds :=
    noCollision_of_pairwise (by decide +kernel)
  have synthesized : ∀ input ∈ sameAcrossKinds, input.metadata = none := by
    simp [sameAcrossKinds, OperationInput.plain]
  obtain ⟨registries, compiles, registry, registry_mem, both, distinct⟩ :
      ∃ registries, compile .standard sameAcrossKinds = .ok registries ∧
        ∃ registry ∈ registries, registry.operations.length = 2 ∧
          (registry.operations.map OperationRecord.constantName).Nodup :=
    exists_compile_of_any (by decide +kernel)
  obtain ⟨-, -, size, kept, -, kinds⟩ := constants_of_compile compiles registry_mem
  exact ⟨noCollision, synthesized, registries, compiles, registry, registry_mem, both,
    size.mpr distinct, kept distinct, kinds synthesized⟩

end OperationCompiler

end WiredGraph
