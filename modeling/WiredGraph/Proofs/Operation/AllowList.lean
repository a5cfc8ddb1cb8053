import Mathlib.Data.List.Nodup
import Mathlib.Data.List.Pairwise
import WiredGraph.Proofs.Operation.Normalization
import WiredGraph.Proofs.Operation.Rendering
import WiredGraph.Proofs.Operation.Sources

/-!
# The store as an allow-list

The store has one entry for each compiled operation, whichever order the registries are put into it
in. It does not look out for entries that it replaces; there are none because a body starts with
the kind and the name of its operation, and collapsing blanks keeps the two apart. Bodies of
different operations therefore differ in more than their blanks, and so do their hashes unless the
digests of two different texts collide.
-/

namespace WiredGraph

open Scan Layout

namespace OperationDefinition

/-- An operation with a name is printed with its keyword and its name in front. -/
theorem exists_print_eq {definition : OperationDefinition} {name : Name}
    (named : definition.name = some name) (after : List Char) :
    ∃ rest, StandsApart rest ∧ definition.print ++ after =
      definition.operation.text.toList ++ ' ' :: (name.text.toList ++ rest) := by
  have standsApart : StandsApart
      (parenthesized (definition.variableDefinitions.map VariableDefinition.print) ++
        (Directive.printAll definition.directives ++ ' ' :: (definition.set.print 0 ++ after))) :=
    keepsApart_parenthesized _ _
      (Directive.keepsApart_printAll _ _ (standsApart_cons.mpr (by decide)))
  refine ⟨_, standsApart, ?_⟩
  have written : definition.isShorthand = false := by
    simp [isShorthand, named]
  rw [print, written, if_neg Bool.false_ne_true, printHead_eq, printNamed, named]
  simp only [Name.print, List.append_assoc, List.cons_append, List.nil_append]

end OperationDefinition

theorem OperationKind.text_of_ofType? {operation : OperationType} {kind : OperationKind}
    (kinded : ofType? operation = some kind) : operation.text = kind.text := by
  cases operation <;> cases kinded <;> rfl

theorem OperationKind.text_injective : Function.Injective OperationKind.text := by
  intro kind other same
  cases kind <;> cases other <;> first | rfl | exact absurd same (by decide)

namespace AcceptedOperation

/-- A collapsed body starts with the kind and the name of its operation, and what follows does not
go on with the name. -/
structure StartsWithIdentity (accepted : AcceptedOperation) (collapsed : List Char) : Prop where
  identifier : Ascii.isIdentifier accepted.name.toList = true
  front : ∃ rest, StandsApart rest ∧
    collapsed = accepted.kind.text.toList ++ ' ' :: (accepted.name.toList ++ rest)

theorem isIdentifier_kind (kind : OperationKind) :
    Ascii.isIdentifier kind.text.toList = true := by
  cases kind <;> decide

/-- What a text starts with tells whose body it is. -/
theorem StartsWithIdentity.unique {accepted other : AcceptedOperation} {collapsed : List Char}
    (starts : accepted.StartsWithIdentity collapsed)
    (otherStarts : other.StartsWithIdentity collapsed) : accepted.identity = other.identity := by
  rcases starts.front with ⟨rest, apart, shown⟩
  rcases otherStarts.front with ⟨otherRest, otherApart, otherShown⟩
  have stops : ∀ text : List Char, Text.Stops continuesName (' ' :: text) :=
    fun _ => Text.stops_cons.mpr (by decide)
  rcases Text.run_unique (continuesName_of_isIdentifier (isIdentifier_kind accepted.kind)) (stops _)
    (continuesName_of_isIdentifier (isIdentifier_kind other.kind)) (stops _)
    (shown.symm.trans otherShown) with ⟨kinds, afterKinds⟩
  rcases Text.run_unique (continuesName_of_isIdentifier starts.identifier) apart.stops_name
    (continuesName_of_isIdentifier otherStarts.identifier) otherApart.stops_name
    (List.cons.inj afterKinds).2 with ⟨names, -⟩
  exact Prod.ext (OperationKind.text_injective (String.toList_injective kinds))
    (String.toList_injective names)

end AcceptedOperation

namespace OperationCompiler

variable {settings : Settings} {inputs : List OperationInput}

theorem startsWithIdentity_of_acceptedAs {candidate : OperationCandidate}
    (candidate_mem : candidate ∈ operations inputs) {accepted : AcceptedOperation}
    (accepts : candidate.AcceptedAs (fragments inputs) accepted) :
    accepted.StartsWithIdentity
      (OperationBody.collapseAfter false (accepted.record (fragments inputs)).body.toList) := by
  have wellFormed : accepted.definition.WellFormed True :=
    wellFormed_of_acceptedAs (fun _ _ _ _ _ _ _ => trivial) candidate_mem accepts
  have identity := accepts.identity
  rw [← accepts.definition, OperationCandidate.identity?_eq_some_iff] at identity
  rcases identity with ⟨kinded, name, named, named_text⟩
  have text : name.text = accepted.name := named_text
  have identifier : Ascii.isIdentifier accepted.name.toList = true := by
    have isIdentifier : name.IsIdentifier := wellFormed.name name named
    rwa [Name.IsIdentifier, text] at isIdentifier
  refine ⟨identifier, ?_⟩
  have sameName : accepted.definition.withTypenames.name = some name := named
  rcases OperationDefinition.exists_print_eq sameName _ with ⟨rest, apart, shown⟩
  refine ⟨OperationBody.collapseAfter false rest, OperationBody.standsApart_collapseAfter apart, ?_⟩
  rcases OperationBody.solid_word (AcceptedOperation.isIdentifier_kind accepted.kind) with
    ⟨kind_ne_nil, kindSolid⟩
  rcases OperationBody.solid_word identifier with ⟨name_ne_nil, nameSolid⟩
  have blank : ∀ text : List Char, OperationBody.collapseAfter false (' ' :: text) =
      ' ' :: OperationBody.collapseAfter true text := fun _ => rfl
  have keyword : accepted.definition.withTypenames.operation.text = accepted.kind.text :=
    OperationKind.text_of_ofType? kinded
  rw [AcceptedOperation.record, OperationBody.toList_render, shown, text, keyword,
    OperationBody.collapseAfter_append kind_ne_nil kindSolid, blank,
    OperationBody.collapseAfter_append name_ne_nil nameSolid]

/-- The digests of the bodies of different records do not collide. -/
def NoCollision (settings : Settings) (inputs : List OperationInput) : Prop :=
  ∀ first ∈ records settings inputs, ∀ second ∈ records settings inputs,
    OperationBody.Apart first.body second.body

/-- Hashes that differ do not collide. -/
theorem noCollision_of_pairwise
    (differ : (records settings inputs).Pairwise fun first second =>
      OperationBody.hash first.body ≠ OperationBody.hash second.body) :
    NoCollision settings inputs := by
  have apart : (records settings inputs).Pairwise fun first second =>
      OperationBody.Apart first.body second.body :=
    differ.imp fun different same => absurd same different
  have symmetric : Std.Symm fun first second : OperationRecord =>
      OperationBody.Apart first.body second.body :=
    ⟨fun _ _ apart same => (apart same.symm).symm⟩
  intro first first_mem second second_mem
  exact apart.forall_of_forall (fun _ _ _ => rfl) first_mem second_mem

/-- Without collisions, all records that are compiled have different hashes. Equal hashes stand for
equal collapsed bodies, and these start with kind and name. -/
theorem nodup_hashes {registries : List OperationRegistry}
    (compiles : compile settings inputs = .ok registries)
    (noCollision : NoCollision settings inputs) :
    ((registries.flatMap OperationRegistry.operations).map OperationRecord.hash).Nodup ∧
      (registries.flatMap OperationRegistry.operations).length = (operations inputs).length := by
  have shown : records settings inputs = registries.flatMap OperationRegistry.operations := by
    rw [records, compiles]
  rcases compile_eq_ok_iff.mp compiles with ⟨-, accepted, related, distinct, rfl⟩
  have perm := (collectedIn_values_foldl_route
    (accepted.map (routed settings (fragments inputs)))).records
  rw [List.map_map] at perm
  refine ⟨?_, by rw [perm.length_eq, List.length_map, related.length_eq]⟩
  rw [(perm.map OperationRecord.hash).nodup_iff, List.map_map]
  refine List.Nodup.map_on ?_ (List.Nodup.of_map _ distinct)
  intro first first_mem second second_mem same
  rcases Success.exists_left_of_forall₂ related first_mem with ⟨_, firstCandidate, firstAccepts⟩
  rcases Success.exists_left_of_forall₂ related second_mem with
    ⟨_, secondCandidate, secondAccepts⟩
  have recorded : ∀ operation ∈ accepted,
      operation.record (fragments inputs) ∈ records settings inputs := by
    intro operation operation_mem
    rw [shown, perm.mem_iff]
    exact List.mem_map_of_mem operation_mem
  have collapsed := String.ofList_injective
    (noCollision _ (recorded first first_mem) _ (recorded second second_mem) same)
  have firstStarts := startsWithIdentity_of_acceptedAs firstCandidate firstAccepts
  have secondStarts := startsWithIdentity_of_acceptedAs secondCandidate secondAccepts
  rw [← collapsed] at secondStarts
  exact List.inj_on_of_nodup_map distinct first_mem second_mem (firstStarts.unique secondStarts)

end OperationCompiler

namespace PersistedOperations

/-- A store of registries holds their records by hash. -/
theorem records_ofRegistries (registries : List OperationRegistry) :
    (ofRegistries registries).records =
      .ofList ((registries.flatMap OperationRegistry.operations).map fun record =>
        (record.hash, record)) := by
  have inserted : ∀ (records : List OperationRecord) (store : PersistedOperations),
      (records.foldl insert store).records =
        records.foldl (fun held record => held.insert record.hash record) store.records := by
    intro records
    induction records with
    | nil => exact fun _ => rfl
    | cons record rest ih => exact fun store => ih (store.insert record)
  rw [ofRegistries, inserted, OrderedMap.ofList, List.foldl_map]
  rfl

section Distinct

variable {registries : List OperationRegistry}
  (distinct : ((registries.flatMap OperationRegistry.operations).map OperationRecord.hash).Nodup)

include distinct

/-- Records with different hashes are all kept. -/
theorem size_ofRegistries :
    (ofRegistries registries).records.size =
      (registries.flatMap OperationRegistry.operations).length := by
  have keys := congrArg List.length (OrderedMap.keys_ofList
    ((registries.flatMap OperationRegistry.operations).map fun record => (record.hash, record)))
  rw [List.map_map] at keys
  have hashes : (registries.flatMap OperationRegistry.operations).map
      (Prod.fst ∘ fun record => (record.hash, record)) =
        (registries.flatMap OperationRegistry.operations).map OperationRecord.hash := rfl
  rw [hashes, Distinct.eraseDups_of_nodup distinct, ← records_ofRegistries, OrderedMap.keys,
    List.length_map, List.length_map] at keys
  exact keys

/-- A hash is looked up among the records with different hashes. A map holds the last record of a
hash, which is the first one as there is only one. -/
theorem find?_ofRegistries (hash : String) :
    (ofRegistries registries).find? hash =
      (registries.flatMap OperationRegistry.operations).find? fun record => record.hash = hash := by
  rw [find?, records_ofRegistries, OrderedMap.get?_ofList, ← List.map_reverse, List.find?_map,
    Option.map_map]
  have last := Distinct.find?_key_perm distinct (List.reverse_perm _) hash
  rw [← last]
  exact Option.map_id_apply

/-- The store and a registry have the same record for each hash of the registry. -/
theorem find?_eq_of_mem {registry : OperationRegistry} (registry_mem : registry ∈ registries)
    {record : OperationRecord} (record_mem : record ∈ registry.operations) :
    (ofRegistries registries).find? record.hash = some record ∧
      registry.find? record.hash = some record := by
  have all_mem : record ∈ registries.flatMap OperationRegistry.operations :=
    List.mem_flatMap.mpr ⟨registry, registry_mem, record_mem⟩
  have own : (registry.operations.map OperationRecord.hash).Nodup := by
    rw [List.map_flatMap, List.nodup_flatMap] at distinct
    exact distinct.1 registry registry_mem
  refine ⟨?_, ?_⟩
  · rw [find?_ofRegistries distinct]
    exact Distinct.find?_key_eq_some distinct all_mem
  · have found := Distinct.find?_key_eq_some own record_mem
    simpa [OperationRegistry.find?, beq_eq_decide] using found

end Distinct

/-- A store that allows exactly the operations of some inputs. -/
structure Allows (store : PersistedOperations) (settings : Settings)
    (inputs : List OperationInput) : Prop where
  size : store.records.size = (OperationCompiler.operations inputs).length
  operationName? : ∀ record ∈ OperationCompiler.records settings inputs,
    store.operationName? record.hash = some record.operationName
  body? : ∀ record ∈ OperationCompiler.records settings inputs,
    store.body? record.hash = some record.body
  hash : ∀ record ∈ OperationCompiler.records settings inputs,
    (store.body? record.hash).map OperationBody.hash = some record.hash
  nothing_else : ∀ hash,
    (∀ record ∈ OperationCompiler.records settings inputs, record.hash ≠ hash) →
      store.operationName? hash = none ∧ store.body? hash = none

/-- Without collisions, the registries of a compilation make a store that allows exactly their
operations, whichever order they are in, and that agrees with each registry on its hashes. -/
theorem allows_ofRegistries {settings : Settings} {inputs : List OperationInput}
    {registries order : List OperationRegistry}
    (compiles : OperationCompiler.compile settings inputs = .ok registries)
    (perm : order.Perm registries)
    (noCollision : OperationCompiler.NoCollision settings inputs) :
    (ofRegistries order).Allows settings inputs ∧
      ∀ registry ∈ registries, ∀ record ∈ registry.operations,
        registry.find? record.hash = (ofRegistries order).find? record.hash := by
  have allPerm := perm.flatMap_right OperationRegistry.operations
  have shown : OperationCompiler.records settings inputs =
      registries.flatMap OperationRegistry.operations := by
    rw [OperationCompiler.records, compiles]
  rcases OperationCompiler.nodup_hashes compiles noCollision with ⟨registriesDistinct, length⟩
  have distinct :
      ((order.flatMap OperationRegistry.operations).map OperationRecord.hash).Nodup :=
    (allPerm.map OperationRecord.hash).nodup_iff.mpr registriesDistinct
  have found : ∀ record ∈ OperationCompiler.records settings inputs,
      (ofRegistries order).find? record.hash = some record := by
    intro record record_mem
    rw [shown, ← allPerm.mem_iff] at record_mem
    rcases List.mem_flatMap.mp record_mem with ⟨registry, registry_mem, record_mem⟩
    exact (find?_eq_of_mem distinct registry_mem record_mem).1
  have bodies : ∀ record ∈ OperationCompiler.records settings inputs,
      (ofRegistries order).body? record.hash = some record.body := by
    intro record record_mem
    rw [body?, found record record_mem, Option.map_some]
  refine ⟨⟨?_, ?_, bodies, ?_, ?_⟩, ?_⟩
  · rw [size_ofRegistries distinct, allPerm.length_eq, length]
  · intro record record_mem
    rw [operationName?, found record record_mem, Option.map_some]
  · intro record record_mem
    rw [bodies record record_mem, Option.map_some,
      OperationCompiler.hash_of_mem_records record_mem]
  · intro hash absent
    have missing : (ofRegistries order).find? hash = none := by
      rw [find?_ofRegistries distinct, List.find?_eq_none]
      intro record record_mem
      rw [allPerm.mem_iff, ← shown] at record_mem
      simpa using absent record record_mem
    rw [operationName?, body?, missing]
    exact ⟨rfl, rfl⟩
  · intro registry registry_mem record record_mem
    rcases find?_eq_of_mem distinct (perm.mem_iff.mpr registry_mem) record_mem with
      ⟨inStore, inRegistry⟩
    rw [inStore, inRegistry]

theorem allows_ofRegistries_twoDestinations :
    ∃ registries, OperationCompiler.compile .standard OperationCompiler.twoDestinations =
        .ok registries ∧
      (ofRegistries registries.reverse).Allows .standard OperationCompiler.twoDestinations ∧
      ∀ registry ∈ registries, ∀ record ∈ registry.operations,
        registry.find? record.hash = (ofRegistries registries.reverse).find? record.hash := by
  have noCollision :
      OperationCompiler.NoCollision .standard OperationCompiler.twoDestinations :=
    OperationCompiler.noCollision_of_pairwise (by decide +kernel)
  rcases OperationCompiler.exists_compile_of_records_ne_nil
    (show OperationCompiler.records .standard OperationCompiler.twoDestinations ≠ [] by
      decide +kernel) with ⟨registries, compiles⟩
  exact ⟨registries, compiles,
    allows_ofRegistries compiles (List.reverse_perm registries) noCollision⟩

end PersistedOperations

end WiredGraph
