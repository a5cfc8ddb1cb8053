import WiredGraph.Operation.Codec
import WiredGraph.Proofs.Json.Decode
import WiredGraph.Proofs.Json.RoundTrip

/-!
# Registries are decoded from what is written for them

Every registry has a proper written form, from which it is decoded with its records and its hashes
in the same order.
-/

namespace WiredGraph

open Json (givenMembers)

theorem OperationKind.restores_text :
    Restores OperationKind.ofJson? (fun kind => .string kind.text) fun _ => True :=
  restores_of_eq fun kind => by cases kind <;> rfl

namespace OperationRecord

/-- The fields of the written form. -/
def jsonFields (record : OperationRecord) : List (String × Option Json) :=
  [("kind", some (.string record.kind.text)),
    ("operation_name", some (.string record.operationName)),
    ("constant_name", some (.string record.constantName)),
    ("hash", some (.string record.hash)), ("body", some (.string record.body)),
    ("origin_file", some (.string record.originFile)),
    ("origin_line", some (.ofUInt32 record.originLine)),
    ("module", if record.module.isEmpty then none else some (.string record.module))]

theorem toJson_eq (record : OperationRecord) :
    record.toJson = .object (givenMembers record.jsonFields) := by
  rw [toJson, jsonFields]
  split <;> rfl

theorem restores_toJson : Restores ofJson? toJson fun _ => True := by
  intro record found
  have given : Json.fields? ["kind", "operation_name", "constant_name", "hash", "body",
      "origin_file", "origin_line", "module"] record.toJson =
        some (record.jsonFields.map Prod.snd) :=
    Json.fields?_of_eq record.toJson_eq rfl (by decide)
  have line : Restores Json.asUInt32? .ofUInt32 fun _ => True :=
    restores_of_eq Json.asUInt32?_ofUInt32
  have module := Json.defaulted?_unless Json.restores_asString?
    fun (empty : record.module.isEmpty = true) => ⟨trivial, String.isEmpty_iff.mp empty⟩
  rw [ofJson?, given]
  simp only [jsonFields, List.map_cons, List.map_nil, Option.bind_eq_bind, Option.bind_some,
    Option.bind_eq_some_iff, Option.pure_def, Option.some_inj, module,
    Json.required?_some OperationKind.restores_text, Json.required?_some Json.restores_asString?,
    Json.required?_some line]
  simp

end OperationRecord

namespace OperationRegistry

/-- The fields of the written form of a registry. -/
def jsonFields (registry : OperationRegistry) : List (String × Option Json) :=
  [("destination", some (.string registry.destination)),
    ("operations", some (.array (registry.operations.map OperationRecord.toJson))),
    ("hashes", some (.object (registry.hashes.entries.map fun (name, hash) =>
      (name, .string hash))))]

theorem toJson_eq (registry : OperationRegistry) :
    registry.toJson = .object (givenMembers registry.jsonFields) := rfl

/-- A registry is decoded as it was. -/
theorem restores_toJson : Restores ofJson? toJson fun _ => True := by
  intro registry found
  have given : Json.fields? ["destination", "operations", "hashes"] registry.toJson =
      some (registry.jsonFields.map Prod.snd) :=
    Json.fields?_of_eq registry.toJson_eq rfl (by decide)
  have operations := Json.required?_some (Json.restores_asList? OperationRecord.restores_toJson)
    registry.operations
  have hashes := Json.required?_some (Json.restores_asMap? Json.restores_asString?)
    registry.hashes
  rw [ofJson?, given]
  simp only [jsonFields, List.map_cons, List.map_nil, Option.bind_eq_bind, Option.bind_some,
    Option.bind_eq_some_iff, Option.pure_def, Option.some_inj, operations, hashes,
    Json.required?_some Json.restores_asString?]
  simp

/-- No floating point number stands in a written registry. -/
theorem floats_toJson (registry : OperationRegistry) : registry.toJson.floats = [] := by
  have record : ∀ record : OperationRecord, record.toJson.floats = [] := by
    intro record
    rw [OperationRecord.toJson]
    split <;> rfl
  simp only [toJson, Json.floats, Json.floatsOfMembers, Json.floatsOfItems_eq_flatMap,
    Json.floatsOfMembers_eq_flatMap, List.flatMap_map, record]
  simp

/-- A written registry nests its records in a list in an object. -/
theorem depth_toJson_le (registry : OperationRegistry) : registry.toJson.depth ≤ 3 := by
  have record : ∀ record : OperationRecord, record.toJson.depth ≤ 1 := by
    intro record
    rw [OperationRecord.toJson]
    split <;> exact Nat.le_refl 1
  have operations : (Json.array (registry.operations.map OperationRecord.toJson)).depth ≤ 2 :=
    Nat.succ_le_succ (Json.depthOfItems_le_iff.mpr (by simpa using fun item _ => record item))
  have hashes : (Json.object (registry.hashes.entries.map fun (name, hash) =>
      (name, .string hash))).depth ≤ 1 :=
    Nat.succ_le_succ (Json.depthOfMembers_le_iff.mpr (by
      rw [List.forall_mem_map]
      exact fun _ _ => Nat.le_refl 0))
  refine Nat.succ_le_succ (Json.depthOfMembers_le_iff.mpr ?_)
  rw [List.forall_mem_cons, List.forall_mem_cons, List.forall_mem_singleton]
  exact ⟨Nat.zero_le 2, operations, Nat.le_succ_of_le hashes⟩

/-- The artifact of a registry is read back as the registry. -/
theorem ofArtifact?_artifact (registry : OperationRegistry) :
    ofArtifact? registry.artifact = some registry := by
  have noFloats : ∀ number ∈ registry.toJson.floats, number.IsReadBack := by
    rw [floats_toJson]
    exact nofun
  have shallow : registry.toJson.depth ≤ JsonReading.depthLimit :=
    Nat.le_trans registry.depth_toJson_le (by decide)
  rw [ofArtifact?, artifact, Json.ofText?_prettyText noFloats, Option.guard,
    if_pos (decide_eq_true shallow), Option.bind_some]
  exact restores_toJson.eq_some trivial

end OperationRegistry

end WiredGraph
