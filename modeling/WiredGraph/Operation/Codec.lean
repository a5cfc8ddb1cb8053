import WiredGraph.Json.Decode
import WiredGraph.Json.Reader
import WiredGraph.Json.Writer
import WiredGraph.Operation.Record

/-!
# Registries as JSON

Records and registries are written with their fields in a fixed order; the module label is left out
when it is empty.
-/

namespace WiredGraph

namespace OperationKind

/-- The kind that a value names. -/
def ofJson? (value : Json) : Option OperationKind :=
  match value.variantName? with
  | some "query" => some .query
  | some "mutation" => some .mutation
  | _ => none

end OperationKind

namespace OperationRecord

/-- The written form. -/
def toJson (record : OperationRecord) : Json :=
  .object ([
    ("kind", .string record.kind.text),
    ("operation_name", .string record.operationName),
    ("constant_name", .string record.constantName),
    ("hash", .string record.hash),
    ("body", .string record.body),
    ("origin_file", .string record.originFile),
    ("origin_line", .ofUInt32 record.originLine)] ++
    if record.module.isEmpty then [] else [("module", .string record.module)])

/-- The record that a value describes. -/
def ofJson? (value : Json) : Option OperationRecord := do
  let string? := Json.required? Json.asString?
  match ← Json.fields? ["kind", "operation_name", "constant_name", "hash", "body", "origin_file",
      "origin_line", "module"] value with
  | [kind, operationName, constantName, hash, body, originFile, originLine, module] =>
      return ⟨← Json.required? OperationKind.ofJson? kind, ← string? operationName,
        ← string? constantName, ← string? hash, ← string? body, ← string? originFile,
        ← Json.required? Json.asUInt32? originLine, ← Json.defaulted? Json.asString? "" module⟩
  | _ => none

end OperationRecord

namespace OperationRegistry

/-- The written form. -/
def toJson (registry : OperationRegistry) : Json :=
  .object [
    ("destination", .string registry.destination),
    ("operations", .array (registry.operations.map OperationRecord.toJson)),
    ("hashes", .object (registry.hashes.entries.map fun (name, hash) => (name, .string hash)))]

/-- The registry that a value describes. -/
def ofJson? (value : Json) : Option OperationRegistry := do
  match ← Json.fields? ["destination", "operations", "hashes"] value with
  | [destination, operations, hashes] =>
      return ⟨← Json.required? Json.asString? destination,
        ← Json.required? (Json.asList? OperationRecord.ofJson?) operations,
        ← Json.required? (Json.asMap? Json.asString?) hashes⟩
  | _ => none

/-- The text of the artifact of a destination. -/
def artifact (registry : OperationRegistry) : String := registry.toJson.prettyText

/-- The registry in an artifact. -/
def ofArtifact? (text : String) : Option OperationRegistry := (Json.ofText? text).bind ofJson?

end OperationRegistry

end WiredGraph
