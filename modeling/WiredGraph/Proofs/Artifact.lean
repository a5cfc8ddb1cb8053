import WiredGraph.Proofs.Descriptor.RoundTrip
import WiredGraph.Proofs.Operation.RoundTrip

/-!
# Nothing is lost in artifacts

What is compiled reaches the runtime as text. Both kinds of artifacts are read back as what they
were written for: nothing is dropped, added or put in another order on the way. For tables of
descriptors this depends on the floating point numbers and on how deep they nest.
-/

namespace WiredGraph

/-- A table with finite default values, and any registry, is read back from its artifact. -/
theorem artifacts_are_lossless :
    (∀ table : DescriptorTable, (∀ value ∈ table.defaults, value.isFinite) →
      table.toJson.depth ≤ JsonReading.depthLimit →
        (∀ number ∈ table.toJson.floats, number.IsReadBack) →
          DescriptorTable.ofArtifact? table.artifact = some table) ∧
      ∀ registry : OperationRegistry,
        OperationRegistry.ofArtifact? registry.artifact = some registry := by
  constructor
  · intro table finite shallow exact
    exact (DescriptorTable.ofArtifact?_artifact_eq_some_iff exact table).mpr
      ⟨finite, shallow, rfl⟩
  · exact OperationRegistry.ofArtifact?_artifact

/-- The number 1.5. -/
def threeHalves : Binary64 :=
  ⟨false, 0x18000000000000, 1022, by decide, by decide, .inl (by decide)⟩

/-- A table with a default value that is null and one that is missing, with numbers and nested data
in several places, and with a text of quotation marks, a backslash and other characters. -/
def gardenTable : DescriptorTable where
  module := "garden"
  types := ⟨[
    ("Query", [⟨"Query", some "\"all\" \\ \n\x01 gr\u00fcn", "garden",
      [⟨"cached", ⟨[("ttl", .ofJson (.object [("hours", .number (.floating threeHalves)),
          ("fresh", .bool true)])), ("by", .ofJson (.array [.null, .string "user"]))],
        by decide⟩⟩],
      .object [
        ⟨"beds", .nonNull (.list (.named "Bed")), none, none, some (.service "beds"), [],
          [⟨"shape", .named "Shape", none, some .null⟩,
            ⟨"sizes", .list (.named "Float"), some "",
              some (.list [.float (.finite threeHalves), .int (-3), .list []])⟩]⟩,
        ⟨"owner", .named "String", none, some (.enum "ME"), none, [], []⟩]
        (some (.staticMethod "Garden" "resolve")) ["Node"]⟩]),
    ("Shape", [⟨"Shape", none, "garden", [], .enum ⟨[("ROUND", "ROUND"), ("LONG", "LONG")],
      by decide⟩⟩])],
    by decide⟩

theorem artifacts_are_lossless_gardenTable :
    (∀ value ∈ gardenTable.defaults, value.isFinite) ∧
      gardenTable.toJson.depth ≤ JsonReading.depthLimit ∧
        (∀ number ∈ gardenTable.toJson.floats, number.IsReadBack) ∧
          DescriptorTable.ofArtifact? gardenTable.artifact = some gardenTable := by
  have finite : ∀ value ∈ gardenTable.defaults, value.isFinite := by
    have each : gardenTable.defaults.all DefaultValue.isFinite = true := by decide +kernel
    simpa using each
  have shallow : gardenTable.toJson.depth ≤ JsonReading.depthLimit := by decide +kernel
  have exact : ∀ number ∈ gardenTable.toJson.floats, number.IsReadBack := by decide +kernel
  exact ⟨finite, shallow, exact, artifacts_are_lossless.1 gardenTable finite shallow exact⟩

end WiredGraph
