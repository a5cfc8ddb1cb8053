import WiredGraph.Compile.Sources
import WiredGraph.Proofs.Document.Parser.Soundness
import WiredGraph.Proofs.Success

/-!
# Sources that can be read

A compilation reads all of its sources first. It gets their documents exactly if none has a fault,
and what stands in a document is well-formed: texts in it are block strings only if the source has
one.
-/

namespace WiredGraph

namespace Document

/-- The parts that are taken out of definitions of one form are those that stand in them. -/
theorem mem_filterMap_iff {Part : Type} {part? : Definition → Option Part}
    {form : Part → Definition} (taken : ∀ definition part,
      part? definition = some part ↔ definition = form part)
    {definitions : List Definition} {part : Part} :
    part ∈ definitions.filterMap part? ↔ form part ∈ definitions := by
  simp [List.mem_filterMap, taken]

theorem mem_types {document : Document} {definition : TypeDefinition} :
    definition ∈ document.types ↔ .type definition ∈ document.definitions := by
  refine mem_filterMap_iff fun whole part => ?_
  cases whole <;> simp [Definition.type?]

theorem mem_extensions {document : Document} {addition : TypeDefinition} :
    addition ∈ document.extensions ↔ .extension addition ∈ document.definitions := by
  refine mem_filterMap_iff fun whole part => ?_
  cases whole <;> simp [Definition.extension?]

theorem mem_operations {document : Document} {operation : OperationDefinition} :
    operation ∈ document.operations ↔ .operation operation ∈ document.definitions := by
  refine mem_filterMap_iff fun definition part => ?_
  cases definition <;> simp [Definition.operation?]

theorem mem_fragments {document : Document} {fragment : FragmentDefinition} :
    fragment ∈ document.fragments ↔ .fragment fragment ∈ document.definitions := by
  refine mem_filterMap_iff fun definition part => ?_
  cases definition <;> simp [Definition.fragment?]

end Document

namespace SourceFile

/-- The document of a source up to its first fault. -/
def document (file : SourceFile) : Document :=
  match Document.parse file.chars with
  | .ok parsed => parsed.document
  | .error _ => ⟨[], .empty 0⟩

/-- A source is clean if its document can be read to the end. -/
def IsClean (file : SourceFile) : Prop :=
  ∃ parsed, Document.parse file.chars = .ok parsed ∧ parsed.fault = none

instance (file : SourceFile) : Decidable file.IsClean :=
  match parsed : Document.parse file.chars with
  | .ok result => decidable_of_iff (result.fault.isNone = true) (by simp [IsClean, parsed])
  | .error _ => isFalse (by simp [IsClean, parsed])

/-- A source and its document. -/
def parsed (file : SourceFile) : ParsedSource := ⟨file, file.document⟩

/-- A source leads to its document exactly if it is clean. -/
theorem read_ofRead_eq_ok_iff {file : SourceFile} {source : ParsedSource} :
    (∃ read, file.read = .ok read ∧ ParsedSource.ofRead read = .ok source) ↔
      file.IsClean ∧ file.parsed = source := by
  simp only [read, IsClean, parsed, document]
  cases outcome : Document.parse file.chars with
  | error block => simp
  | ok parsed => cases clean : parsed.fault <;> simp [ParsedSource.ofRead, clean]

/-- A file without block strings. -/
def HasNoBlock (file : SourceFile) : Prop :=
  ∀ token ∈ Scan.tokens file.chars, token.kind ≠ .blockString

instance (file : SourceFile) : Decidable file.HasNoBlock :=
  inferInstanceAs (Decidable (∀ token ∈ Scan.tokens file.chars, token.kind ≠ .blockString))

open Reading (GoodDefinition)

theorem good_of_mem_definitions {blocks : Prop} {file : SourceFile}
    (allowed : ∀ token ∈ Scan.tokens file.chars, token.kind = .blockString → blocks) :
    ∀ definition ∈ file.document.definitions, GoodDefinition blocks definition := by
  rw [document]
  split
  · next parsed => exact Document.good_of_parse allowed parsed
  · simp

end SourceFile

namespace ParsedSource

/-- Sources lead to their documents exactly if all of them are clean. -/
theorem readAll_eq_ok_iff {files : List SourceFile} {sources : List ParsedSource} :
    (∃ read, files.mapM SourceFile.read = .ok read ∧ read.mapM ofRead = .ok sources) ↔
      (∀ file ∈ files, file.IsClean) ∧ files.map SourceFile.parsed = sources := by
  rw [Success.mapM_mapM_eq_ok_iff]
  simp only [SourceFile.read_ofRead_eq_ok_iff, Success.forall₂_and_eq_iff]

theorem ofFiles_eq_ok_iff {files : List SourceFile} {sources : List ParsedSource} :
    ofFiles files = .ok sources ↔
      (∀ file ∈ files, file.IsClean) ∧ files.map SourceFile.parsed = sources := by
  rw [ofFiles, Success.bind_eq_ok, readAll_eq_ok_iff]

end ParsedSource

end WiredGraph
