import WiredGraph.Proofs.Operation.Compilation

/-!
# Operations and fragments of sources

What operation documents are read as is well-formed, so that it can be printed again. Texts in it
are block strings only if some source has one.
-/

namespace WiredGraph

namespace Document

/-- A fragment that is found under a name has that name and stands in one of the documents. -/
theorem of_lastFragment?_eq_some {documents : List Document} {name : String}
    {fragment : FragmentDefinition} (found : lastFragment? documents name = some fragment) :
    fragment.name.text = name ∧ ∃ document ∈ documents, fragment ∈ document.fragments := by
  refine ⟨by simpa using List.find?_some found, ?_⟩
  exact List.mem_flatMap.mp (List.mem_reverse.mp (List.mem_of_find?_eq_some found))

end Document

namespace OperationCompiler

variable {blocks : Prop} {inputs : List OperationInput}

/-- The operations of some inputs are well-formed. -/
theorem wellFormed_of_mem_operations
    (allowed : ∀ input ∈ inputs, ∀ file ∈ input.documents, ∀ token ∈ Scan.tokens file.chars,
      token.kind = .blockString → blocks) :
    ∀ candidate ∈ operations inputs, candidate.definition.WellFormed blocks := by
  intro candidate candidate_mem
  rcases List.mem_flatMap.mp candidate_mem with ⟨input, input_mem, offered⟩
  rcases List.mem_flatMap.mp offered with ⟨source, source_mem, offered⟩
  rcases List.mem_map.mp source_mem with ⟨file, file_mem, rfl⟩
  rcases List.mem_map.mp offered with ⟨operation, operation_mem, rfl⟩
  exact SourceFile.good_of_mem_definitions (allowed input input_mem file file_mem) _
    (Document.mem_operations.mp operation_mem)

theorem wellFormed_of_get?
    (allowed : ∀ input ∈ inputs, ∀ file ∈ input.documents, ∀ token ∈ Scan.tokens file.chars,
      token.kind = .blockString → blocks)
    {name : String} {fragment : FragmentDefinition}
    (defined : (fragments inputs).get? name = some fragment) : fragment.WellFormed blocks := by
  rw [fragments_get?_eq] at defined
  rcases Document.of_lastFragment?_eq_some defined with ⟨-, document, document_mem, fragment_mem⟩
  rcases List.mem_flatMap.mp document_mem with ⟨input, input_mem, document_mem⟩
  rcases List.mem_map.mp document_mem with ⟨source, source_mem, rfl⟩
  rcases List.mem_map.mp source_mem with ⟨file, file_mem, rfl⟩
  exact SourceFile.good_of_mem_definitions (allowed input input_mem file file_mem) _
    (Document.mem_fragments.mp fragment_mem)

theorem wellFormed_of_acceptedAs
    (allowed : ∀ input ∈ inputs, ∀ file ∈ input.documents, ∀ token ∈ Scan.tokens file.chars,
      token.kind = .blockString → blocks)
    {candidate : OperationCandidate} (candidate_mem : candidate ∈ operations inputs)
    {accepted : AcceptedOperation} (accepts : candidate.AcceptedAs (fragments inputs) accepted) :
    accepted.definition.WellFormed blocks :=
  accepts.definition ▸ wellFormed_of_mem_operations allowed candidate candidate_mem

end OperationCompiler

end WiredGraph
