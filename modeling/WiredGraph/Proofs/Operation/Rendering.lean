import WiredGraph.Operation.Body
import WiredGraph.Proofs.Document.Parser.Completeness
import WiredGraph.Proofs.Document.Printing
import WiredGraph.Proofs.Operation.Typenames

/-!
# What a body says

A body spells the lexemes of its operation and of the fragments that the operation uses, all with
type names. It can therefore be read as a document of these definitions and of nothing else.
-/

namespace WiredGraph

open Scan

namespace Definition

theorem eq_operation_of_content {read : String → String} {found : Definition}
    {operation : OperationDefinition}
    (same : found.content read = (Definition.operation operation).content read) :
    ∃ other, found = .operation other ∧ other.content read = operation.content read := by
  cases found <;> simp [content] at same
  exact ⟨_, rfl, same⟩

theorem eq_fragment_of_content {read : String → String} {found : Definition}
    {fragment : FragmentDefinition}
    (same : found.content read = (Definition.fragment fragment).content read) :
    ∃ other, found = .fragment other ∧ other.content read = fragment.content read := by
  cases found <;> simp [content] at same
  exact ⟨_, rfl, same⟩

theorem eq_fragments_of_contents {read : String → String} {found : List Definition}
    {fragments : List FragmentDefinition}
    (same : found.map (content read) = (fragments.map Definition.fragment).map (content read)) :
    ∃ others : List FragmentDefinition, found = others.map Definition.fragment ∧
      others.map (FragmentDefinition.content read) =
        fragments.map (FragmentDefinition.content read) := by
  induction fragments generalizing found with
  | nil => exact ⟨[], by simpa using same, rfl⟩
  | cons fragment rest ih =>
      cases found with
      | nil => simp at same
      | cons first later =>
          rcases List.cons.inj same with ⟨here, there⟩
          rcases eq_fragment_of_content here with ⟨other, rfl, equal⟩
          rcases ih there with ⟨others, rfl, equals⟩
          exact ⟨other :: others, rfl, by rw [List.map_cons, List.map_cons, equal, equals]⟩

end Definition

namespace OperationBody

variable {fragments : Fragments} {operation : OperationDefinition} {used : List String}

/-- The fragments of a body in the order in which they stand there. -/
def usedFragments (fragments : Fragments) (used : List String) : List FragmentDefinition :=
  (used.reverse.filterMap fragments.get?).map FragmentDefinition.withTypenames

/-- What a body is rendered from: the operation with type names and the fragments it uses. -/
def definitions (fragments : Fragments) (operation : OperationDefinition) (used : List String) :
    List Definition :=
  .operation operation.withTypenames :: (usedFragments fragments used).map .fragment

theorem toList_render (fragments : Fragments) (operation : OperationDefinition)
    (used : List String) :
    (render fragments operation used).toList =
      operation.withTypenames.print ++
        if used.isEmpty then []
        else '\n' :: Text.join ['\n']
          ((usedFragments fragments used).map FragmentDefinition.print) := by
  rw [render, String.toList_ofList, usedFragments, List.map_map, List.map_filterMap]
  rfl

/-- A body spells the lexemes of its definitions, as the line feed before the first fragment ends
the last token of the operation. -/
theorem spells_render (operationWellFormed : operation.WellFormed False)
    (fragmentsWellFormed : ∀ name ∈ used, ∀ fragment ∈ fragments.get? name,
      fragment.WellFormed False) :
    (∀ definition ∈ definitions fragments operation used, definition.WellFormed False) ∧
      Spells (render fragments operation used).toList
        ((definitions fragments operation used).map Definition.lexemes).flatten := by
  have head : operation.withTypenames.WellFormed False := operationWellFormed.withTypenames
  have each : ∀ fragment ∈ usedFragments fragments used, fragment.WellFormed False := by
    rw [usedFragments]
    refine List.forall_mem_map.mpr fun fragment fragment_mem => ?_
    rcases List.mem_filterMap.mp fragment_mem with ⟨name, name_mem, defined⟩
    exact (fragmentsWellFormed name (List.mem_reverse.mp name_mem) fragment defined).withTypenames
  refine ⟨List.forall_mem_cons.mpr ⟨head, List.forall_mem_map.mpr each⟩, ?_⟩
  have fragmentsPrint : Prints
      (Text.join ['\n'] ((usedFragments fragments used).map FragmentDefinition.print))
      ((usedFragments fragments used).map FragmentDefinition.lexemes).flatten :=
    Layout.prints_join (by decide) (fun _ => keepsApart_cons (by decide))
      fun fragment fragment_mem => (each fragment fragment_mem).prints
  have same : ((definitions fragments operation used).map Definition.lexemes).flatten =
      operation.withTypenames.lexemes ++
        ((usedFragments fragments used).map FragmentDefinition.lexemes).flatten := by
    rw [definitions, List.map_cons, List.flatten_cons, List.map_map]
    rfl
  rw [toList_render, same]
  apply Prints.spells
  refine head.prints.append ?_ ?_
  · split
    · next none_used =>
        rw [List.isEmpty_iff] at none_used
        subst none_used
        exact prints_nil
    · exact fragmentsPrint.ignored (by decide)
  · split
    · exact keepsApart_nil
    · exact keepsApart_cons (by decide)

/-- A body is read as its operation and the fragments that the operation uses, in their order. -/
theorem parse_render (operationWellFormed : operation.WellFormed False)
    (fragmentsWellFormed : ∀ name ∈ used, ∀ fragment ∈ fragments.get? name,
      fragment.WellFormed False) :
    ∃ (found : OperationDefinition) (others : List FragmentDefinition) (span : Span),
      Document.parse (render fragments operation used).toList =
        .ok ⟨⟨.operation found :: others.map .fragment, span⟩, none⟩ ∧
      found.content id = operation.withTypenames.content id ∧
      others.map (FragmentDefinition.content id) =
        (usedFragments fragments used).map (FragmentDefinition.content id) := by
  rcases spells_render operationWellFormed fragmentsWellFormed with ⟨wellFormed, spells⟩
  rcases Document.parse_of_spells wellFormed spells with ⟨found, span, parsed, same⟩
  cases found with
  | nil => simp [definitions] at same
  | cons first rest =>
      rcases List.cons.inj same with ⟨here, there⟩
      rcases Definition.eq_operation_of_content here with ⟨other, rfl, equal⟩
      rcases Definition.eq_fragments_of_contents there with ⟨others, rfl, equals⟩
      exact ⟨other, others, span, parsed, equal, equals⟩

end OperationBody

end WiredGraph
