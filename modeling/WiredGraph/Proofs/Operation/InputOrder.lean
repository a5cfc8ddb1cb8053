import Mathlib.Data.List.Perm.Basic
import WiredGraph.Proofs.Operation.Compilation

/-!
# The order of inputs

Which documents operations are compiled from first does not matter as long as every fragment has
one definition. The fragments found for a name are then the same in every order, so each operation
is accepted by itself in the same way, and that no two share kind and name is no question of order.
What the order of the inputs decides is the order of registries and of the records in them.
-/

namespace WiredGraph

namespace Fragments

variable {fragments others : Fragments}

/-- A set uses the same fragments, found in the same order, wherever names lead to the same
fragments. -/
theorem closure_of_get?_eq (same : fragments.get? = others.get?) {set : SelectionSet}
    {used : List String} (ended : fragments.closure set = .ok used) :
    others.closure set = .ok used := by
  refine closure_agree rfl ?_ ended
  intro name _
  rw [spreadsOf, spreadsOf, same]

theorem render_of_get?_eq (same : fragments.get? = others.get?) (operation : OperationDefinition)
    (used : List String) :
    OperationBody.render fragments operation used = OperationBody.render others operation used := by
  rw [OperationBody.render, OperationBody.render, same]

end Fragments

theorem OperationCandidate.AcceptedAs.of_get?_eq {fragments others : Fragments}
    (same : fragments.get? = others.get?) {candidate : OperationCandidate}
    {accepted : AcceptedOperation} (accepts : candidate.AcceptedAs fragments accepted) :
    candidate.AcceptedAs others accepted :=
  { accepts with fragments := Fragments.closure_of_get?_eq same accepts.fragments }

theorem AcceptedOperation.record_of_get?_eq {fragments others : Fragments}
    (same : fragments.get? = others.get?) (accepted : AcceptedOperation) :
    accepted.record fragments = accepted.record others := by
  rw [record, record, Fragments.render_of_get?_eq same]

namespace OperationCompiler

/-- Two lists of registries are for the same destinations and have the same records for each of
them, each record as often, in whatever order. -/
structure SameUpToOrder (registries others : List OperationRegistry) : Prop where
  destinations : (registries.map OperationRegistry.destination).Perm
    (others.map OperationRegistry.destination)
  operations : ∀ registry ∈ registries, ∀ other ∈ others,
    registry.destination = other.destination → registry.operations.Perm other.operations

/-- Registries that the same records are collected in are the same up to order, in whatever order
the records came. -/
theorem CollectedIn.sameUpToOrder {compiled others : List (String × OperationRecord)}
    {registries otherRegistries : List OperationRegistry}
    (collected : CollectedIn compiled registries)
    (alsoCollected : CollectedIn others otherRegistries)
    (reordered : compiled.Perm others) : SameUpToOrder registries otherRegistries where
  destinations := by
    rw [collected.destinations, alsoCollected.destinations,
      List.perm_ext_iff_of_nodup (Distinct.nodup_eraseDups _) (Distinct.nodup_eraseDups _)]
    intro destination
    rw [List.mem_eraseDups, List.mem_eraseDups]
    exact (reordered.map Prod.fst).mem_iff
  operations registry registry_mem other other_mem same := by
    rw [collected.operations registry registry_mem, alsoCollected.operations other other_mem, same]
    exact (reordered.filter _).map Prod.snd

section Permutations

variable {settings : Settings} {inputs others : List OperationInput}

/-- Fragments with different names are found in whatever order their documents come. -/
theorem get?_fragments_of_perm (reordered : inputs.Perm others)
    (distinct : (((documents inputs).flatMap Document.fragments).map (·.name.text)).Nodup) :
    (fragments inputs).get? = (fragments others).get? := by
  rw [fragments_get?_eq, fragments_get?_eq]
  funext name
  have moved : ((documents inputs).flatMap Document.fragments).Perm
      ((documents others).flatMap Document.fragments) :=
    (reordered.flatMap_right _).flatMap_right _
  have alsoDistinct := (moved.map (·.name.text)).nodup_iff.mp distinct
  rw [Document.lastFragment?, Document.lastFragment?,
    Distinct.find?_key_perm distinct (List.reverse_perm _),
    Distinct.find?_key_perm alsoDistinct (List.reverse_perm _),
    Distinct.find?_key_perm alsoDistinct moved]

/-- Inputs in another order can be compiled if the inputs can, to the same registries up to order.
The accepted operations are put in the order of the other inputs. -/
theorem exists_compile_of_perm (reordered : inputs.Perm others)
    (same : (fragments inputs).get? = (fragments others).get?)
    {registries : List OperationRegistry} (compiles : compile settings inputs = .ok registries) :
    ∃ otherRegistries, compile settings others = .ok otherRegistries ∧
      SameUpToOrder registries otherRegistries := by
  rcases compile_eq_ok_iff.mp compiles with ⟨clean, accepted, related, distinct, rfl⟩
  have moved : (operations others).Perm (operations inputs) := reordered.symm.flatMap_right _
  obtain ⟨otherAccepted, otherRelated, arranged⟩ := List.perm_comp_forall₂ moved related
  have routedSame : routed settings (fragments inputs) = routed settings (fragments others) := by
    funext operation
    rw [routed, routed, operation.record_of_get?_eq same]
  refine ⟨_, compile_eq_ok_iff.mpr ⟨?_, otherAccepted, ?_, ?_, rfl⟩, ?_⟩
  · intro input input_mem
    exact clean input (reordered.mem_iff.mpr input_mem)
  · exact otherRelated.imp fun _ _ accepts => accepts.of_get?_eq same
  · exact (arranged.map _).nodup_iff.mpr distinct
  · rw [← routedSame]
    exact (collectedIn_values_foldl_route _).sameUpToOrder (collectedIn_values_foldl_route _)
      (arranged.symm.map _)

/-- Inputs in which no fragment is defined twice can be compiled in every order or in none, and in
every order to the same registries up to the order of registries and records. -/
theorem compile_perm (reordered : inputs.Perm others)
    (distinct : (((documents inputs).flatMap Document.fragments).map (·.name.text)).Nodup) :
    ((∃ registries, compile settings inputs = .ok registries) ↔
        ∃ registries, compile settings others = .ok registries) ∧
      ∀ registries otherRegistries, compile settings inputs = .ok registries →
        compile settings others = .ok otherRegistries →
          SameUpToOrder registries otherRegistries := by
  have same := get?_fragments_of_perm reordered distinct
  refine ⟨⟨?_, ?_⟩, ?_⟩
  · rintro ⟨registries, compiles⟩
    rcases exists_compile_of_perm reordered same compiles with ⟨otherRegistries, alsoCompiles, -⟩
    exact ⟨otherRegistries, alsoCompiles⟩
  · rintro ⟨registries, compiles⟩
    rcases exists_compile_of_perm reordered.symm same.symm compiles with
      ⟨otherRegistries, alsoCompiles, -⟩
    exact ⟨otherRegistries, alsoCompiles⟩
  · intro registries otherRegistries compiles alsoCompiles
    rcases exists_compile_of_perm reordered same compiles with ⟨found, foundCompiles, upToOrder⟩
    obtain rfl := Except.ok.inj (foundCompiles.symm.trans alsoCompiles)
    exact upToOrder

theorem compile_perm_twoDestinations :
    twoDestinations.reverse ≠ twoDestinations ∧ twoDestinations.reverse.Perm twoDestinations ∧
      (((documents twoDestinations.reverse).flatMap Document.fragments).map (·.name.text)).Nodup ∧
      ∃ registries otherRegistries,
        compile .standard twoDestinations.reverse = .ok registries ∧
          compile .standard twoDestinations = .ok otherRegistries ∧
            SameUpToOrder registries otherRegistries := by
  have reordered : twoDestinations.reverse.Perm twoDestinations := List.reverse_perm _
  have distinct : (((documents twoDestinations.reverse).flatMap Document.fragments).map
      (·.name.text)).Nodup := by decide +kernel
  have some_record : records .standard twoDestinations ≠ [] := by decide +kernel
  rcases exists_compile_of_records_ne_nil some_record with ⟨otherRegistries, alsoCompiles⟩
  rcases (compile_perm reordered distinct).1.mpr ⟨otherRegistries, alsoCompiles⟩ with
    ⟨registries, compiles⟩
  have moved : twoDestinations.reverse.map (·.documents.length) ≠
      twoDestinations.map (·.documents.length) := by decide
  exact ⟨fun same => moved (by rw [same]), reordered, distinct, registries, otherRegistries,
    compiles, alsoCompiles,
    (compile_perm reordered distinct).2 registries otherRegistries compiles alsoCompiles⟩

end Permutations

end OperationCompiler

end WiredGraph
