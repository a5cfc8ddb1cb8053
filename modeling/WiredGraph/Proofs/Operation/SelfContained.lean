import WiredGraph.Proofs.Operation.Rendering
import WiredGraph.Proofs.Operation.Sources

/-!
# Bodies are complete

The body of a record has all that its operation needs: it consists of the operation and of the
fragments that the operation uses, each defined once. Compiled again as a document of its own it
leads to the same body. The fragments are found in the same order among those of the body as among
those of all documents, because the search only looks at what used fragments spread, and type names
are not added twice.
-/

namespace WiredGraph

namespace FragmentDefinition

theorem spreadNames_of_content {fragment other : FragmentDefinition}
    (same : other.content id = fragment.withTypenames.content id) :
    other.set.spreadNames = fragment.set.spreadNames := by
  have sets := congrArg (fun content => content.set.spreadNames) same
  simpa only [content, withTypenames, SelectionSet.spreadNames_content,
    SelectionSet.spreadNames_withTypenames] using sets

/-- What a fragment is printed as with type names is determined by its content. -/
theorem print_withTypenames_content (fragment : FragmentDefinition) :
    (fragment.content id).withTypenames.print = fragment.withTypenames.print := by
  rw [← content_withTypenames, print_content]

end FragmentDefinition

namespace OperationDefinition

theorem spreadNames_of_content {operation other : OperationDefinition}
    (same : other.content id = operation.withTypenames.content id) :
    other.set.spreadNames = operation.set.spreadNames := by
  have sets := congrArg (fun content => content.set.spreadNames) same
  simpa only [content, SelectionSet.spreadNames_content, spreadNames_withTypenames] using sets

/-- An operation with type names is printed again as it is. -/
theorem print_withTypenames_of_content {operation other : OperationDefinition}
    (same : other.content id = operation.withTypenames.content id) :
    other.withTypenames.print = operation.withTypenames.print := by
  have again := congrArg (fun content => content.withTypenames.print) same
  simpa only [← content_withTypenames, print_content, withTypenames_twice] using again

theorem print_withTypenames_content (definition : OperationDefinition) :
    (definition.content id).withTypenames.print = definition.withTypenames.print := by
  rw [← content_withTypenames, print_content]

theorem identity?_content (read : String → String) (definition : OperationDefinition) :
    (definition.content read).identity? = definition.identity? := by
  rcases definition with ⟨operation, - | name, _, _, _, _⟩ <;> rfl

theorem identity?_of_content {operation other : OperationDefinition}
    (same : other.content id = operation.withTypenames.content id) :
    other.identity? = operation.identity? := by
  rw [← identity?_content id other, same, identity?_content]
  rfl

end OperationDefinition

/-- Fragments that a body was read as, given the fragments and the names that it was made for. -/
structure Fragments.ReadAs (fragments : Fragments) (used : List String)
    (others : List FragmentDefinition) : Prop where
  distinct : used.Nodup
  defined : ∀ name ∈ used, ∃ fragment, fragments.get? name = some fragment ∧
    fragment.name.text = name
  contents : others.map (FragmentDefinition.content id) =
    (OperationBody.usedFragments fragments used).map (FragmentDefinition.content id)

namespace Fragments.ReadAs

variable {fragments : Fragments} {used : List String} {others : List FragmentDefinition}

theorem names (readAs : fragments.ReadAs used others) :
    others.map (·.name.text) = used.reverse := by
  have named : (used.reverse.filterMap fragments.get?).map (·.name.text) = used.reverse := by
    rw [List.map_filterMap]
    have each : ∀ name ∈ used.reverse,
        (fragments.get? name).map (·.name.text) = some name := by
      intro name name_mem
      rcases readAs.defined name (List.mem_reverse.mp name_mem) with ⟨fragment, defined, named⟩
      rw [defined, Option.map_some, named]
    rw [List.filterMap_congr each, List.filterMap_some]
  have same := congrArg (List.map fun fragment => fragment.name.text) readAs.contents
  rw [List.map_map, OperationBody.usedFragments, List.map_map, List.map_map] at same
  exact same.trans named

theorem nodup_names (readAs : fragments.ReadAs used others) :
    (others.map (·.name.text)).Nodup := by
  rw [readAs.names]
  exact (List.reverse_perm used).nodup_iff.mpr readAs.distinct

/-- The fragments by name, as they are found in the body. -/
theorem get?_eq (readAs : fragments.ReadAs used others) {document : Document}
    (same : document.fragments = others) (name : String) :
    (ofDocuments [document]).get? name = others.find? (·.name.text = name) := by
  rw [get?_ofDocuments, Document.lastFragment?, List.flatMap_singleton, same]
  exact Distinct.find?_key_perm readAs.nodup_names (List.reverse_perm others) name

theorem exists_fragment (readAs : fragments.ReadAs used others) {name : String}
    (name_mem : name ∈ used) :
    ∃ fragment other, fragments.get? name = some fragment ∧
      others.find? (·.name.text = name) = some other ∧
        other.content id = fragment.withTypenames.content id := by
  rcases readAs.defined name name_mem with ⟨fragment, defined, rfl⟩
  have shown : fragment.withTypenames.content id ∈ others.map (FragmentDefinition.content id) := by
    rw [readAs.contents]
    exact List.mem_map_of_mem (List.mem_map_of_mem
      (List.mem_filterMap.mpr ⟨_, List.mem_reverse.mpr name_mem, defined⟩))
  rcases List.mem_map.mp shown with ⟨other, other_mem, same⟩
  refine ⟨fragment, other, defined, ?_, same⟩
  have name_eq : other.name.text = fragment.name.text :=
    congrArg (fun content => content.name.text) same
  rw [← name_eq]
  exact Distinct.find?_key_eq_some readAs.nodup_names other_mem

theorem spreadsOf_eq (readAs : fragments.ReadAs used others) {document : Document}
    (same : document.fragments = others) {name : String} (name_mem : name ∈ used) :
    (ofDocuments [document]).spreadsOf name = fragments.spreadsOf name := by
  rcases readAs.exists_fragment name_mem with ⟨fragment, other, defined, found, content⟩
  rw [spreadsOf, spreadsOf, readAs.get?_eq same, found, defined]
  simp only [SelectionSet.spreads, FragmentDefinition.spreadNames_of_content content]

/-- The body is printed again with the same fragments in the same order. -/
theorem print_usedFragments (readAs : fragments.ReadAs used others) {document : Document}
    (same : document.fragments = others) :
    (OperationBody.usedFragments (ofDocuments [document]) used).map FragmentDefinition.print =
      (OperationBody.usedFragments fragments used).map FragmentDefinition.print := by
  have found : used.reverse.filterMap (ofDocuments [document]).get? = others := by
    have each : ∀ other ∈ others,
        ((ofDocuments [document]).get? ∘ fun other => other.name.text) other = some other := by
      intro other other_mem
      rw [Function.comp_apply, readAs.get?_eq same]
      exact Distinct.find?_key_eq_some readAs.nodup_names other_mem
    rw [← readAs.names, List.filterMap_map, List.filterMap_congr each, List.filterMap_some]
  have printed : ∀ list : List FragmentDefinition,
      (list.map (FragmentDefinition.content id)).map (fun content => content.withTypenames.print) =
        list.map fun fragment => fragment.withTypenames.print := by
    intro list
    rw [List.map_map]
    exact List.map_congr_left fun fragment _ => fragment.print_withTypenames_content
  have twice : (OperationBody.usedFragments fragments used).map
      (fun fragment => fragment.withTypenames.print) =
        (OperationBody.usedFragments fragments used).map FragmentDefinition.print := by
    rw [OperationBody.usedFragments, List.map_map, List.map_map]
    apply List.map_congr_left
    intro fragment _
    simp only [Function.comp_apply, FragmentDefinition.withTypenames_twice]
  rw [← twice, ← printed, ← readAs.contents, printed, OperationBody.usedFragments, found,
    List.map_map]
  rfl

end Fragments.ReadAs

/-- A document that a body is complete as: its operation, and one definition of each fragment
that the operation uses in it. -/
structure OperationRecord.IsComplete (record : OperationRecord) (operation : OperationDefinition)
    (others : List FragmentDefinition) : Prop where
  /-- The body can be read to its end, as these definitions and no others. -/
  parsed : ∃ span, Document.parse record.body.toList =
    .ok ⟨⟨.operation operation :: others.map .fragment, span⟩, none⟩
  identity : operation.identity? = some (record.kind, record.operationName)
  distinct : (others.map (·.name.text)).Nodup
  used : ∀ name, name ∈ others.map (·.name.text) ↔
    operation.set.Uses (fun other => others.find? (·.name.text = other)) name

/-- Whether a record is of the same operation as another one, with the same body and hash. It may
come from another place and belong to another constant. -/
structure OperationRecord.Repeats (record other : OperationRecord) : Prop where
  kind : record.kind = other.kind
  operationName : record.operationName = other.operationName
  body : record.body = other.body
  hash : record.hash = other.hash

namespace OperationCompiler

variable {inputs : List OperationInput} {candidate : OperationCandidate}
  {accepted : AcceptedOperation} {operation : OperationDefinition}
  {others : List FragmentDefinition} {span : Span}

/-- What the body of an accepted operation is read as. -/
structure BodyReadAs (inputs : List OperationInput) (accepted : AcceptedOperation)
    (operation : OperationDefinition) (others : List FragmentDefinition) (span : Span) :
    Prop where
  parsed : Document.parse (accepted.record (fragments inputs)).body.toList =
    .ok ⟨⟨.operation operation :: others.map .fragment, span⟩, none⟩
  sameOperation : operation.content id = accepted.definition.withTypenames.content id
  sameFragments : (fragments inputs).ReadAs accepted.fragments others

/-- The body of an accepted operation can be read if no source has a block string. The fragments of
the closure are found, so the body has one for every name. -/
theorem exists_bodyReadAs
    (noBlock : ∀ input ∈ inputs, ∀ file ∈ input.documents, file.HasNoBlock)
    (candidate_mem : candidate ∈ operations inputs)
    (accepts : candidate.AcceptedAs (fragments inputs) accepted) :
    ∃ operation others span, BodyReadAs inputs accepted operation others span := by
  have closed := Fragments.closed_of_closure accepts.fragments
  rcases OperationBody.parse_render (wellFormed_of_acceptedAs noBlock candidate_mem accepts)
    (fun name _ fragment defined => wellFormed_of_get? noBlock defined) with
    ⟨operation, others, span, parsed, same, contents⟩
  refine ⟨operation, others, span, parsed, same, closed.distinct, ?_, contents⟩
  intro name name_mem
  rcases Option.isSome_iff_exists.mp (closed.defined name name_mem) with ⟨fragment, defined⟩
  refine ⟨fragment, defined, ?_⟩
  rw [fragments_get?_eq] at defined
  exact (Document.of_lastFragment?_eq_some defined).1

/-- The fragments of a body are those that stand in the document that it is read as. -/
theorem fragments_mk (operation : OperationDefinition) (others : List FragmentDefinition)
    (span : Span) :
    (Document.mk (.operation operation :: others.map .fragment) span).fragments = others := by
  rw [Document.fragments]
  simp only [List.filterMap_cons, Definition.fragment?, List.filterMap_map]
  exact List.filterMap_some

theorem operations_mk (operation : OperationDefinition) (others : List FragmentDefinition)
    (span : Span) :
    (Document.mk (.operation operation :: others.map .fragment) span).operations =
      [operation] := by
  rw [Document.operations]
  simp only [List.filterMap_cons, Definition.operation?, List.filterMap_map, List.cons.injEq,
    true_and, List.filterMap_eq_nil_iff]
  exact fun other _ => rfl

/-- The fragments that the operation of a body uses are found again among those of the body. -/
theorem BodyReadAs.closure (readAs : BodyReadAs inputs accepted operation others span)
    (accepts : candidate.AcceptedAs (fragments inputs) accepted) :
    (Fragments.ofDocuments [⟨.operation operation :: others.map .fragment, span⟩]).closure
      operation.set = .ok accepted.fragments :=
  Fragments.closure_agree
    ((OperationDefinition.spreadNames_of_content readAs.sameOperation).trans
      (congrArg (fun definition => definition.set.spreadNames) accepts.definition))
    (fun _ name_mem =>
      readAs.sameFragments.spreadsOf_eq (fragments_mk operation others span) name_mem)
    accepts.fragments

theorem BodyReadAs.isComplete (readAs : BodyReadAs inputs accepted operation others span)
    (accepts : candidate.AcceptedAs (fragments inputs) accepted) :
    (accepted.record (fragments inputs)).IsComplete operation others where
  parsed := ⟨span, readAs.parsed⟩
  identity := by
    rw [OperationDefinition.identity?_of_content readAs.sameOperation, accepts.definition]
    exact accepts.identity
  distinct := readAs.sameFragments.nodup_names
  used name := by
    have closed := Fragments.closed_of_closure (readAs.closure accepts)
    have lookup := funext fun name =>
      readAs.sameFragments.get?_eq (fragments_mk operation others span) name
    rw [readAs.sameFragments.names, List.mem_reverse, closed.mem_iff, lookup]

theorem BodyReadAs.render_eq (readAs : BodyReadAs inputs accepted operation others span) :
    OperationBody.render
      (Fragments.ofDocuments [⟨.operation operation :: others.map .fragment, span⟩]) operation
        accepted.fragments = (accepted.record (fragments inputs)).body := by
  apply String.toList_injective
  rw [AcceptedOperation.record, OperationBody.toList_render, OperationBody.toList_render,
    OperationDefinition.print_withTypenames_of_content readAs.sameOperation,
    readAs.sameFragments.print_usedFragments (fragments_mk operation others span)]

/-- The metadata that is made up for an operation alone in a document has an entry for it. -/
theorem exists_entry_synthesize (file : SourceFile) {document : Document}
    (alone : document.operations = [operation]) {identity : OperationKind × String}
    (identified : operation.identity? = some identity) :
    ∃ entry, OperationCandidate.entryFor?
      ⟨⟨file, document⟩, operation, OperationMetadata.synthesize file document⟩ identity =
        some entry := by
  rcases identity with ⟨kind, name⟩
  have synthesized : OperationMetadata.synthesize file document =
      [⟨kind, name, ConstantName.ofOperation kind name, none,
        (file.lineOf operation.span).toUInt32⟩] := by
    simp [OperationMetadata.synthesize, alone, OperationMetadata.synthesizeOne?, identified]
  rw [OperationCandidate.entryFor?, synthesized]
  exact ⟨_, List.find?_cons_of_pos (by simp)⟩

/-- An operation alone in a plain document is the only one to be compiled. -/
theorem operations_plain {file : SourceFile} (alone : file.document.operations = [operation]) :
    operations [.plain file] =
      [⟨file.parsed, operation, OperationMetadata.synthesize file file.document⟩] := by
  simp [operations, OperationInput.plain, OperationInput.sources, SourceFile.parsed,
    OperationCandidate.ofSources, metadataOf, alone]

/-- If there is one operation only, its record is the only one. -/
theorem compile_single (settings : Settings)
    (clean : ∀ input ∈ inputs, ∀ file ∈ input.documents, file.IsClean)
    (alone : operations inputs = [candidate])
    (accepts : candidate.AcceptedAs (fragments inputs) accepted) :
    compile settings inputs =
      .ok [.ofRecords (accepted.destination settings) [accepted.record (fragments inputs)]] := by
  refine compile_eq_ok_iff.mpr ⟨clean, [accepted], ?_, by simp, ?_⟩
  · rw [alone]
    exact .cons accepts .nil
  · rw [values_foldl_route]
    simp [routed, List.eraseDups_cons]

/-- In the document of a body, its operation is accepted with the same fragments, and its record has
the same body. The same operation with the same fragments is rendered, and the hash is that of the
body. -/
theorem BodyReadAs.exists_accepted_again
    (readAs : BodyReadAs inputs accepted operation others span)
    (accepts : candidate.AcceptedAs (fragments inputs) accepted) {file : SourceFile}
    (document : file.document = ⟨.operation operation :: others.map .fragment, span⟩) :
    ∃ acceptedAgain,
      OperationCandidate.AcceptedAs (fragments [.plain file])
        ⟨file.parsed, operation, OperationMetadata.synthesize file file.document⟩ acceptedAgain ∧
      (acceptedAgain.record (fragments [.plain file])).Repeats
        (accepted.record (fragments inputs)) := by
  have defined : fragments [.plain file] =
      .ofDocuments [⟨.operation operation :: others.map .fragment, span⟩] := by
    rw [← document]
    rfl
  have alone : file.document.operations = [operation] := by rw [document, operations_mk]
  have identified := (readAs.isComplete accepts).identity
  rcases exists_entry_synthesize file alone identified with ⟨entry, described⟩
  have rendered := readAs.render_eq
  rw [← defined] at rendered
  refine ⟨⟨file, operation, accepted.kind, accepted.name, entry, accepted.fragments⟩, ?_, ?_⟩
  · exact ⟨rfl, rfl, identified, described, defined ▸ readAs.closure accepts⟩
  · exact ⟨rfl, rfl, rendered, congrArg OperationBody.hash rendered⟩

/-- Compiled alone, a body leads to one record with the same body. The characters of the file are
looked at through the parsed body only. -/
theorem BodyReadAs.exists_compile_alone (readAs : BodyReadAs inputs accepted operation others span)
    (accepts : candidate.AcceptedAs (fragments inputs) accepted) (again : Settings)
    (path : String) (firstLine : Nat) :
    ∃ registry record,
      compile again [.plain ⟨path, (accepted.record (fragments inputs)).body, firstLine⟩] =
        .ok [registry] ∧
      registry.operations = [record] ∧
      record.Repeats (accepted.record (fragments inputs)) := by
  generalize fileShown : SourceFile.mk path (accepted.record (fragments inputs)).body firstLine =
    file
  have parsed : Document.parse file.chars =
      .ok ⟨⟨.operation operation :: others.map .fragment, span⟩, none⟩ :=
    fileShown ▸ readAs.parsed
  have document : file.document = ⟨.operation operation :: others.map .fragment, span⟩ := by
    rw [SourceFile.document, parsed]
  have alone : file.document.operations = [operation] := by rw [document, operations_mk]
  have clean : ∀ input ∈ [OperationInput.plain file], ∀ source ∈ input.documents,
      source.IsClean := by
    simpa [OperationInput.plain, SourceFile.IsClean] using ⟨_, parsed, rfl⟩
  rcases readAs.exists_accepted_again accepts document with ⟨acceptedAgain, acceptsAgain, repeats⟩
  exact ⟨_, _, compile_single again clean (operations_plain alone) acceptsAgain,
    OperationRegistry.operations_ofRecords _ _, repeats⟩

/-- If no source has a block string, the body of every compiled record is complete, and it leads to
the same record when it is compiled alone. -/
theorem compile_selfContained {settings : Settings} {inputs : List OperationInput}
    {registries : List OperationRegistry}
    (noBlock : ∀ input ∈ inputs, ∀ file ∈ input.documents, file.HasNoBlock)
    (compiles : compile settings inputs = .ok registries) :
    ∀ registry ∈ registries, ∀ record ∈ registry.operations,
      (∃ operation others, record.IsComplete operation others) ∧
        ∀ again path firstLine, ∃ alone repeated,
          compile again [.plain ⟨path, record.body, firstLine⟩] = .ok [alone] ∧
            alone.operations = [repeated] ∧ repeated.Repeats record := by
  intro registry registry_mem record record_mem
  rcases exists_accepted_of_mem (mem_records_iff.mpr
    ⟨registries, compiles, registry, registry_mem, record_mem⟩) with
    ⟨candidate, candidate_mem, accepted, accepts, rfl⟩
  rcases exists_bodyReadAs noBlock candidate_mem accepts with ⟨operation, others, span, readAs⟩
  exact ⟨⟨operation, others, readAs.isComplete accepts⟩, fun again path firstLine =>
    readAs.exists_compile_alone accepts again path firstLine⟩

theorem compile_selfContained_twoDestinations :
    (records .standard twoDestinations).length = 2 ∧
      ∃ registries, compile .standard twoDestinations = .ok registries ∧
        ∀ registry ∈ registries, ∀ record ∈ registry.operations,
          (∃ operation others, record.IsComplete operation others) ∧
            ∀ again path firstLine, ∃ alone repeated,
              compile again [.plain ⟨path, record.body, firstLine⟩] = .ok [alone] ∧
                alone.operations = [repeated] ∧ repeated.Repeats record := by
  have succeeds : ∃ registries, compile .standard twoDestinations = .ok registries :=
    exists_compile_of_records_ne_nil (by decide +kernel)
  rcases succeeds with ⟨registries, compiles⟩
  exact ⟨by decide +kernel, registries, compiles,
    compile_selfContained (by decide +kernel) compiles⟩

end OperationCompiler

end WiredGraph
