import WiredGraph.Proofs.Document.Reformatting
import WiredGraph.Proofs.Operation.SelfContained

/-!
# Formatting of sources

What operations are compiled to depends on the lexemes of their sources and not on what stands
between them. Compiling is run on two lists of inputs whose sources have the same lexemes: the two
runs read documents that are the same up to spans, accept the same operations with the same
fragments, and route the same records. Only the lines that made-up metadata points at may differ.
-/

namespace WiredGraph

/-- Two compilations are refused for the same kind of cause. -/
def CompileError.SameKind (error other : CompileError) : Prop := error.kind = other.kind

/-- Two sources have the same path and the same lexemes. -/
structure SourceFile.SameLexemes (file other : SourceFile) : Prop where
  path : file.path = other.path
  lexemes : Scan.lexemes file.chars = Scan.lexemes other.chars

/-- Two inputs differ only in what stands between the lexemes of their documents. -/
structure OperationInput.SameLexemes (input other : OperationInput) : Prop where
  documents : List.Forall₂ SourceFile.SameLexemes input.documents other.documents
  metadata : input.metadata = other.metadata

/-- Metadata without the line that it was found on. -/
def OperationMetadata.withoutLine (metadata : OperationMetadata) : OperationMetadata :=
  { metadata with line := 0 }

/-- A record without the line that its operation comes from. -/
def OperationRecord.withoutLine (record : OperationRecord) : OperationRecord :=
  { record with originLine := 0 }

/-- A registry without the lines that its operations come from. -/
def OperationRegistry.withoutLines (registry : OperationRegistry) : OperationRegistry :=
  { registry with operations := registry.operations.map OperationRecord.withoutLine }

/-- Definitions that are the same up to spans have the same parts of each form. -/
theorem Definition.map_filterMap_eq {Part : Type} {part? : Definition → Option Part}
    {content : Part → Part} {definitions others : List Definition}
    (same : List.Forall₂ (fun definition other =>
      (part? definition).map content = (part? other).map content) definitions others) :
    (definitions.filterMap part?).map content = (others.filterMap part?).map content := by
  rw [List.map_filterMap, List.map_filterMap]
  induction same with
  | nil => rfl
  | cons here _ ih =>
      rw [List.filterMap_cons, List.filterMap_cons, here, ih]

/-- Two parsed sources come from the same path and have the same operations and fragments up to
spans. -/
structure ParsedSource.SameContent (source other : ParsedSource) : Prop where
  path : source.file.path = other.file.path
  operations : source.document.operations.map (OperationDefinition.content id) =
    other.document.operations.map (OperationDefinition.content id)
  fragments : source.document.fragments.map (FragmentDefinition.content id) =
    other.document.fragments.map (FragmentDefinition.content id)

/-- Two sources have the same lexemes, and what was read from them is the same up to spans. -/
def SourceFile.SameRead (read other : SourceFile × ParsedDocument) : Prop :=
  read.1.SameLexemes other.1 ∧ read.2.SameExecutable other.2

/-- Two inputs have the same metadata, and the sources read for them are related. -/
def OperationInput.SameSources {Source : Type} (Same : Source → Source → Prop)
    (read other : OperationInput × List Source) : Prop :=
  read.1.metadata = other.1.metadata ∧ List.Forall₂ Same read.2 other.2

section Sources

theorem SourceFile.read_agree {file other : SourceFile} (same : file.SameLexemes other) :
    SameOutcome CompileError.SameKind SameRead file.read other.read := by
  rw [read, read]
  rcases SameOutcome.iff_exists.mp (Document.parse_agree same.lexemes) with
    ⟨block, otherBlock, parsed, otherParsed, -⟩ | ⟨found, otherFound, parsed, otherParsed, alike⟩
  · rw [parsed, otherParsed]
    exact .error rfl
  · rw [parsed, otherParsed]
    exact .ok ⟨same, alike⟩

theorem ParsedSource.ofRead_agree {read other : SourceFile × ParsedDocument}
    (same : SourceFile.SameRead read other) :
    SameOutcome CompileError.SameKind SameContent (ofRead read) (ofRead other) := by
  rcases same with ⟨sameFile, definitions, faults⟩
  rw [ofRead, ofRead]
  rcases cases_of_map_eq faults with
    ⟨clean, otherClean⟩ | ⟨fault, otherFault, faulty, otherFaulty, -⟩
  · rw [clean, otherClean]
    refine .ok ⟨sameFile.path, ?_, ?_⟩
    · exact Definition.map_filterMap_eq (definitions.imp fun _ _ each => each.operation)
    · exact Definition.map_filterMap_eq (definitions.imp fun _ _ each => each.fragment)
  · rw [faulty, otherFaulty]
    exact .error rfl

/-- Inputs are read alike: all documents first, and then the first fault is reported. -/
theorem OperationCompiler.readInputs_agree {inputs others : List OperationInput}
    (same : List.Forall₂ OperationInput.SameLexemes inputs others) :
    SameOutcome CompileError.SameKind
      (List.Forall₂ (OperationInput.SameSources ParsedSource.SameContent))
      (readInputs inputs) (readInputs others) := by
  have readAll : SameOutcome CompileError.SameKind
      (List.Forall₂ (OperationInput.SameSources SourceFile.SameRead))
      (inputs.mapM fun input => do return (input, ← input.documents.mapM SourceFile.read))
      (others.mapM fun input => do return (input, ← input.documents.mapM SourceFile.read)) := by
    apply SameOutcome.mapM same
    intro input other sameInput
    have documents := SameOutcome.mapM sameInput.documents fun _ _ => SourceFile.read_agree
    exact documents.bind fun _ _ sameDocuments => .ok ⟨sameInput.metadata, sameDocuments⟩
  apply readAll.bind
  intro read otherRead found
  apply SameOutcome.mapM found
  rintro ⟨input, documents⟩ ⟨other, otherDocuments⟩ ⟨sameMetadata, sameDocuments⟩
  have sources := SameOutcome.mapM sameDocuments fun _ _ => ParsedSource.ofRead_agree
  exact sources.bind fun _ _ sameSources => .ok ⟨sameMetadata, sameSources⟩

end Sources

/-- Two maps have fragments for the same names, and these are the same up to spans. -/
structure Fragments.SameContent (fragments others : Fragments) : Prop where
  size : fragments.size = others.size
  get? : ∀ name, (fragments.get? name).map (FragmentDefinition.content id) =
    (others.get? name).map (FragmentDefinition.content id)

namespace Fragments

variable {fragments others : Fragments}

theorem size_ofDocuments (documents : List Document) :
    (ofDocuments documents).size =
      (((documents.flatMap Document.fragments).map (FragmentDefinition.content id)).map
        (·.name.text)).eraseDups.length := by
  have keys := congrArg List.length (OrderedMap.keys_ofList
    ((documents.flatMap Document.fragments).map fun fragment => (fragment.name.text, fragment)))
  rw [OrderedMap.keys, List.length_map] at keys
  rw [ofDocuments, OrderedMap.size, keys, List.map_map, List.map_map]
  rfl

theorem get?_ofDocuments_content (documents : List Document) (name : String) :
    ((ofDocuments documents).get? name).map (FragmentDefinition.content id) =
      ((documents.flatMap Document.fragments).map (FragmentDefinition.content id)).reverse.find?
        (·.name.text = name) := by
  rw [get?_ofDocuments, Document.lastFragment?, ← List.map_reverse, List.find?_map]
  rfl

theorem sameContent_ofDocuments {documents otherDocuments : List Document}
    (same : (documents.flatMap Document.fragments).map (FragmentDefinition.content id) =
      (otherDocuments.flatMap Document.fragments).map (FragmentDefinition.content id)) :
    (ofDocuments documents).SameContent (ofDocuments otherDocuments) where
  size := by rw [size_ofDocuments, size_ofDocuments, same]
  get? name := by rw [get?_ofDocuments_content, get?_ofDocuments_content, same]

namespace SameContent

theorem spreadsOf_eq (same : fragments.SameContent others) (name : String) :
    fragments.spreadsOf name = others.spreadsOf name := by
  rw [spreadsOf, spreadsOf]
  rcases cases_of_map_eq (same.get? name) with
    ⟨missing, otherMissing⟩ | ⟨fragment, other, found, otherFound, content⟩
  · rw [missing, otherMissing]
  · have names := congrArg (fun fragment => fragment.set.spreadNames) content
    simp only [FragmentDefinition.content, SelectionSet.spreadNames_content] at names
    simp only [found, otherFound, SelectionSet.spreads, names]

theorem closeUpTo_eq (same : fragments.SameContent others) (rounds : Nat) (known : List String) :
    fragments.closeUpTo rounds known = others.closeUpTo rounds known := by
  induction rounds generalizing known with
  | zero => rfl
  | succ rounds ih =>
      rw [closeUpTo, closeUpTo, expand_agree fun name _ => same.spreadsOf_eq name]
      simp only [ih]

/-- A set uses the same fragments, found in the same order, or lacks the same one. -/
theorem closure_eq (same : fragments.SameContent others) {set otherSet : SelectionSet}
    (sameSet : set.content id = otherSet.content id) :
    fragments.closure set = others.closure otherSet := by
  have names := congrArg SelectionSet.spreadNames sameSet
  rw [SelectionSet.spreadNames_content, SelectionSet.spreadNames_content] at names
  rw [closure, closure, SelectionSet.spreads, SelectionSet.spreads, names, same.size,
    same.closeUpTo_eq]

theorem render_eq (same : fragments.SameContent others) {operation other : OperationDefinition}
    (sameOperation : operation.content id = other.content id) (used : List String) :
    OperationBody.render fragments operation used = OperationBody.render others other used := by
  have printed := congrArg (fun operation => operation.withTypenames.print) sameOperation
  simp only [OperationDefinition.print_withTypenames_content] at printed
  have each : ∀ name, (fragments.get? name).map (fun fragment => fragment.withTypenames.print) =
      (others.get? name).map fun fragment => fragment.withTypenames.print := by
    intro name
    have found := congrArg (Option.map fun fragment => fragment.withTypenames.print)
      (same.get? name)
    simpa only [Option.map_map, Function.comp_def,
      FragmentDefinition.print_withTypenames_content] using found
  simp only [OperationBody.render, printed, each]

end SameContent

end Fragments

section Acceptance

/-- Two operations come from the same path, are the same up to spans, and have the same metadata up
to lines. -/
structure OperationCandidate.SameContent (candidate other : OperationCandidate) : Prop where
  path : candidate.source.file.path = other.source.file.path
  definition : candidate.definition.content id = other.definition.content id
  metadata : candidate.metadata.map OperationMetadata.withoutLine =
    other.metadata.map OperationMetadata.withoutLine

/-- Two accepted operations are the same up to places in their sources. -/
structure AcceptedOperation.SameContent (accepted other : AcceptedOperation) : Prop where
  path : accepted.file.path = other.file.path
  definition : accepted.definition.content id = other.definition.content id
  identity : accepted.identity = other.identity
  metadata : accepted.metadata.withoutLine = other.metadata.withoutLine
  fragments : accepted.fragments = other.fragments

namespace OperationMetadata

/-- Made-up metadata depends on the content of a document only, up to its lines. -/
theorem map_withoutLine_synthesize (file : SourceFile) (document : Document) :
    (synthesize file document).map withoutLine =
      (document.operations.map (OperationDefinition.content id)).filterMap fun operation =>
        operation.identity?.map fun identity =>
          ⟨identity.1, identity.2, ConstantName.ofOperation identity.1 identity.2, none, 0⟩ := by
  rw [synthesize, List.map_filterMap, List.filterMap_map]
  apply List.filterMap_congr
  intro operation _
  rw [Function.comp_apply, OperationDefinition.identity?_content, synthesizeOne?]
  cases operation.identity? <;> rfl

end OperationMetadata

namespace OperationCandidate

variable {fragments otherFragments : Fragments} {candidate other : OperationCandidate}
  {earlier otherEarlier : List (OperationKind × String × Location)}

theorem SameContent.entryFor?_eq (same : candidate.SameContent other)
    (identity : OperationKind × String) :
    (candidate.entryFor? identity).map OperationMetadata.withoutLine =
      (other.entryFor? identity).map OperationMetadata.withoutLine := by
  have found : ∀ metadata : List OperationMetadata,
      (metadata.find? fun entry => entry.kind = identity.1 ∧ entry.name = identity.2).map
          OperationMetadata.withoutLine =
        (metadata.map OperationMetadata.withoutLine).find? fun entry =>
          entry.kind = identity.1 ∧ entry.name = identity.2 := by
    intro metadata
    rw [List.find?_map]
    rfl
  rw [entryFor?, entryFor?, found, found, same.metadata]

theorem find?_taken (earlier : List (OperationKind × String × Location)) (kind : OperationKind)
    (name : String) :
    (earlier.find? fun entry => entry.1 = kind ∧ entry.2.1 = name).map
        (fun entry => (entry.1, entry.2.1)) =
      (taken earlier).find? fun identity => identity.1 = kind ∧ identity.2 = name := by
  rw [taken, List.find?_map]
  rfl

/-- An operation is accepted or refused alike after operations that take the same kinds and
names. -/
theorem accept_agree (same : candidate.SameContent other)
    (sameFragments : fragments.SameContent otherFragments)
    (sameTaken : taken earlier = taken otherEarlier) :
    SameOutcome CompileError.SameKind AcceptedOperation.SameContent
      (candidate.accept fragments earlier) (other.accept otherFragments otherEarlier) := by
  have names := congrArg OperationDefinition.name same.definition
  have kinds := congrArg OperationDefinition.operation same.definition
  have sets := congrArg OperationDefinition.set same.definition
  simp only [OperationDefinition.content] at names kinds sets
  have closures := sameFragments.closure_eq sets
  rcases cases_of_map_eq names with
    ⟨named, otherNamed⟩ | ⟨name, otherName, named, otherNamed, sameName⟩
  · simp only [accept, named, otherNamed]
    exact .error rfl
  have text : name.text = otherName.text := (Name.mk.inj sameName).1
  simp only [accept, named, otherNamed, text, kinds, closures]
  cases OperationKind.ofType? other.definition.operation with
  | none => exact .error rfl
  | some kind =>
      have entries := same.entryFor?_eq (kind, otherName.text)
      have previous := (find?_taken earlier kind otherName.text).trans
        (sameTaken ▸ (find?_taken otherEarlier kind otherName.text).symm)
      rw [entryFor?, entryFor?] at entries
      dsimp only
      rcases cases_of_map_eq entries with
        ⟨missing, otherMissing⟩ | ⟨entry, otherEntry, found, otherFound, sameEntry⟩
      · rw [missing, otherMissing]
        exact .error rfl
      rw [found, otherFound]
      rcases cases_of_map_eq previous with
        ⟨free, otherFree⟩ | ⟨first, otherFirst, duplicate, otherDuplicate, -⟩
      · rw [free, otherFree]
        cases otherFragments.closure other.definition.set with
        | error fragment => exact .error rfl
        | ok used => exact .ok ⟨same.path, same.definition, rfl, sameEntry, rfl⟩
      · rw [duplicate, otherDuplicate]
        exact .error rfl

/-- What is accepted has the same kind and name in both runs, so the same ones stay taken. -/
theorem acceptAll_agree {candidates others : List OperationCandidate}
    (same : List.Forall₂ SameContent candidates others)
    (sameFragments : fragments.SameContent otherFragments)
    (sameTaken : taken earlier = taken otherEarlier) :
    SameOutcome CompileError.SameKind (List.Forall₂ AcceptedOperation.SameContent)
      (acceptAll fragments earlier candidates) (acceptAll otherFragments otherEarlier others) := by
  induction same generalizing earlier otherEarlier with
  | nil => exact .ok .nil
  | cons here _ ih =>
      rw [acceptAll, acceptAll]
      apply (accept_agree here sameFragments sameTaken).bind
      intro accepted other sameAccepted
      apply (ih (by rw [taken_append, taken_append, sameTaken, sameAccepted.identity])).bind
      exact fun _ _ rest => .ok (.cons sameAccepted rest)

end OperationCandidate

end Acceptance

section Records

theorem AcceptedOperation.SameContent.record_eq {accepted other : AcceptedOperation}
    (same : accepted.SameContent other) {fragments otherFragments : Fragments}
    (sameFragments : fragments.SameContent otherFragments) :
    (accepted.record fragments).withoutLine = (other.record otherFragments).withoutLine := by
  rcases Prod.mk.inj same.identity with ⟨kinds, names⟩
  have constants := congrArg OperationMetadata.constantName same.metadata
  simp only [OperationMetadata.withoutLine] at constants
  simp only [AcceptedOperation.record, OperationRecord.withoutLine, kinds, names, constants,
    same.path, same.fragments, sameFragments.render_eq same.definition]

theorem AcceptedOperation.SameContent.destination_eq {accepted other : AcceptedOperation}
    (same : accepted.SameContent other) (settings : Settings) :
    accepted.destination settings = other.destination settings := by
  have destinations := congrArg OperationMetadata.destination same.metadata
  simp only [OperationMetadata.withoutLine] at destinations
  rw [AcceptedOperation.destination, AcceptedOperation.destination, destinations]

theorem OperationRegistry.withoutLines_push (registry : OperationRegistry)
    (record : OperationRecord) :
    (registry.push record).withoutLines = registry.withoutLines.push record.withoutLine := by
  simp only [push, withoutLines, List.map_append, List.map_singleton, OperationRecord.withoutLine]

theorem OperationRegistry.withoutLines_ofRecords (destination : String)
    (records : List OperationRecord) :
    (ofRecords destination records).withoutLines =
      ofRecords destination (records.map OperationRecord.withoutLine) := by
  induction records using List.reverseRecOn with
  | nil => rfl
  | append_singleton records record ih =>
      rw [ofRecords_append_singleton, withoutLines_push, ih, List.map_append, List.map_singleton,
        ofRecords_append_singleton]

/-- Lines can be left out before or after records are routed. -/
theorem OperationCompiler.withoutLines_foldl_route (routed : List (String × OperationRecord)) :
    (routed.foldl route .empty).values.map OperationRegistry.withoutLines =
      ((routed.map fun entry => (entry.1, entry.2.withoutLine)).foldl route .empty).values := by
  rw [values_foldl_route, values_foldl_route, List.map_map, List.map_map]
  apply List.map_congr_left
  intro destination _
  rw [Function.comp_apply, OperationRegistry.withoutLines_ofRecords, List.filter_map, List.map_map,
    List.map_map]
  rfl

end Records

namespace OperationCompiler

section Runs

variable {read others : List (OperationInput × List ParsedSource)}

/-- The metadata of an input is the same up to lines, whether it was given or is made up. -/
theorem metadataOf_agree {read other : OperationInput × List ParsedSource}
    (same : OperationInput.SameSources ParsedSource.SameContent read other) :
    (metadataOf read.1 read.2).map OperationMetadata.withoutLine =
      (metadataOf other.1 other.2).map OperationMetadata.withoutLine := by
  rw [metadataOf, metadataOf, same.1]
  cases other.1.metadata with
  | some metadata => rfl
  | none =>
      rw [List.map_flatMap, List.map_flatMap]
      apply flatMap_eq_of_forall₂ same.2
      intro source otherSource sameSource
      rw [OperationMetadata.map_withoutLine_synthesize,
        OperationMetadata.map_withoutLine_synthesize, sameSource.operations]

theorem candidates_agree
    (same : List.Forall₂ (OperationInput.SameSources ParsedSource.SameContent) read others) :
    List.Forall₂ OperationCandidate.SameContent
      (read.flatMap fun (input, sources) =>
        OperationCandidate.ofSources sources (metadataOf input sources))
      (others.flatMap fun (input, sources) =>
        OperationCandidate.ofSources sources (metadataOf input sources)) := by
  apply List.rel_flatMap same
  intro input other sameInput
  apply List.rel_flatMap sameInput.2
  intro source otherSource sameSource
  rw [List.forall₂_map_left_iff, List.forall₂_map_right_iff]
  apply (forall₂_same_image_iff.mpr sameSource.operations).imp
  intro operation otherOperation content
  exact ⟨sameSource.path, content, metadataOf_agree sameInput⟩

theorem fragments_agree
    (same : List.Forall₂ (OperationInput.SameSources ParsedSource.SameContent) read others) :
    (Fragments.ofDocuments
        (read.flatMap fun (_, sources) => sources.map ParsedSource.document)).SameContent
      (Fragments.ofDocuments
        (others.flatMap fun (_, sources) => sources.map ParsedSource.document)) := by
  apply Fragments.sameContent_ofDocuments
  rw [List.flatMap_assoc, List.flatMap_assoc, List.map_flatMap, List.map_flatMap]
  apply flatMap_eq_of_forall₂ same
  intro input other sameInput
  rw [List.flatMap_map, List.flatMap_map, List.map_flatMap, List.map_flatMap]
  exact flatMap_eq_of_forall₂ sameInput.2 fun _ _ sameSource => sameSource.fragments

theorem registries_agree (settings : Settings) {fragments otherFragments : Fragments}
    (sameFragments : fragments.SameContent otherFragments)
    {accepted otherAccepted : List AcceptedOperation}
    (same : List.Forall₂ AcceptedOperation.SameContent accepted otherAccepted) :
    ((accepted.map (routed settings fragments)).foldl route .empty).values.map
        OperationRegistry.withoutLines =
      ((otherAccepted.map (routed settings otherFragments)).foldl route .empty).values.map
        OperationRegistry.withoutLines := by
  have records := forall₂_same_image_iff.mp (same.imp fun _ _ each =>
    congrArg₂ Prod.mk (each.destination_eq settings) (each.record_eq sameFragments))
  rw [withoutLines_foldl_route, withoutLines_foldl_route, List.map_map, List.map_map]
  exact congrArg (fun entries => (entries.foldl route .empty).values) records

end Runs

/-- Whether inputs can be compiled, and to which registries, does not depend on what stands between
the lexemes of their documents: compiling fails for the same kind of cause, or leads to the same
registries up to the lines that records come from. -/
theorem compile_reformatted (settings : Settings) {inputs others : List OperationInput}
    (same : List.Forall₂ OperationInput.SameLexemes inputs others) :
    (∃ error otherError,
        compile settings inputs = .error error ∧ compile settings others = .error otherError ∧
          error.kind = otherError.kind) ∨
      ∃ registries otherRegistries,
        compile settings inputs = .ok registries ∧ compile settings others = .ok otherRegistries ∧
          registries.map OperationRegistry.withoutLines =
            otherRegistries.map OperationRegistry.withoutLines := by
  have runs : SameOutcome CompileError.SameKind
      (fun registries otherRegistries =>
        registries.map OperationRegistry.withoutLines =
          otherRegistries.map OperationRegistry.withoutLines)
      (compile settings inputs) (compile settings others) := by
    rw [compile, compile]
    apply (readInputs_agree same).bind
    intro read otherRead found
    have fragments := fragments_agree found
    apply (OperationCandidate.acceptAll_agree (candidates_agree found) fragments rfl).bind
    intro accepted otherAccepted sameAccepted
    exact .ok (registries_agree settings fragments sameAccepted)
  exact SameOutcome.iff_exists.mp runs

/-- The same operations with a byte order mark, a comment, and other blanks and commas. -/
def twoDestinationsSpread : List OperationInput :=
  [.plain ⟨"me.graphql", "\ufeff# Who asks?\nquery Me\n\x7b me\t\x7b,...Person,\x7d\x7d\n", 1⟩,
    ⟨[⟨"ban.graphql", "mutation Ban\x7bban ( id : 1 )\x7b ... Person\x7d\x7d # Once.", 1⟩,
        ⟨"person.graphql", "\r\nfragment Person, on User \x7bname\x7d", 1⟩],
      some [⟨.mutation, "Ban", "BAN", some "admin", 3⟩]⟩]

theorem compile_reformatted_twoDestinations :
    List.Forall₂ OperationInput.SameLexemes twoDestinations twoDestinationsSpread ∧
      ∃ registries otherRegistries,
        compile .standard twoDestinations = .ok registries ∧
          compile .standard twoDestinationsSpread = .ok otherRegistries ∧
          registries.map OperationRegistry.withoutLines =
            otherRegistries.map OperationRegistry.withoutLines := by
  have same : List.Forall₂ OperationInput.SameLexemes twoDestinations twoDestinationsSpread :=
    .cons ⟨.cons ⟨rfl, by decide +kernel⟩ .nil, rfl⟩ <|
      .cons ⟨.cons ⟨rfl, by decide +kernel⟩ (.cons ⟨rfl, by decide +kernel⟩ .nil), rfl⟩ .nil
  have succeeds : ∃ registries, compile .standard twoDestinations = .ok registries :=
    exists_compile_of_records_ne_nil (by decide +kernel)
  refine ⟨same, ?_⟩
  rcases compile_reformatted .standard same with ⟨error, _, failed, -⟩ | registries
  · rcases succeeds with ⟨registries, compiles⟩
    cases failed.symm.trans compiles
  · exact registries

end OperationCompiler

end WiredGraph
