import WiredGraph.Proofs.Document.ContentLexemes
import WiredGraph.Proofs.Operation.Normalization
import WiredGraph.Proofs.Operation.SelfContained

/-!
# What a hash identifies

The hash of a body is taken after its blanks have been collapsed. A collapsed body can still be
read, and is read as the same document with its quoted texts squeezed. Bodies with the same hash
therefore show the same document up to the lengths of runs of spaces in quoted texts, unless the
digests of two different texts collide. The lengths of these runs are not covered by the hash, and
nothing like this holds of block strings, whose marks are not always read as they were written.
-/

namespace WiredGraph

open Scan

namespace OperationBody

/-- Collapsing blanks reads quoted texts with their runs of spaces squeezed. -/
theorem readsTexts_collapseLexeme : Lexeme.ReadsTexts squeeze collapseLexeme where
  mark := collapseLexeme_mark
  word := collapseLexeme_word
  int _ := collapseLexeme_of_ne nofun
  float _ := collapseLexeme_of_ne nofun
  quoted := collapseLexeme_quoted

/-- A collapsed text is read as the definitions that it showed before, squeezed. -/
theorem parse_collapseAfter {definitions : List Definition} {text : List Char}
    (wellFormed : ∀ definition ∈ definitions, definition.WellFormed False)
    (spells : Spells text (definitions.map Definition.lexemes).flatten) :
    ∃ found span, Document.parse (collapseAfter false text) = .ok ⟨⟨found, span⟩, none⟩ ∧
      found.map (Definition.content id) = definitions.map (Definition.content squeeze) := by
  have squeezedWellFormed : ∀ definition ∈ definitions.map (Definition.content squeeze),
      definition.WellFormed False :=
    List.forall_mem_map.mpr fun definition definition_mem =>
      (wellFormed definition definition_mem).content squeeze
  have squeezedSpells := spells_collapseAfter spells false
  rw [Lexeme.ReadsTexts.flatten fun definition _ =>
    readsTexts_collapseLexeme.definition definition] at squeezedSpells
  rcases Document.parse_of_spells squeezedWellFormed squeezedSpells with
    ⟨found, span, parsed, same⟩
  refine ⟨found, span, parsed, ?_⟩
  rw [same, List.map_map]
  exact List.map_congr_left fun definition _ => definition.content_content id squeeze

/-- Texts that are the same after collapsing show the same squeezed definitions. -/
theorem squeezed_eq_of_collapseAfter_eq {definitions others : List Definition}
    {text other : List Char}
    (wellFormed : ∀ definition ∈ definitions, definition.WellFormed False)
    (spells : Spells text (definitions.map Definition.lexemes).flatten)
    (othersWellFormed : ∀ definition ∈ others, definition.WellFormed False)
    (otherSpells : Spells other (others.map Definition.lexemes).flatten)
    (same : collapseAfter false text = collapseAfter false other) :
    definitions.map (Definition.content squeeze) = others.map (Definition.content squeeze) := by
  rcases parse_collapseAfter wellFormed spells with ⟨found, span, parsed, content⟩
  rcases parse_collapseAfter othersWellFormed otherSpells with
    ⟨otherFound, otherSpan, otherParsed, otherContent⟩
  rw [same] at parsed
  cases parsed.symm.trans otherParsed
  exact content.symm.trans otherContent

end OperationBody

/-- Two bodies show the same operation and the same fragments in the same order, up to their spans
and the lengths of runs of spaces in their texts. -/
def OperationRecord.ShowsSame (first second : OperationRecord) : Prop :=
  ∃ firstOperation firstFragments secondOperation secondFragments,
    first.IsComplete firstOperation firstFragments ∧
    second.IsComplete secondOperation secondFragments ∧
    firstOperation.content OperationBody.squeeze =
      secondOperation.content OperationBody.squeeze ∧
    firstFragments.map (FragmentDefinition.content OperationBody.squeeze) =
      secondFragments.map (FragmentDefinition.content OperationBody.squeeze)

/-- The body of a record as a source of its own. -/
def OperationRecord.bodySource (record : OperationRecord) : SourceFile :=
  ⟨record.originFile, record.body, 1⟩

namespace OperationCompiler

variable {inputs : List OperationInput} {accepted : AcceptedOperation}
  {operation : OperationDefinition} {others : List FragmentDefinition} {span : Span}

/-- A body is read as the definitions that it was made of, whichever way their texts are read. -/
theorem BodyReadAs.content_eq (readAs : BodyReadAs inputs accepted operation others span)
    (read : String → String) :
    (Definition.operation operation :: others.map .fragment).map (Definition.content read) =
      (OperationBody.definitions (OperationCompiler.fragments inputs) accepted.definition
        accepted.fragments).map (Definition.content read) := by
  have same : (Definition.operation operation :: others.map .fragment).map
      (Definition.content id) =
        (OperationBody.definitions (OperationCompiler.fragments inputs) accepted.definition
          accepted.fragments).map (Definition.content id) := by
    have fragments := congrArg (List.map Definition.fragment) readAs.sameFragments.contents
    simp only [List.map_map] at fragments
    rw [OperationBody.definitions, List.map_cons, List.map_cons, List.map_map, List.map_map]
    exact congrArg₂ List.cons (congrArg Definition.operation readAs.sameOperation) fragments
  exact Definition.map_content_congr read id same

/-- The body of a record spells the definitions that it is read as. -/
theorem exists_spelled_of_mem_records {settings : Settings} {record : OperationRecord}
    (noBlock : ∀ input ∈ inputs, ∀ file ∈ input.documents, file.HasNoBlock)
    (record_mem : record ∈ records settings inputs) :
    ∃ (definitions : List Definition) (operation : OperationDefinition)
      (others : List FragmentDefinition), record.IsComplete operation others ∧
      (∀ definition ∈ definitions, definition.WellFormed False) ∧
      Spells record.body.toList (definitions.map Definition.lexemes).flatten ∧
      (Definition.operation operation :: others.map .fragment).map
        (Definition.content OperationBody.squeeze) =
          definitions.map (Definition.content OperationBody.squeeze) := by
  rcases exists_accepted_of_mem record_mem with ⟨candidate, candidate_mem, accepted, accepts, rfl⟩
  rcases exists_bodyReadAs noBlock candidate_mem accepts with ⟨operation, others, span, readAs⟩
  rcases OperationBody.spells_render (wellFormed_of_acceptedAs noBlock candidate_mem accepts)
    (fun name (_ : name ∈ accepted.fragments) fragment defined =>
      wellFormed_of_get? noBlock defined) with ⟨wellFormed, spells⟩
  exact ⟨_, operation, others, readAs.isComplete accepts, wellFormed, spells,
    readAs.content_eq OperationBody.squeeze⟩

/-- Without block strings, bodies with the same hash show the same up to runs of spaces in texts.
Their digests are equal, so their collapsed texts are, and these are read in one way only. -/
theorem showsSame_of_hash_eq {firstSettings secondSettings : Settings}
    {firstInputs secondInputs : List OperationInput} {first second : OperationRecord}
    (firstNoBlock : ∀ input ∈ firstInputs, ∀ file ∈ input.documents, file.HasNoBlock)
    (secondNoBlock : ∀ input ∈ secondInputs, ∀ file ∈ input.documents, file.HasNoBlock)
    (first_mem : first ∈ records firstSettings firstInputs)
    (second_mem : second ∈ records secondSettings secondInputs)
    (apart : OperationBody.Apart first.body second.body) (same : first.hash = second.hash) :
    first.ShowsSame second := by
  rcases exists_spelled_of_mem_records firstNoBlock first_mem with
    ⟨firstDefinitions, firstOperation, firstFragments, firstComplete, firstWellFormed, firstSpells,
      firstContent⟩
  rcases exists_spelled_of_mem_records secondNoBlock second_mem with
    ⟨secondDefinitions, secondOperation, secondFragments, secondComplete, secondWellFormed,
      secondSpells, secondContent⟩
  rw [hash_of_mem_records first_mem, hash_of_mem_records second_mem] at same
  have collapsed : OperationBody.collapseAfter false first.body.toList =
      OperationBody.collapseAfter false second.body.toList :=
    String.ofList_injective (apart same)
  have squeezed := OperationBody.squeezed_eq_of_collapseAfter_eq firstWellFormed firstSpells
    secondWellFormed secondSpells collapsed
  rw [← firstContent, ← secondContent, List.map_cons, List.map_cons] at squeezed
  rcases List.cons.inj squeezed with ⟨operations, fragments⟩
  refine ⟨firstOperation, firstFragments, secondOperation, secondFragments, firstComplete,
    secondComplete, Definition.operation.inj operations, ?_⟩
  simp only [List.map_map] at fragments
  have injective : Function.Injective Definition.fragment := fun _ _ => Definition.fragment.inj
  apply injective.list_map
  rw [List.map_map, List.map_map]
  exact fragments

/-- A file with one query whose argument is a certain text. -/
def queryOf (value : String) : List OperationInput :=
  [.plain ⟨"query.graphql", "query Q \x7b f(a: " ++ value ++ ") \x7d", 1⟩]

/-- Two records whose bodies are the same but for their blanks have the same hash. -/
theorem hash_eq_of_collapseAfter_eq {firstSettings secondSettings : Settings}
    {firstInputs secondInputs : List OperationInput} {first second : OperationRecord}
    (first_mem : first ∈ records firstSettings firstInputs)
    (second_mem : second ∈ records secondSettings secondInputs)
    (same : OperationBody.collapseAfter false first.body.toList =
      OperationBody.collapseAfter false second.body.toList) :
    OperationBody.Apart first.body second.body ∧ first.hash = second.hash := by
  have normalized : OperationBody.normalize first.body = OperationBody.normalize second.body :=
    congrArg String.ofList same
  refine ⟨fun _ => normalized, ?_⟩
  rw [hash_of_mem_records first_mem, hash_of_mem_records second_mem]
  exact congrArg Sha256.hexDigest normalized

theorem showsSame_of_hash_eq_queryOf :
    ∃ first ∈ records .standard (queryOf "\"x y\""),
      ∃ second ∈ records .standard (queryOf "\"x  y\""),
        first.hash = second.hash ∧ first.ShowsSame second := by
  have collapsed : ∃ first ∈ records .standard (queryOf "\"x y\""),
      ∃ second ∈ records .standard (queryOf "\"x  y\""),
        OperationBody.collapseAfter false first.body.toList =
          OperationBody.collapseAfter false second.body.toList := by
    decide +kernel
  rcases collapsed with ⟨first, first_mem, second, second_mem, same⟩
  rcases hash_eq_of_collapseAfter_eq first_mem second_mem same with ⟨apart, hashed⟩
  exact ⟨first, first_mem, second, second_mem, hashed, showsSame_of_hash_eq (by decide +kernel)
    (by decide +kernel) first_mem second_mem apart hashed⟩

/-- A list of two block strings. The first one ends with a backslash, which makes its closing marks
a part of the text when it is printed and read again. -/
def twoBlocks (text : String) : String :=
  "[\"\"\"a\\\n\"\"\", \"\"\" \"" ++ text ++ "\"\"\"]"

/-- Two queries whose texts differ in a space have the same hash. With block strings it can even be
that only one of two bodies with the same hash can be read. The definitions are told apart by how
they are printed, which does not look at spans. -/
theorem hash_misses_spaces :
    (∃ first ∈ records .standard (queryOf "\"x y\""),
      ∃ second ∈ records .standard (queryOf "\"x  y\""),
        (OperationBody.Apart first.body second.body ∧ first.hash = second.hash) ∧
        first.bodySource.IsClean ∧ second.bodySource.IsClean ∧
        first.bodySource.document.definitions.map (Definition.content id) ≠
          second.bodySource.document.definitions.map (Definition.content id)) ∧
      ∃ first ∈ records .standard (queryOf (twoBlocks "b c")),
        ∃ second ∈ records .standard (queryOf (twoBlocks "b\nc")),
          (OperationBody.Apart first.body second.body ∧ first.hash = second.hash) ∧
          first.bodySource.IsClean ∧ ¬second.bodySource.IsClean := by
  constructor
  · have printed : ∃ first ∈ records .standard (queryOf "\"x y\""),
        ∃ second ∈ records .standard (queryOf "\"x  y\""),
          OperationBody.collapseAfter false first.body.toList =
            OperationBody.collapseAfter false second.body.toList ∧
          first.bodySource.IsClean ∧ second.bodySource.IsClean ∧
          first.bodySource.document.definitions.map Definition.print ≠
            second.bodySource.document.definitions.map Definition.print := by
      decide +kernel
    rcases printed with
      ⟨first, first_mem, second, second_mem, same, firstClean, secondClean, differ⟩
    refine ⟨first, first_mem, second, second_mem,
      hash_eq_of_collapseAfter_eq first_mem second_mem same, firstClean, secondClean, ?_⟩
    intro equal
    have again := congrArg (List.map Definition.print) equal
    simp only [List.map_map, Function.comp_def, Definition.print_content] at again
    exact differ again
  · have collapsed : ∃ first ∈ records .standard (queryOf (twoBlocks "b c")),
        ∃ second ∈ records .standard (queryOf (twoBlocks "b\nc")),
          OperationBody.collapseAfter false first.body.toList =
            OperationBody.collapseAfter false second.body.toList ∧
          first.bodySource.IsClean ∧ ¬second.bodySource.IsClean := by
      decide +kernel
    rcases collapsed with ⟨first, first_mem, second, second_mem, same, clean⟩
    exact ⟨first, first_mem, second, second_mem,
      hash_eq_of_collapseAfter_eq first_mem second_mem same, clean⟩

end OperationCompiler

end WiredGraph
