import Mathlib.Data.List.Basic
import WiredGraph.Operation.Typename
import WiredGraph.Proofs.Document.WellFormed

/-!
# Asking for type names

Adding type names to selections is done once and for all: a second time adds nothing. It can be
done with or without spans, keeps selections well-formed, and leaves the fragments that they
spread as they are.
-/

namespace WiredGraph

namespace Selection

@[simp]
theorem withTypenamesEach_eq_map (selections : List Selection) :
    withTypenamesEach selections = selections.map withTypenames := by
  induction selections with
  | nil => rfl
  | cons selection rest ih => rw [withTypenamesEach, ih, List.map_cons]

/-- A field asks for the same name before and after. -/
@[simp]
theorem introspects_withTypenames (selection : Selection) :
    selection.withTypenames.introspects = selection.introspects := by
  rcases selection with ⟨_, _, _, _, - | set, _⟩ | _ | _ <;> rfl

@[simp]
theorem introspects_content (read : String → String) (selection : Selection) :
    (selection.content read).introspects = selection.introspects := by
  rcases selection with ⟨_, _, _, _, - | set, _⟩ | _ | _ <;> rfl

@[simp]
theorem withTypenames_typename : typename.withTypenames = typename := rfl

@[simp]
theorem content_typename (read : String → String) : typename.content read = typename := rfl

/-- What a set asks for, given what it asks for at greater depth. -/
def askTypename (below : List Selection) : List Selection :=
  if below.any introspects then below else below ++ [typename]

theorem withTypenames_mk (selections : List Selection) (span : Span) :
    (SelectionSet.mk selections span).withTypenames =
      .mk (askTypename (selections.map withTypenames)) span := by
  rw [SelectionSet.withTypenames, withTypenamesEach_eq_map, askTypename]

/-- A change that keeps which selections introspect can be made before or after. -/
theorem map_askTypename {change : Selection → Selection} {selections : List Selection}
    (keeps : ∀ selection, (change selection).introspects = selection.introspects)
    (fixed : change typename = typename) :
    (askTypename selections).map change = askTypename (selections.map change) := by
  have same : (selections.map change).any introspects = selections.any introspects := by
    rw [List.any_map]
    exact congrArg selections.any (funext keeps)
  rw [askTypename, askTypename, same]
  split
  · rfl
  · rw [List.map_append, List.map_singleton, fixed]

/-- A set that asks for the type name asks for it once. -/
theorem askTypename_twice (selections : List Selection) :
    askTypename (askTypename selections) = askTypename selections := by
  have asks : (askTypename selections).any introspects = true := by
    rw [askTypename]
    split
    · assumption
    · simp [introspects, typename]
  rw [askTypename, if_pos asks]

/-- A second time adds no type name. Fields and inline fragments treat their sets alike. -/
theorem withTypenames_twice (selection : Selection) :
    selection.withTypenames.withTypenames = selection.withTypenames := by
  have again : ∀ selections : List Selection,
      (∀ selection ∈ selections, selection.withTypenames.withTypenames = selection.withTypenames) →
        askTypename ((askTypename (selections.map withTypenames)).map withTypenames) =
          askTypename (selections.map withTypenames) := by
    intro selections each
    have same : selections.map (withTypenames ∘ withTypenames) = selections.map withTypenames :=
      List.map_congr_left each
    rw [map_askTypename introspects_withTypenames withTypenames_typename, askTypename_twice,
      List.map_map, same]
  induction selection with
  | leaf | spread => rfl
  | field aliasName name arguments directives selections setSpan span ih =>
      simp only [withTypenames, withTypenames_mk, again selections ih]
  | inline condition directives selections setSpan span ih =>
      simp only [withTypenames, withTypenames_mk, again selections ih]

/-- Type names can be added with or without spans. -/
theorem content_withTypenames (read : String → String) (selection : Selection) :
    selection.withTypenames.content read = (selection.content read).withTypenames := by
  have commutes : ∀ selections : List Selection,
      (∀ selection ∈ selections,
        selection.withTypenames.content read = (selection.content read).withTypenames) →
        (askTypename (selections.map withTypenames)).map (content read) =
          askTypename ((selections.map (content read)).map withTypenames) := by
    intro selections each
    have same : selections.map (content read ∘ withTypenames) =
        selections.map (withTypenames ∘ content read) := List.map_congr_left each
    rw [map_askTypename (introspects_content read) (content_typename read), List.map_map,
      List.map_map, same]
  induction selection with
  | leaf | spread => rfl
  | field aliasName name arguments directives selections setSpan span ih =>
      simp only [withTypenames, withTypenames_mk, content, SelectionSet.content,
        contentEach_eq_map, commutes selections ih]
  | inline condition directives selections setSpan span ih =>
      simp only [withTypenames, withTypenames_mk, content, SelectionSet.content,
        contentEach_eq_map, commutes selections ih]

theorem spreadNamesOfList_eq_flatMap (selections : List Selection) :
    spreadNamesOfList selections = selections.flatMap spreadNames := by
  induction selections with
  | nil => rfl
  | cons selection rest ih => rw [spreadNamesOfList, ih, List.flatMap_cons]

theorem flatMap_askTypename (selections : List Selection) :
    (askTypename selections).flatMap spreadNames = selections.flatMap spreadNames := by
  rw [askTypename]
  split
  · rfl
  · simp [typename, spreadNames]

/-- Adding type names spreads no fragment. -/
theorem spreadNames_withTypenames (selection : Selection) :
    selection.withTypenames.spreadNames = selection.spreadNames := by
  induction selection with
  | leaf | spread => rfl
  | field aliasName name arguments directives selections setSpan span ih =>
      simp only [withTypenames, withTypenames_mk, spreadNames, SelectionSet.spreadNames,
        spreadNamesOfList_eq_flatMap, flatMap_askTypename, List.flatMap_map]
      exact List.flatMap_congr ih
  | inline condition directives selections setSpan span ih =>
      simp only [withTypenames, withTypenames_mk, spreadNames, SelectionSet.spreadNames,
        spreadNamesOfList_eq_flatMap, flatMap_askTypename, List.flatMap_map]
      exact List.flatMap_congr ih

theorem spreadNames_content (read : String → String) (selection : Selection) :
    (selection.content read).spreadNames = selection.spreadNames := by
  induction selection with
  | leaf | spread => rfl
  | field aliasName name arguments directives selections setSpan span ih =>
      simp only [content, SelectionSet.content, contentEach_eq_map, spreadNames,
        SelectionSet.spreadNames, spreadNamesOfList_eq_flatMap, List.flatMap_map]
      exact List.flatMap_congr ih
  | inline condition directives selections setSpan span ih =>
      simp only [content, SelectionSet.content, contentEach_eq_map, spreadNames,
        SelectionSet.spreadNames, spreadNamesOfList_eq_flatMap, List.flatMap_map]
      exact List.flatMap_congr ih

theorem wellFormed_typename (blocks : Prop) : typename.WellFormed blocks := by
  refine .leaf ⟨by simp, ?_, by simp, by simp⟩
  rw [Name.IsIdentifier]
  decide

theorem wellFormed_askTypename {blocks : Prop} {selections : List Selection}
    (wellFormed : ∀ selection ∈ selections, selection.WellFormed blocks) :
    ∀ selection ∈ askTypename selections, selection.WellFormed blocks := by
  rw [askTypename]
  split
  · exact wellFormed
  · exact List.forall_mem_append.mpr
      ⟨wellFormed, List.forall_mem_singleton.mpr (wellFormed_typename blocks)⟩

theorem WellFormed.withTypenames {blocks : Prop} {selection : Selection}
    (wellFormed : selection.WellFormed blocks) : selection.withTypenames.WellFormed blocks := by
  induction wellFormed with
  | leaf head => exact .leaf head
  | field head _ ih =>
      rw [Selection.withTypenames, withTypenames_mk]
      exact .field head (wellFormed_askTypename (List.forall_mem_map.mpr ih))
  | spread name directives => exact .spread name directives
  | inline condition directives _ ih =>
      rw [Selection.withTypenames, withTypenames_mk]
      exact .inline condition directives (wellFormed_askTypename (List.forall_mem_map.mpr ih))

end Selection

namespace SelectionSet

theorem spreadNames_eq_flatMap (set : SelectionSet) :
    set.spreadNames = set.selections.flatMap Selection.spreadNames := by
  rcases set with ⟨selections, span⟩
  exact Selection.spreadNamesOfList_eq_flatMap selections

theorem withTypenames_twice (set : SelectionSet) :
    set.withTypenames.withTypenames = set.withTypenames := by
  rcases set with ⟨selections, span⟩
  have same : selections.map (Selection.withTypenames ∘ Selection.withTypenames) =
      selections.map Selection.withTypenames :=
    List.map_congr_left fun selection _ => selection.withTypenames_twice
  rw [Selection.withTypenames_mk, Selection.withTypenames_mk,
    Selection.map_askTypename Selection.introspects_withTypenames
      Selection.withTypenames_typename,
    Selection.askTypename_twice, List.map_map, same]

theorem content_withTypenames (read : String → String) (set : SelectionSet) :
    set.withTypenames.content read = (set.content read).withTypenames := by
  rcases set with ⟨selections, span⟩
  have same : selections.map (Selection.content read ∘ Selection.withTypenames) =
      selections.map (Selection.withTypenames ∘ Selection.content read) :=
    List.map_congr_left fun selection _ => selection.content_withTypenames read
  rw [Selection.withTypenames_mk, SelectionSet.content, SelectionSet.content,
    Selection.withTypenames_mk, Selection.contentEach_eq_map, Selection.contentEach_eq_map,
    Selection.map_askTypename (Selection.introspects_content read)
      (Selection.content_typename read),
    List.map_map, List.map_map, same]

theorem spreadNames_withTypenames (set : SelectionSet) :
    set.withTypenames.spreadNames = set.spreadNames := by
  rcases set with ⟨selections, span⟩
  rw [Selection.withTypenames_mk, spreadNames_eq_flatMap, spreadNames_eq_flatMap]
  simp only [SelectionSet.selections, Selection.flatMap_askTypename, List.flatMap_map]
  exact List.flatMap_congr fun selection _ => selection.spreadNames_withTypenames

theorem spreadNames_content (read : String → String) (set : SelectionSet) :
    (set.content read).spreadNames = set.spreadNames := by
  rcases set with ⟨selections, span⟩
  rw [SelectionSet.content, Selection.contentEach_eq_map, spreadNames_eq_flatMap,
    spreadNames_eq_flatMap]
  simp only [SelectionSet.selections, List.flatMap_map]
  exact List.flatMap_congr fun selection _ => selection.spreadNames_content read

theorem WellFormed.withTypenames {blocks : Prop} {set : SelectionSet}
    (wellFormed : set.WellFormed blocks) : set.withTypenames.WellFormed blocks := by
  rcases set with ⟨selections, span⟩
  rw [Selection.withTypenames_mk]
  exact Selection.wellFormed_askTypename (List.forall_mem_map.mpr fun selection selection_mem =>
    (wellFormed selection selection_mem).withTypenames)

end SelectionSet

namespace FragmentDefinition

variable (definition : FragmentDefinition)

theorem withTypenames_twice :
    definition.withTypenames.withTypenames = definition.withTypenames := by
  simp only [withTypenames, SelectionSet.withTypenames_twice]

theorem content_withTypenames (read : String → String) :
    definition.withTypenames.content read = (definition.content read).withTypenames := by
  simp only [withTypenames, content, SelectionSet.content_withTypenames]

theorem WellFormed.withTypenames {blocks : Prop} {definition : FragmentDefinition}
    (wellFormed : definition.WellFormed blocks) : definition.withTypenames.WellFormed blocks where
  name := wellFormed.name
  condition := wellFormed.condition
  directives := wellFormed.directives
  set := wellFormed.set.withTypenames

end FragmentDefinition

namespace OperationDefinition

variable (definition : OperationDefinition)

/-- The root of an operation does not ask for a type name, only what is below it. -/
theorem withTypenames_twice :
    definition.withTypenames.withTypenames = definition.withTypenames := by
  rcases definition with ⟨operation, name, variableDefinitions, directives, ⟨selections, setSpan⟩,
    span⟩
  have same : selections.map (Selection.withTypenames ∘ Selection.withTypenames) =
      selections.map Selection.withTypenames :=
    List.map_congr_left fun selection _ => selection.withTypenames_twice
  simp only [withTypenames, SelectionSet.selections, SelectionSet.span,
    Selection.withTypenamesEach_eq_map, List.map_map, same]

theorem content_withTypenames (read : String → String) :
    definition.withTypenames.content read = (definition.content read).withTypenames := by
  rcases definition with ⟨operation, name, variableDefinitions, directives, ⟨selections, setSpan⟩,
    span⟩
  have same : selections.map (Selection.content read ∘ Selection.withTypenames) =
      selections.map (Selection.withTypenames ∘ Selection.content read) :=
    List.map_congr_left fun selection _ => selection.content_withTypenames read
  simp only [withTypenames, content, SelectionSet.content, SelectionSet.selections,
    SelectionSet.span, Selection.withTypenamesEach_eq_map, Selection.contentEach_eq_map,
    List.map_map, same]

theorem spreadNames_withTypenames :
    definition.withTypenames.set.spreadNames = definition.set.spreadNames := by
  rw [SelectionSet.spreadNames_eq_flatMap, SelectionSet.spreadNames_eq_flatMap, withTypenames]
  simp only [SelectionSet.selections, Selection.withTypenamesEach_eq_map, List.flatMap_map]
  exact List.flatMap_congr fun selection _ => selection.spreadNames_withTypenames

theorem WellFormed.withTypenames {blocks : Prop} {definition : OperationDefinition}
    (wellFormed : definition.WellFormed blocks) : definition.withTypenames.WellFormed blocks where
  name := wellFormed.name
  variableDefinitions := wellFormed.variableDefinitions
  directives := wellFormed.directives
  set := by
    rw [OperationDefinition.withTypenames, Selection.withTypenamesEach_eq_map]
    exact List.forall_mem_map.mpr fun selection selection_mem =>
      (wellFormed.set selection selection_mem).withTypenames

end OperationDefinition

end WiredGraph
