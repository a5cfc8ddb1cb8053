import WiredGraph.Proofs.Compile.Sources
import WiredGraph.Proofs.Schema.Agreement

/-!
# Extending a type in place

A type may be declared whole, or by a base definition and extensions. If the extensions stand in the
document of the base, merging them into it changes nothing: the base keeps its place, its name and
its description, and everything that the extensions add follows what it has itself. An extension may
also stand before the base that it is merged into.
-/

namespace WiredGraph

namespace TypeDefinition

/-- What a base definition and additions of its kind say together. -/
def Body.extendedBy (additions : List Body) : Body → Body
  | .object interfaces fields =>
      .object (interfaces ++ additions.flatMap Body.interfaces)
        (fields ++ additions.flatMap Body.fields)
  | .interface interfaces fields =>
      .interface (interfaces ++ additions.flatMap Body.interfaces)
        (fields ++ additions.flatMap Body.fields)
  | .union members => .union (members ++ additions.flatMap Body.members)
  | .enum values => .enum (values ++ additions.flatMap Body.values)
  | .input fields => .input (fields ++ additions.flatMap Body.inputFields)
  | .scalar => .scalar

/-- One definition with everything that a base definition and its extensions say. -/
def extendedBy (base : TypeDefinition) (additions : List TypeDefinition) : TypeDefinition where
  description := base.description
  name := base.name
  directives := base.directives ++ additions.flatMap TypeDefinition.directives
  body := base.body.extendedBy (additions.map TypeDefinition.body)
  span := base.span

variable {base : TypeDefinition} {additions : List TypeDefinition}

theorem kind_extendedBy : (base.extendedBy additions).kind = base.kind := by
  rcases base with ⟨description, name, directives, body, span⟩
  cases body <;> rfl

/-- The parts of a merged definition are those of the base and then those of the additions, if the
additions are of its kind. -/
structure KeepsParts (base : TypeDefinition) (additions : List TypeDefinition)
    (merged : TypeDefinition) : Prop where
  directives : merged.directives =
    base.directives ++ additions.flatMap TypeDefinition.directives
  interfaces : merged.body.interfaces =
    base.body.interfaces ++ additions.flatMap (·.body.interfaces)
  fields : merged.body.fields = base.body.fields ++ additions.flatMap (·.body.fields)
  inputFields : merged.body.inputFields =
    base.body.inputFields ++ additions.flatMap (·.body.inputFields)
  members : merged.body.members = base.body.members ++ additions.flatMap (·.body.members)
  values : merged.body.values = base.body.values ++ additions.flatMap (·.body.values)

/-- A definition keeps the parts of its additions if all have its kind; those that its kind does not
have are none. -/
theorem keepsParts_extendedBy (sameKind : ∀ addition ∈ additions, addition.kind = base.kind) :
    base.KeepsParts additions (base.extendedBy additions) := by
  rcases base with ⟨description, name, directives, body, span⟩
  cases body <;> constructor <;>
    simp only [extendedBy, Body.extendedBy, Body.interfaces, Body.fields, Body.inputFields,
      Body.members, Body.values, List.flatMap_map, List.nil_append]
  all_goals
    refine (List.flatMap_eq_nil_iff.mpr fun addition addition_mem => ?_).symm
    have same := sameKind addition addition_mem
    rcases addition with ⟨_, _, _, other, _⟩
    cases other <;> first | rfl | nomatch same

theorem fieldNames_of_input {definition : TypeDefinition} (kind : definition.kind = .input) :
    definition.fieldNames = definition.body.inputFields.map InputValueDefinition.name := by
  rcases definition with ⟨description, name, directives, body, span⟩
  cases body <;> first | rfl | nomatch kind

theorem fieldNames_of_ne_input {definition : TypeDefinition} (kind : definition.kind ≠ .input) :
    definition.fieldNames = definition.body.fields.map FieldDefinition.name := by
  rcases definition with ⟨description, name, directives, body, span⟩
  cases body <;> first | exact List.append_nil _ | exact absurd rfl kind

theorem fieldNames_extendedBy (sameKind : ∀ addition ∈ additions, addition.kind = base.kind) :
    (base.extendedBy additions).fieldNames =
      base.fieldNames ++ additions.flatMap TypeDefinition.fieldNames := by
  have keeps := keepsParts_extendedBy sameKind
  by_cases kind : base.kind = .input
  · rw [fieldNames_of_input kind, fieldNames_of_input (kind_extendedBy.trans kind),
      keeps.inputFields, List.map_append, List.map_flatMap]
    refine congrArg _ (List.flatMap_congr fun addition addition_mem => ?_)
    exact (fieldNames_of_input ((sameKind addition addition_mem).trans kind)).symm
  · rw [fieldNames_of_ne_input kind, fieldNames_of_ne_input (kind_extendedBy.trans_ne kind),
      keeps.fields, List.map_append, List.map_flatMap]
    refine congrArg _ (List.flatMap_congr fun addition addition_mem => ?_)
    exact (fieldNames_of_ne_input ((sameKind addition addition_mem).trans_ne kind)).symm

/-- The definition with some additions, if it defines the type that they belong to. -/
def mergedFor (name : String) (additions : List TypeDefinition) (definition : TypeDefinition) :
    TypeDefinition :=
  if definition.name.text = name then definition.extendedBy additions else definition

theorem kind_mergedFor {name : String} : (base.mergedFor name additions).kind = base.kind := by
  rw [mergedFor]
  split
  · exact kind_extendedBy
  · rfl

theorem name_mergedFor {name : String} : (base.mergedFor name additions).name = base.name := by
  rw [mergedFor]
  split <;> rfl

end TypeDefinition

namespace Document

/-- The extensions of a type in a document. -/
def extensionsOf (document : Document) (name : String) : List TypeDefinition :=
  document.extensions.filter (·.name.text = name)

/-- What becomes of a definition when the extensions of a type are merged into its base. -/
def mergedDefinition? (name : String) (additions : List TypeDefinition) :
    Definition → Option Definition
  | .type definition => some (.type (definition.mergedFor name additions))
  | .extension addition =>
      if addition.name.text = name then none else some (.extension addition)
  | definition => some definition

/-- The document with the extensions of a type merged into its base definition. -/
def merged (document : Document) (name : String) : Document where
  definitions :=
    document.definitions.filterMap (mergedDefinition? name (document.extensionsOf name))
  span := document.span

variable {document : Document} {name : String}

theorem types_merged :
    (document.merged name).types =
      document.types.map (TypeDefinition.mergedFor name (document.extensionsOf name)) := by
  rw [types, merged, List.filterMap_filterMap, types, List.map_filterMap]
  refine List.filterMap_congr fun definition _ => ?_
  cases definition with
  | extension addition =>
      rw [mergedDefinition?]
      split <;> rfl
  | _ => rfl

theorem extensions_merged :
    (document.merged name).extensions = document.extensions.filter (·.name.text ≠ name) := by
  rw [extensions, merged, List.filterMap_filterMap, extensions, List.filter_filterMap]
  refine List.filterMap_congr fun definition _ => ?_
  cases definition with
  | extension addition =>
      rw [mergedDefinition?]
      by_cases named : addition.name.text = name <;> simp [Definition.extension?, Option.filter, named]
  | _ => rfl

/-- A type has one base definition, and its extensions are of the kind of the base and stand in the
same document. -/
structure ExtendsInPlace (documents : List Document) (name : String) : Prop where
  /-- There is one base definition in all documents. -/
  single : (documents.flatMap types).countP (·.name.text = name) = 1
  /-- A document with an extension has the base, which is of the same kind. -/
  together : ∀ document ∈ documents, ∀ addition ∈ document.extensionsOf name,
    ∃ base ∈ document.types, base.name.text = name ∧ base.kind = addition.kind

/-- The extensions in the document of the base are of its kind. -/
theorem ExtendsInPlace.sameKind {documents : List Document}
    (inPlace : ExtendsInPlace documents name) (document_mem : document ∈ documents)
    {base : TypeDefinition} (base_mem : base ∈ document.types) (named : base.name.text = name) :
    ∀ addition ∈ document.extensionsOf name, addition.kind = base.kind := by
  intro addition addition_mem
  rcases inPlace.together document document_mem addition addition_mem with
    ⟨other, other_mem, otherNamed, sameKind⟩
  have single := inPlace.single
  rw [List.countP_eq_length_filter, List.length_eq_one_iff] at single
  rcases single with ⟨only, single⟩
  have eq_only : ∀ definition ∈ document.types, definition.name.text = name → definition = only := by
    intro definition definition_mem named
    rw [← List.mem_singleton, ← single, List.mem_filter]
    exact ⟨List.mem_flatMap.mpr ⟨document, document_mem, definition_mem⟩, decide_eq_true named⟩
  rw [← sameKind, eq_only other other_mem otherNamed, eq_only base base_mem named]

end Document

namespace SchemaSource

/-- The source with the extensions of a type merged into its base definition. -/
def merged (source : SchemaSource) (name : String) : SchemaSource :=
  ⟨⟨source.parsed.file, source.parsed.document.merged name⟩, source.module⟩

end SchemaSource

namespace Contribution

/-- What becomes of a base definition. -/
def merged (name : String) (base : Contribution) : Contribution :=
  ⟨base.source.merged name,
    base.definition.mergedFor name (base.source.parsed.document.extensionsOf name)⟩

/-- What becomes of an extension of another type. -/
def moved (name : String) (extension : Contribution) : Contribution :=
  ⟨extension.source.merged name, extension.definition⟩

variable {name : String} {contribution : Contribution}

theorem name_merged : (contribution.merged name).name = contribution.name := by
  rw [Contribution.name, merged, TypeDefinition.name_mergedFor]
  rfl

theorem kind_merged : (contribution.merged name).kind = contribution.kind :=
  TypeDefinition.kind_mergedFor

theorem location_merged : (contribution.merged name).location = contribution.location := by
  rw [location, merged, TypeDefinition.name_mergedFor]
  rfl

theorem merged_of_named (named : contribution.name = name) :
    contribution.merged name = ⟨contribution.source.merged name,
      contribution.definition.extendedBy
        (contribution.source.parsed.document.extensionsOf name)⟩ :=
  congrArg (Contribution.mk _) (if_pos named)

theorem merged_of_ne (differs : contribution.name ≠ name) :
    contribution.merged name = contribution.moved name :=
  congrArg (Contribution.mk _) (if_neg differs)

theorem bases_merged (source : SchemaSource) :
    bases (source.merged name) = (bases source).map (merged name) := by
  rw [bases, bases, List.map_map]
  exact (congrArg _ Document.types_merged).trans List.map_map

theorem extensions_merged (source : SchemaSource) :
    extensions (source.merged name) =
      ((extensions source).filter (·.name ≠ name)).map (moved name) := by
  rw [extensions, extensions, List.filter_map, List.map_map]
  exact congrArg _ Document.extensions_merged

end Contribution

namespace DeclaredType

variable {name : String} {base : Contribution} {extensions : List Contribution}

/-- A type that is not merged only moves to the changed documents. No part changes, and neither does
its place. -/
theorem agrees_moved (differs : base.name ≠ name) :
    Agrees ⟨base.merged name, extensions.map (Contribution.moved name)⟩ ⟨base, extensions⟩ := by
  have unchanged := Contribution.merged_of_ne differs
  have contributions : contributions ⟨base.merged name, extensions.map (Contribution.moved name)⟩ =
      (contributions ⟨base, extensions⟩).map (Contribution.moved name) := by
    rw [unchanged]
    rfl
  constructor
  case name => exact Contribution.name_merged
  case location => exact Contribution.location_merged
  case kind => exact Contribution.kind_merged
  case owner => rfl
  case description => exact congrArg (·.definition.description) unchanged
  all_goals
    simp only [directives, placedFields, placedInputFields, placedNames, contributions,
      List.flatMap_map]
    rfl

/-- One definition of a type agrees with a base definition and additions that stand in the same
source. The place of a part is told by the file, the module and the name of the type. -/
theorem agrees_extendedBy {source : SchemaSource} {definition : TypeDefinition}
    {additions : List TypeDefinition}
    (sameName : ∀ addition ∈ additions, addition.name.text = definition.name.text)
    (sameKind : ∀ addition ∈ additions, addition.kind = definition.kind) :
    Agrees ⟨⟨source.merged name, definition.extendedBy additions⟩, []⟩
      ⟨⟨source, definition⟩, additions.map (⟨source, ·⟩)⟩ := by
  have keeps := TypeDefinition.keepsParts_extendedBy sameKind
  have placed {Part : Type} (parts : TypeDefinition → List Part)
      (kept : parts (definition.extendedBy additions) =
        parts definition ++ additions.flatMap parts) :
      (contributions ⟨⟨source.merged name, definition.extendedBy additions⟩, []⟩).flatMap
          (fun contribution => (parts contribution.definition).map contribution.place) =
        (contributions ⟨⟨source, definition⟩, additions.map (⟨source, ·⟩)⟩).flatMap
          (fun contribution => (parts contribution.definition).map contribution.place) := by
    simp only [contributions, List.flatMap_cons, List.flatMap_nil, List.append_nil,
      List.flatMap_map, kept, List.map_append, List.map_flatMap]
    refine congrArg _ (List.flatMap_congr fun addition addition_mem => ?_)
    refine List.map_congr_left fun part _ => ?_
    exact congrArg (Placed.mk source.parsed.file source.module · part)
      (sameName addition addition_mem).symm
  constructor
  case kind => exact TypeDefinition.kind_extendedBy
  case name | location | owner | description => rfl
  case fields => exact placed (·.body.fields) keeps.fields
  case inputFields => exact placed (·.body.inputFields) keeps.inputFields
  case names =>
    exact placed TypeDefinition.fieldNames (TypeDefinition.fieldNames_extendedBy sameKind)
  all_goals
    simp only [directives, contributions, List.flatMap_cons, List.flatMap_nil, List.append_nil,
      List.flatMap_map]
  case directives => exact keeps.directives
  case interfaces => exact keeps.interfaces
  case members => exact keeps.members
  case values => exact keeps.values

section Gathering

variable {change : Contribution → Contribution} {bases : List Contribution}

theorem checkDistinct_map (sameName : ∀ base, (change base).name = base.name)
    (sameLocation : ∀ base, (change base).location = base.location) (earlier : List Contribution) :
    checkDistinct (earlier.map change) (bases.map change) = checkDistinct earlier bases := by
  induction bases generalizing earlier with
  | nil => rfl
  | cons base rest ih =>
      have later := ih (earlier ++ [base])
      rw [List.map_append] at later
      rw [List.map_cons, checkDistinct, checkDistinct, List.find?_map]
      simp only [Function.comp_def, sameName]
      cases earlier.find? (·.name = base.name) with
      | none => exact later
      | some previous => simp only [Option.map_some, sameLocation]

theorem checkTarget_map (sameName : ∀ base, (change base).name = base.name)
    (sameKind : ∀ base, (change base).kind = base.kind) (extension : Contribution) :
    checkTarget (bases.map change) (extension.moved name) = checkTarget bases extension := by
  have sameTargets : (∃ base ∈ bases.map change, base.name = (extension.moved name).name ∧
        base.kind = (extension.moved name).kind) ↔
      ∃ base ∈ bases, base.name = extension.name ∧ base.kind = extension.kind := by
    simp only [List.mem_map, exists_exists_and_eq_and, sameName, sameKind]
    rfl
  rw [checkTarget, checkTarget]
  exact if_congr sameTargets rfl rfl

end Gathering

end DeclaredType

namespace SchemaCompiler

variable {name : String} {documents : List Document} {sources : List SchemaSource}

/-- Sources without a base definition of a type that is extended in place have no extension of it. -/
theorem filter_extensions_eq_nil
    (inPlace : Document.ExtendsInPlace documents name)
    (within : ∀ source ∈ sources, source.parsed.document ∈ documents)
    (noBase : ((sources.map (·.parsed.document)).flatMap Document.types).countP
      (·.name.text = name) = 0) :
    (sources.flatMap Contribution.extensions).filter (·.name = name) = [] := by
  rw [List.filter_eq_nil_iff]
  intro extension extension_mem named
  rcases List.mem_flatMap.mp extension_mem with ⟨source, source_mem, here⟩
  rcases List.mem_map.mp here with ⟨addition, addition_mem, rfl⟩
  rcases inPlace.together _ (within source source_mem) addition
    (List.mem_filter.mpr ⟨addition_mem, named⟩) with ⟨base, base_mem, baseNamed, -⟩
  refine List.countP_eq_zero.mp noBase base ?_ (decide_eq_true baseNamed)
  exact List.mem_flatMap.mpr ⟨_, List.mem_map_of_mem source_mem, base_mem⟩

/-- The extensions of a type that is extended in place stand in the source of its base. The base is
the only one, so neither the sources before its source nor those after it have one. -/
theorem filter_extensions_of_base
    (inPlace : Document.ExtendsInPlace (sources.map (·.parsed.document)) name)
    {base : Contribution} (base_mem : base ∈ sources.flatMap Contribution.bases)
    (named : base.name = name) :
    (sources.flatMap Contribution.extensions).filter (·.name = name) =
      (base.source.parsed.document.extensionsOf name).map (⟨base.source, ·⟩) := by
  rcases List.mem_flatMap.mp base_mem with ⟨source, source_mem, here⟩
  rcases List.mem_map.mp here with ⟨definition, definition_mem, rfl⟩
  have within : ∀ other ∈ sources, other.parsed.document ∈ sources.map (·.parsed.document) :=
    fun other other_mem => List.mem_map_of_mem other_mem
  have single := inPlace.single
  rcases List.append_of_mem source_mem with ⟨front, back, split⟩
  have hasBase : 0 < source.parsed.document.types.countP (·.name.text = name) :=
    List.countP_pos_iff.mpr ⟨definition, definition_mem, decide_eq_true named⟩
  simp only [split, List.map_append, List.map_cons, List.flatMap_append, List.flatMap_cons,
    List.countP_append] at single
  have before : (front.flatMap Contribution.extensions).filter (·.name = name) = [] :=
    filter_extensions_eq_nil inPlace
      (fun other other_mem => within other (by simp [split, other_mem])) (by omega)
  have after : (back.flatMap Contribution.extensions).filter (·.name = name) = [] :=
    filter_extensions_eq_nil inPlace
      (fun other other_mem => within other (by simp [split, other_mem])) (by omega)
  rw [split, List.flatMap_append, List.flatMap_cons, List.filter_append, List.filter_append, before,
    after, List.nil_append, List.append_nil, Contribution.extensions, List.filter_map]
  rfl

/-- An extension of a type that is extended in place finds its base. -/
theorem checkTarget_of_inPlace
    (inPlace : Document.ExtendsInPlace (sources.map (·.parsed.document)) name)
    {extension : Contribution} (extension_mem : extension ∈ sources.flatMap Contribution.extensions)
    (named : extension.name = name) :
    DeclaredType.checkTarget (sources.flatMap Contribution.bases) extension = .ok () := by
  rcases List.mem_flatMap.mp extension_mem with ⟨source, source_mem, here⟩
  rcases List.mem_map.mp here with ⟨addition, addition_mem, rfl⟩
  rcases inPlace.together _ (List.mem_map_of_mem source_mem) addition
    (List.mem_filter.mpr ⟨addition_mem, decide_eq_true named⟩) with
      ⟨base, base_mem, baseNamed, sameKind⟩
  refine if_pos ⟨⟨source, base⟩, ?_, baseNamed.trans named.symm, sameKind⟩
  exact List.mem_flatMap.mpr ⟨source, source_mem, List.mem_map_of_mem base_mem⟩

/-- The types that are gathered agree in pairs. -/
theorem agrees_of_inPlace
    (inPlace : Document.ExtendsInPlace (sources.map (·.parsed.document)) name)
    {base : Contribution} (base_mem : base ∈ sources.flatMap Contribution.bases) :
    DeclaredType.Agrees
      ⟨base.merged name, (((sources.flatMap Contribution.extensions).filter (·.name ≠ name)).map
        (Contribution.moved name)).filter (·.name = (base.merged name).name)⟩
      ⟨base, (sources.flatMap Contribution.extensions).filter (·.name = base.name)⟩ := by
  have others : (((sources.flatMap Contribution.extensions).filter (·.name ≠ name)).map
        (Contribution.moved name)).filter (·.name = (base.merged name).name) =
      ((sources.flatMap Contribution.extensions).filter fun extension =>
        extension.name = base.name ∧ extension.name ≠ name).map (Contribution.moved name) := by
    simp only [List.filter_map, List.filter_filter, Contribution.name_merged, Bool.decide_and]
    rfl
  rw [others]
  by_cases named : base.name = name
  · have noneLeft : ((sources.flatMap Contribution.extensions).filter fun extension =>
        extension.name = base.name ∧ extension.name ≠ name) = [] := by
      simp [named]
    rcases List.mem_flatMap.mp base_mem with ⟨source, source_mem, here⟩
    rcases List.mem_map.mp here with ⟨definition, definition_mem, rfl⟩
    rw [noneLeft, named, filter_extensions_of_base inPlace base_mem named, List.map_nil,
      Contribution.merged_of_named named]
    apply DeclaredType.agrees_extendedBy
    · intro addition addition_mem
      exact (of_decide_eq_true (List.mem_filter.mp addition_mem).2).trans named.symm
    · exact inPlace.sameKind (List.mem_map_of_mem source_mem) definition_mem named
  · have allLeft : ((sources.flatMap Contribution.extensions).filter fun extension =>
          extension.name = base.name ∧ extension.name ≠ name) =
        (sources.flatMap Contribution.extensions).filter (·.name = base.name) := by
      refine List.filter_congr fun extension _ => decide_eq_decide.mpr ?_
      exact and_iff_left_of_imp fun same => same ▸ named
    rw [allLeft]
    exact DeclaredType.agrees_moved named

/-- Merging the extensions of a type changes what is gathered from sources only to types that agree,
or not at all. -/
theorem ofSources_merged
    (inPlace : Document.ExtendsInPlace (sources.map (·.parsed.document)) name) :
    SameOutcome Eq (List.Forall₂ DeclaredType.Agrees)
      (DeclaredType.ofSources (sources.map (·.merged name))) (DeclaredType.ofSources sources) := by
  have bases : (sources.map (·.merged name)).flatMap Contribution.bases =
      (sources.flatMap Contribution.bases).map (Contribution.merged name) := by
    simp only [List.flatMap_map, Contribution.bases_merged, List.map_flatMap]
  have extensions : (sources.map (·.merged name)).flatMap Contribution.extensions =
      ((sources.flatMap Contribution.extensions).filter (·.name ≠ name)).map
        (Contribution.moved name) := by
    simp only [List.flatMap_map, Contribution.extensions_merged, List.filter_flatMap,
      List.map_flatMap]
  have distinct : DeclaredType.checkDistinct []
        ((sources.flatMap Contribution.bases).map (Contribution.merged name)) =
      DeclaredType.checkDistinct [] (sources.flatMap Contribution.bases) :=
    DeclaredType.checkDistinct_map (fun base => base.name_merged)
      (fun base => base.location_merged) []
  have targeted : (((sources.flatMap Contribution.extensions).filter (·.name ≠ name)).map
        (Contribution.moved name)).forM (DeclaredType.checkTarget
          ((sources.flatMap Contribution.bases).map (Contribution.merged name))) =
      (sources.flatMap Contribution.extensions).forM
        (DeclaredType.checkTarget (sources.flatMap Contribution.bases)) := by
    have passes : ∀ extension ∈ sources.flatMap Contribution.extensions,
        decide (extension.name ≠ name) = false →
          DeclaredType.checkTarget (sources.flatMap Contribution.bases) extension = .ok () := by
      intro extension extension_mem named
      exact checkTarget_of_inPlace inPlace extension_mem (by simpa using named)
    rw [← Success.forM_filter_eq passes, List.forM_eq_forM, List.forM_map]
    simp only [DeclaredType.checkTarget_map (fun base => base.name_merged)
      fun base => base.kind_merged]
  rw [DeclaredType.ofSources, DeclaredType.ofSources, bases, extensions, targeted, distinct]
  refine .bind_same fun _ => .bind_same fun _ => .ok ?_
  rw [List.map_map, List.forall₂_map_left_iff, List.forall₂_map_right_iff, List.forall₂_same]
  exact fun base base_mem => agrees_of_inPlace inPlace base_mem

/-- What compiling does with the documents that it has read. -/
def compileParsed (settings : Settings) (parsed : List ParsedSource) :
    Except CompileError (List DescriptorTable) := do
  let sources ← parsed.mapM (SchemaSource.ofParsed settings.moduleLayout)
  let types ← DeclaredType.ofSources sources
  tables settings (modules sources) types

theorem compile_eq (settings : Settings) (files : List SourceFile) :
    compile settings files = ParsedSource.ofFiles files >>= compileParsed settings := rfl

/-- The documents with the extensions of a type merged into its base definition. -/
def mergeExtensions (name : String) (parsed : List ParsedSource) : List ParsedSource :=
  parsed.map fun source => ⟨source.file, source.document.merged name⟩

theorem mapM_ofParsed_mergeExtensions (layout : ModuleLayout) (parsed : List ParsedSource) :
    (mergeExtensions name parsed).mapM (SchemaSource.ofParsed layout) =
      List.map (·.merged name) <$> parsed.mapM (SchemaSource.ofParsed layout) := by
  induction parsed with
  | nil => rfl
  | cons source rest ih =>
      rw [mergeExtensions, List.map_cons, List.mapM_cons, List.mapM_cons, ← mergeExtensions, ih,
        SchemaSource.ofParsed, SchemaSource.ofParsed]
      cases layout.moduleFor source.file.path <;>
        cases rest.mapM (SchemaSource.ofParsed layout) <;> rfl

theorem map_parsed_of_mapM_ofParsed {layout : ModuleLayout} {parsed : List ParsedSource}
    (placed : parsed.mapM (SchemaSource.ofParsed layout) = .ok sources) :
    sources.map SchemaSource.parsed = parsed := by
  rw [Success.mapM_eq_ok_iff] at placed
  rw [← List.forall₂_eq_eq_eq, List.forall₂_map_left_iff]
  refine placed.flip.imp fun source parsed found => ?_
  rw [SchemaSource.ofParsed] at found
  split at found
  · cases found
    rfl
  · nomatch found

/-- Extending a type in place is the same as declaring it whole: merging the extensions into the base
definition does not change the tables, or the error. -/
theorem compile_mergeExtensions (settings : Settings) (parsed : List ParsedSource) (name : String)
    (inPlace : Document.ExtendsInPlace (parsed.map ParsedSource.document) name) :
    compileParsed settings (mergeExtensions name parsed) = compileParsed settings parsed ∧
      ∀ files, ParsedSource.ofFiles files = .ok parsed →
        compile settings files = compileParsed settings (mergeExtensions name parsed) := by
  have same : compileParsed settings (mergeExtensions name parsed) =
      compileParsed settings parsed := by
    rw [compileParsed, compileParsed, mapM_ofParsed_mergeExtensions, bind_map_left]
    cases placed : parsed.mapM (SchemaSource.ofParsed settings.moduleLayout) with
    | error fault => rfl
    | ok sources =>
        rw [← map_parsed_of_mapM_ofParsed placed, List.map_map] at inPlace
        have sameModules : modules (sources.map (·.merged name)) = modules sources := by
          rw [modules, modules, List.map_map]
          rfl
        change DeclaredType.ofSources (sources.map (·.merged name)) >>= tables settings _ =
          DeclaredType.ofSources sources >>= tables settings _
        rw [sameModules]
        rcases SameOutcome.iff_exists.mp (ofSources_merged inPlace) with
          ⟨fault, _, failed, otherFailed, rfl⟩ | ⟨types, others, found, otherFound, agree⟩
        · rw [failed, otherFailed]
        · rw [found, otherFound]
          exact tables_of_agrees agree
  refine ⟨same, fun files read => ?_⟩
  rw [compile_eq, read, same]
  rfl

/-- A type with an extension before its base definition and one after it, beside a type that is
extended in another source. -/
def plots : List SourceFile :=
  [⟨"garden/garden.graphql", "extend type Plot @shaded \x7b area: Int \x7d " ++
      "type Plot \x7b id: ID \x7d extend type Plot implements Shape \x7b beds: [Bed] \x7d " ++
      "type Bed \x7b id: ID \x7d", 1⟩,
    ⟨"plants/plants.graphql", "extend type Bed \x7b plant: String \x7d", 1⟩]

theorem compile_mergeExtensions_plots :
    ∃ tables, compile .standard plots = .ok tables ∧
      compileParsed .standard (mergeExtensions "Plot" (plots.map SourceFile.parsed)) = .ok tables ∧
      ((mergeExtensions "Plot" (plots.map SourceFile.parsed)).flatMap
        (·.document.extensions)).map (·.name.text) = ["Bed"] := by
  have facts : (∀ file ∈ plots, file.IsClean) ∧
      (((plots.map SourceFile.parsed).map ParsedSource.document).flatMap Document.types).countP
        (·.name.text = "Plot") = 1 ∧
      (∀ document ∈ (plots.map SourceFile.parsed).map ParsedSource.document,
        ∀ addition ∈ document.extensionsOf "Plot", ∃ base ∈ document.types,
          base.name.text = "Plot" ∧ base.kind = addition.kind) ∧
      ((mergeExtensions "Plot" (plots.map SourceFile.parsed)).flatMap
        (·.document.extensions)).map (·.name.text) = ["Bed"] ∧
      (compile .standard plots).toOption.isSome = true := by decide +kernel
  rcases facts with ⟨clean, single, together, left, succeeds⟩
  have read : ParsedSource.ofFiles plots = .ok (plots.map SourceFile.parsed) :=
    ParsedSource.ofFiles_eq_ok_iff.mpr ⟨clean, rfl⟩
  have whole := (compile_mergeExtensions .standard (plots.map SourceFile.parsed) "Plot"
    ⟨single, together⟩).2 plots read
  cases compiled : compile .standard plots with
  | error fault => simp [compiled, Except.toOption] at succeeds
  | ok tables => exact ⟨tables, rfl, by rw [← whole, compiled], left⟩

end SchemaCompiler

end WiredGraph
