import Mathlib.Data.List.Nodup
import WiredGraph.Proofs.Compile.Sources
import WiredGraph.Proofs.OrderedMap
import WiredGraph.Proofs.Schema.Field
import WiredGraph.Schema.Compiler

/-!
# What sources declare

The base definitions of all sources make the declared types, in order, and each type is given the
extensions of its name. This does not fail if base definitions have distinct names and every
extension finds a base of its kind; then everything that is contributed to a type is of one kind.
-/

namespace WiredGraph

namespace SourceFile

/-- A layout tells the module of the source. -/
def IsPlaced (layout : ModuleLayout) (file : SourceFile) : Prop :=
  ∃ module, layout.moduleFor file.path = .ok module

end SourceFile

namespace SchemaSource

/-- A source with its document and its module, or else the empty one. -/
def ofFile (layout : ModuleLayout) (file : SourceFile) : SchemaSource :=
  ⟨file.parsed, (layout.moduleFor file.path).toOption.getD ""⟩

theorem ofParsed_eq_ok_iff {layout : ModuleLayout} {file : SourceFile} {source : SchemaSource} :
    ofParsed layout file.parsed = .ok source ↔
      file.IsPlaced layout ∧ ofFile layout file = source := by
  rw [ofParsed, ofFile, SourceFile.IsPlaced, SourceFile.parsed]
  cases layout.moduleFor file.path <;> simp [Except.toOption]

end SchemaSource

namespace DeclaredType

/-- The fields of the type, those of the base definition first. -/
def declarations (type : DeclaredType) : List FieldDeclaration :=
  type.contributions.flatMap Contribution.declarations

/-- The fields that are declared for the type in sources of a module. -/
def declarationsIn (type : DeclaredType) (module : String) : List FieldDeclaration :=
  (type.contributionsOf module).flatMap Contribution.declarations

/-- Nothing of another kind is contributed to the type. -/
def IsUniform (type : DeclaredType) : Prop :=
  ∀ contribution ∈ type.contributions, contribution.kind = type.kind

/-- Everything that is contributed to the type is well-formed. -/
def IsWellFormed (type : DeclaredType) : Prop :=
  ∀ contribution ∈ type.contributions, contribution.definition.WellFormed True

theorem checkDistinct_eq_ok_iff {bases : List Contribution} :
    checkDistinct [] bases = .ok () ↔ (bases.map Contribution.name).Nodup := by
  refine Distinct.passes_iff_nodup Contribution.name
    (fun earlier bases => checkDistinct earlier bases = .ok ()) (fun _ => rfl) ?_ bases
  intro earlier base rest
  rw [checkDistinct]
  split <;> simp [*]

theorem checkDisjoint_eq_ok_iff {type : DeclaredType} :
    type.checkDisjoint = .ok () ↔ (type.declarations.map (·.name.text)).Nodup := by
  have sameNames :
      (type.fieldNames.map fun entry => entry.2.text) = type.declarations.map (·.name.text) := by
    simp only [fieldNames, declarations, List.map_flatMap]
    refine List.flatMap_congr fun contribution _ => ?_
    have names := congrArg (List.map Name.text) (contribution.fieldNames_map_snd)
    rwa [List.map_map, List.map_map] at names
  rw [← sameNames, checkDisjoint]
  refine Distinct.passes_iff_nodup (fun entry : SchemaSource × Name => entry.2.text)
    (fun earlier names => checkFields type.name earlier names = .ok ()) (fun _ => rfl) ?_
    type.fieldNames
  rintro earlier ⟨source, name⟩ rest
  rw [checkFields]
  split <;> simp [*]

/-- The fields of a type that are declared in some modules are all of its fields, if these are the
modules that contribute to it. -/
theorem flatMap_declarationsIn_perm {type : DeclaredType} {modules : List String}
    (distinct : modules.Nodup)
    (covered : ∀ contribution ∈ type.contributions, contribution.source.module ∈ modules) :
    (modules.flatMap type.declarationsIn).Perm type.declarations := by
  have grouped := Distinct.flatMap_filter_perm (fun contribution : Contribution =>
    contribution.source.module) distinct covered
  have fields := grouped.flatMap_right Contribution.declarations
  rwa [List.flatMap_assoc] at fields

theorem IsWellFormed.defaults {type : DeclaredType} (wellFormed : type.IsWellFormed) :
    ∀ declaration ∈ type.declarations, ∀ value ∈ declaration.defaults, value.WellFormed True := by
  intro declaration declaration_mem value value_mem
  rcases List.mem_flatMap.mp declaration_mem with ⟨contribution, contribution_mem, declared⟩
  have body := (wellFormed contribution contribution_mem).body
  rcases List.mem_append.mp declared with output | input
  · rcases List.mem_map.mp output with ⟨field, field_mem, rfl⟩
    rcases FieldDeclaration.mem_defaults.mp value_mem with own | ⟨argument, argument_mem, given⟩
    · nomatch own
    · exact ((body.fields field field_mem).arguments argument argument_mem).default value given
  · rcases List.mem_map.mp input with ⟨field, field_mem, rfl⟩
    rcases FieldDeclaration.mem_defaults.mp value_mem with own | ⟨argument, argument_mem, given⟩
    · exact (body.inputFields field field_mem).default value own
    · nomatch argument_mem

end DeclaredType

namespace SchemaCompiler

section

variable (settings : Settings) (files : List SourceFile)

/-- The sources with their documents and modules. -/
def sources : List SchemaSource := files.map (SchemaSource.ofFile settings.moduleLayout)

/-- The base definitions in the order of the input. -/
def bases : List Contribution := (sources settings files).flatMap Contribution.bases

/-- The extensions in the order of the input. -/
def extensions : List Contribution := (sources settings files).flatMap Contribution.extensions

/-- The types that are declared, in the order of their base definitions. -/
def types : List DeclaredType :=
  (bases settings files).map fun base =>
    ⟨base, (extensions settings files).filter (·.name = base.name)⟩

/-- The conditions under which sources declare types. -/
structure Declares : Prop where
  /-- Every source can be read to its end. -/
  clean : ∀ file ∈ files, file.IsClean
  /-- Every source has a module. -/
  placed : ∀ file ∈ files, file.IsPlaced settings.moduleLayout
  /-- No two base definitions have the same name. -/
  distinct : ((bases settings files).map Contribution.name).Nodup
  /-- Every extension is of the kind of a base definition of its name, which may be anywhere. -/
  targeted : ∀ extension ∈ extensions settings files, ∃ base ∈ bases settings files,
    base.name = extension.name ∧ base.kind = extension.kind

end

variable {settings : Settings} {files : List SourceFile}

theorem mapM_ofParsed_eq_ok_iff {placed : List SchemaSource} :
    (files.map SourceFile.parsed).mapM (SchemaSource.ofParsed settings.moduleLayout) = .ok placed ↔
      (∀ file ∈ files, file.IsPlaced settings.moduleLayout) ∧ sources settings files = placed := by
  rw [Success.mapM_eq_ok_iff, List.forall₂_map_left_iff]
  simp only [SchemaSource.ofParsed_eq_ok_iff]
  exact Success.forall₂_and_eq_iff

theorem checkTarget_eq_ok_iff {bases : List Contribution} {extension : Contribution} :
    DeclaredType.checkTarget bases extension = .ok () ↔
      ∃ base ∈ bases, base.name = extension.name ∧ base.kind = extension.kind := by
  rw [DeclaredType.checkTarget]
  split <;> simp_all

theorem ofSources_eq_ok_iff {declared : List DeclaredType} :
    DeclaredType.ofSources (sources settings files) = .ok declared ↔
      ((bases settings files).map Contribution.name).Nodup ∧
        (∀ extension ∈ extensions settings files, ∃ base ∈ bases settings files,
          base.name = extension.name ∧ base.kind = extension.kind) ∧
        types settings files = declared := by
  simp only [DeclaredType.ofSources, Success.bind_eq_ok, Success.pure_eq_ok,
    ← DeclaredType.checkDistinct_eq_ok_iff, ← checkTarget_eq_ok_iff, ← Success.forM_eq_ok_iff]
  constructor
  · rintro ⟨⟨⟩, distinct, ⟨⟩, targeted, rfl⟩
    exact ⟨distinct, targeted, rfl⟩
  · rintro ⟨distinct, targeted, rfl⟩
    exact ⟨(), distinct, (), targeted, rfl⟩

/-- Sources lead to the types that they declare, under the conditions of `Declares`. -/
theorem gather_eq_ok_iff {declared : List DeclaredType} {placed : List SchemaSource} :
    (∃ parsed, ParsedSource.ofFiles files = .ok parsed ∧
      parsed.mapM (SchemaSource.ofParsed settings.moduleLayout) = .ok placed ∧
        DeclaredType.ofSources placed = .ok declared) ↔
      Declares settings files ∧ sources settings files = placed ∧
        types settings files = declared := by
  constructor
  · rintro ⟨parsed, read, found, gathered⟩
    rcases ParsedSource.ofFiles_eq_ok_iff.mp read with ⟨clean, rfl⟩
    rcases mapM_ofParsed_eq_ok_iff.mp found with ⟨allPlaced, rfl⟩
    rcases ofSources_eq_ok_iff.mp gathered with ⟨distinct, targeted, rfl⟩
    exact ⟨⟨clean, allPlaced, distinct, targeted⟩, rfl, rfl⟩
  · rintro ⟨declares, rfl, rfl⟩
    exact ⟨_, ParsedSource.ofFiles_eq_ok_iff.mpr ⟨declares.clean, rfl⟩,
      mapM_ofParsed_eq_ok_iff.mpr ⟨declares.placed, rfl⟩,
      ofSources_eq_ok_iff.mpr ⟨declares.distinct, declares.targeted, rfl⟩⟩

theorem map_name_types :
    (types settings files).map DeclaredType.name =
      (bases settings files).map Contribution.name := by
  rw [types, List.map_map]
  rfl

theorem Declares.names_nodup (declares : Declares settings files) :
    ((types settings files).map DeclaredType.name).Nodup := by
  rw [map_name_types]
  exact declares.distinct

/-- A declared type is found by its name. -/
theorem Declares.eq_of_name_eq (declares : Declares settings files) {type other : DeclaredType}
    (type_mem : type ∈ types settings files) (other_mem : other ∈ types settings files)
    (same : type.name = other.name) : type = other :=
  List.inj_on_of_nodup_map declares.names_nodup type_mem other_mem same

variable {type : DeclaredType} {contribution : Contribution}

/-- What is contributed to a type are its base definition and extensions of its name. -/
theorem of_mem_contributions (type_mem : type ∈ types settings files)
    (contribution_mem : contribution ∈ type.contributions) :
    contribution = type.base ∧ contribution ∈ bases settings files ∨
      contribution ∈ extensions settings files ∧ contribution.name = type.name := by
  rcases List.mem_map.mp type_mem with ⟨base, base_mem, rfl⟩
  rcases List.mem_cons.mp contribution_mem with rfl | extension_mem
  · exact .inl ⟨rfl, base_mem⟩
  · rw [List.mem_filter] at extension_mem
    exact .inr ⟨extension_mem.1, of_decide_eq_true extension_mem.2⟩

theorem base_mem_of_mem_types (type_mem : type ∈ types settings files) :
    type.base ∈ bases settings files := by
  rcases List.mem_map.mp type_mem with ⟨base, base_mem, rfl⟩
  exact base_mem

theorem Declares.isUniform (declares : Declares settings files)
    (type_mem : type ∈ types settings files) : type.IsUniform := by
  intro contribution contribution_mem
  rcases of_mem_contributions type_mem contribution_mem with ⟨rfl, -⟩ | ⟨extension_mem, named⟩
  · rfl
  · rcases declares.targeted contribution extension_mem with ⟨base, base_mem, sameName, sameKind⟩
    have sameBase : base = type.base :=
      List.inj_on_of_nodup_map declares.distinct base_mem (base_mem_of_mem_types type_mem)
        (sameName.trans named)
    rw [← sameKind, sameBase]
    rfl

/-- What is contributed to a type stands in one of the sources, where it is well-formed. -/
theorem source_of_mem_contributions (type_mem : type ∈ types settings files)
    (contribution_mem : contribution ∈ type.contributions) :
    contribution.source ∈ sources settings files ∧ contribution.definition.WellFormed True := by
  have standing : ∃ source ∈ sources settings files,
      contribution ∈ Contribution.bases source ∨ contribution ∈ Contribution.extensions source := by
    rcases of_mem_contributions type_mem contribution_mem with ⟨-, base_mem⟩ | ⟨extension_mem, -⟩
    · rcases List.mem_flatMap.mp base_mem with ⟨source, source_mem, here⟩
      exact ⟨source, source_mem, .inl here⟩
    · rcases List.mem_flatMap.mp extension_mem with ⟨source, source_mem, here⟩
      exact ⟨source, source_mem, .inr here⟩
  rcases standing with ⟨source, source_mem, here⟩
  rcases List.mem_map.mp source_mem with ⟨file, -, rfl⟩
  have good : ∀ definition ∈ file.document.definitions, Reading.GoodDefinition True definition :=
    SourceFile.good_of_mem_definitions fun _ _ _ => trivial
  rcases here with base | extension
  · rcases List.mem_map.mp base with ⟨definition, definition_mem, rfl⟩
    exact ⟨source_mem, good _ (Document.mem_types.mp definition_mem)⟩
  · rcases List.mem_map.mp extension with ⟨addition, addition_mem, rfl⟩
    exact ⟨source_mem, good _ (Document.mem_extensions.mp addition_mem)⟩

theorem isWellFormed_of_mem_types (type_mem : type ∈ types settings files) : type.IsWellFormed :=
  fun _ contribution_mem => (source_of_mem_contributions type_mem contribution_mem).2

theorem module_mem_of_mem_contributions (type_mem : type ∈ types settings files)
    (contribution_mem : contribution ∈ type.contributions) :
    contribution.source.module ∈ modules (sources settings files) :=
  List.mem_eraseDups.mpr
    (List.mem_map_of_mem (source_of_mem_contributions type_mem contribution_mem).1)

end SchemaCompiler

end WiredGraph
