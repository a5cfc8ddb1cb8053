import WiredGraph.Compile.Sources

/-!
# Declared types

A type has one base definition and any number of extensions, which may stand in any source, also
before the base. Base definitions have distinct names, and every extension belongs to a base of its
own name and kind. The types are kept in the order of their base definitions, and the extensions of
each type in the order in which they were written.
-/

namespace WiredGraph

/-- A schema document and the module it belongs to. -/
structure SchemaSource where
  parsed : ParsedSource
  module : String

namespace SchemaSource

/-- The source with its module by a layout. -/
def ofParsed (layout : ModuleLayout) (parsed : ParsedSource) : Except CompileError SchemaSource :=
  match layout.moduleFor parsed.file.path with
  | .ok module => .ok ⟨parsed, module⟩
  | .error error => .error (.invalidModulePath error)

/-- The location of a span in the source. -/
def locate (source : SchemaSource) (span : Span) : Location := source.parsed.locate span

end SchemaSource

/-- A base definition or an extension, and where it stands. -/
structure Contribution where
  source : SchemaSource
  definition : TypeDefinition

namespace Contribution

/-- The name of the type that is contributed to. -/
def name (contribution : Contribution) : String := contribution.definition.name.text

/-- The kind of the type that is contributed to. -/
def kind (contribution : Contribution) : TypeKind := contribution.definition.kind

/-- Where the name of the type stands. -/
def location (contribution : Contribution) : Location :=
  contribution.source.locate contribution.definition.name.span

/-- The base definitions in a source. -/
def bases (source : SchemaSource) : List Contribution :=
  source.parsed.document.types.map (⟨source, ·⟩)

/-- The extensions in a source. -/
def extensions (source : SchemaSource) : List Contribution :=
  source.parsed.document.extensions.map (⟨source, ·⟩)

/-- The names of the fields of either sort, with the source they stand in. -/
def fieldNames (contribution : Contribution) : List (SchemaSource × Name) :=
  let body := contribution.definition.body
  (body.fields.map FieldDefinition.name ++ body.inputFields.map InputValueDefinition.name).map
    (contribution.source, ·)

end Contribution

/-- A type with everything that was declared for it. -/
structure DeclaredType where
  base : Contribution
  extensions : List Contribution

namespace DeclaredType

/-- The name of the type. -/
def name (type : DeclaredType) : String := type.base.name

/-- The kind of the type. -/
def kind (type : DeclaredType) : TypeKind := type.base.kind

/-- The base definition and then the extensions. -/
def contributions (type : DeclaredType) : List Contribution := type.base :: type.extensions

/-- All directives on the type. -/
def directives (type : DeclaredType) : List Directive :=
  type.contributions.flatMap (·.definition.directives)

/-- The names of all fields, with the sources they stand in. -/
def fieldNames (type : DeclaredType) : List (SchemaSource × Name) :=
  type.contributions.flatMap Contribution.fieldNames

/-- Checks that no base definition has the name of an earlier one. -/
def checkDistinct (earlier : List Contribution) : List Contribution → Except CompileError Unit
  | [] => .ok ()
  | base :: rest =>
      match earlier.find? (·.name = base.name) with
      | some previous => .error (.duplicateType base.location previous.location base.name)
      | none => checkDistinct (earlier ++ [base]) rest

/-- Checks that an extension belongs to some base definition. -/
def checkTarget (bases : List Contribution) (extension : Contribution) :
    Except CompileError Unit :=
  if ∃ base ∈ bases, base.name = extension.name ∧ base.kind = extension.kind then
    .ok ()
  else
    .error (.unknownExtensionTarget extension.location extension.name extension.kind.keyword)

/-- The types that sources declare. -/
def ofSources (sources : List SchemaSource) : Except CompileError (List DeclaredType) := do
  let bases := sources.flatMap Contribution.bases
  let extensions := sources.flatMap Contribution.extensions
  checkDistinct [] bases
  extensions.forM (checkTarget bases)
  return bases.map fun base => ⟨base, extensions.filter (·.name = base.name)⟩

/-- Checks that no field has the name of an earlier one of the same type. -/
def checkFields (typeName : String) (earlier : List (SchemaSource × Name)) :
    List (SchemaSource × Name) → Except CompileError Unit
  | [] => .ok ()
  | (source, name) :: rest =>
      match earlier.find? (·.2.text = name.text) with
      | some (other, _) =>
          .error (.duplicateField (source.locate name.span) typeName name.text other.module)
      | none => checkFields typeName (earlier ++ [(source, name)]) rest

/-- Checks that the fields of the type have distinct names. -/
def checkDisjoint (type : DeclaredType) : Except CompileError Unit :=
  checkFields type.name [] type.fieldNames

end DeclaredType

end WiredGraph
