import WiredGraph.Proofs.SameOutcome
import WiredGraph.Schema.Compiler

/-!
# Types that agree

Compiling uses what is declared for a type in pieces: the directives, the interfaces, the members,
the values and the fields, each field with the file and the module in which it stands. How the
pieces are divided among definitions and extensions does not matter: types that agree in all pieces
have the same descriptors, and are refused for the same reasons.
-/

namespace WiredGraph

/-- A source of which only the place is kept. -/
def SchemaSource.bare (source : SchemaSource) : SchemaSource :=
  ⟨⟨source.parsed.file, ⟨[], .empty 0⟩⟩, source.module⟩

/-- A part of a type, and where it stands. -/
structure Placed (Part : Type) where
  file : SourceFile
  module : String
  typeName : String
  part : Part

namespace Placed

variable {Part : Type}

/-- A source of which only the place is known. -/
def source (placed : Placed Part) : SchemaSource :=
  ⟨⟨placed.file, ⟨[], .empty 0⟩⟩, placed.module⟩

/-- The descriptor of a field of an object type or an interface. -/
def fieldDescriptor (settings : Settings) (placed : Placed FieldDefinition) :
    Except CompileError FieldDescriptor :=
  TypeDefinition.fieldDescriptor settings placed.typeName placed.source placed.part

/-- The descriptor of a field of an input type. -/
def inputFieldDescriptor (settings : Settings) (placed : Placed InputValueDefinition) :
    Except CompileError FieldDescriptor :=
  TypeDefinition.inputFieldDescriptor settings placed.typeName placed.source placed.part

end Placed

/-- The names of the fields of either sort. -/
def TypeDefinition.fieldNames (definition : TypeDefinition) : List Name :=
  definition.body.fields.map FieldDefinition.name ++
    definition.body.inputFields.map InputValueDefinition.name

namespace Contribution

variable {settings : Settings}

/-- A part of a contribution with its place. -/
def place {Part : Type} (contribution : Contribution) (part : Part) : Placed Part :=
  ⟨contribution.source.parsed.file, contribution.source.module, contribution.name, part⟩

/-- The fields of a contribution, each with its place. -/
def placedFields (contribution : Contribution) : List (Placed FieldDefinition) :=
  contribution.definition.body.fields.map contribution.place

/-- The input fields of a contribution, each with its place. -/
def placedInputFields (contribution : Contribution) : List (Placed InputValueDefinition) :=
  contribution.definition.body.inputFields.map contribution.place

/-- The names of the fields of either sort, with their places. -/
def placedNames (contribution : Contribution) : List (Placed Name) :=
  contribution.definition.fieldNames.map contribution.place

theorem fieldDescriptors_eq :
    fieldDescriptors settings = fun contribution =>
      contribution.placedFields.mapM (Placed.fieldDescriptor settings) := by
  funext contribution
  rw [placedFields, List.mapM_map]
  rfl

theorem inputFieldDescriptors_eq :
    inputFieldDescriptors settings = fun contribution =>
      contribution.placedInputFields.mapM (Placed.inputFieldDescriptor settings) := by
  funext contribution
  rw [placedInputFields, List.mapM_map]
  rfl

end Contribution

namespace DeclaredType

variable {settings : Settings} {type other : DeclaredType} {module : String}

/-- The fields of an object type or an interface, those of the base definition first. -/
def placedFields (type : DeclaredType) : List (Placed FieldDefinition) :=
  type.contributions.flatMap Contribution.placedFields

/-- The fields of an input type, those of the base definition first. -/
def placedInputFields (type : DeclaredType) : List (Placed InputValueDefinition) :=
  type.contributions.flatMap Contribution.placedInputFields

/-- The names of all fields, those of the base definition first. -/
def placedNames (type : DeclaredType) : List (Placed Name) :=
  type.contributions.flatMap Contribution.placedNames

/-- Everything that compiling uses is the same for two types. -/
structure Agrees (type other : DeclaredType) : Prop where
  name : type.name = other.name
  location : type.base.location = other.base.location
  kind : type.kind = other.kind
  owner : type.base.source.module = other.base.source.module
  description : type.base.definition.description = other.base.definition.description
  directives : type.directives = other.directives
  interfaces : type.contributions.flatMap (·.definition.body.interfaces) =
    other.contributions.flatMap (·.definition.body.interfaces)
  members : type.contributions.flatMap (·.definition.body.members) =
    other.contributions.flatMap (·.definition.body.members)
  values : type.contributions.flatMap (·.definition.body.values) =
    other.contributions.flatMap (·.definition.body.values)
  fields : type.placedFields = other.placedFields
  inputFields : type.placedInputFields = other.placedInputFields
  names : type.placedNames = other.placedNames

section Pieces

/-- A step made for the parts of each item is made for all parts in a row. -/
theorem bind_mapM_flatten {Fault Item Part Value Result : Type} {items : List Item}
    {parts : Item → List Part} {step : Part → Except Fault Value}
    {next : List Value → Except Fault Result} :
    (items.mapM (fun item => (parts item).mapM step) >>= fun values => next values.flatten) =
      (items.flatMap parts).mapM step >>= next := by
  induction items generalizing next with
  | nil => rfl
  | cons item rest ih =>
      simp only [List.mapM_cons, List.flatMap_cons, List.mapM_append, bind_assoc, pure_bind,
        List.flatten_cons, ← ih]

/-- All fields of a contribution stand in its module. -/
theorem placedFields_filter :
    type.placedFields.filter (·.module = module) =
      (type.contributionsOf module).flatMap Contribution.placedFields := by
  rw [placedFields, contributionsOf]
  induction type.contributions with
  | nil => rfl
  | cons contribution rest ih =>
      rw [List.flatMap_cons, List.filter_append, ih, List.filter_cons]
      by_cases here : contribution.source.module = module <;>
        simp [Contribution.placedFields, Contribution.place, here]

theorem hasFieldIn_eq :
    type.hasFieldIn module = decide (type.placedFields.filter (·.module = module) ≠ []) := by
  rw [placedFields_filter, Bool.eq_iff_iff, decide_eq_true_eq, Ne, List.flatMap_eq_nil_iff]
  simp [hasFieldIn, Contribution.placedFields]

theorem objectBody_eq :
    type.objectBody settings module = (do
      let fields ← (type.placedFields.filter (·.module = module)).mapM
        (Placed.fieldDescriptor settings)
      let fieldResolver ← type.wiring? settings settings.wiring.typeFieldResolver
      return .object fields fieldResolver
        ((type.contributions.flatMap (·.definition.body.interfaces)).map Name.text)) := by
  rw [placedFields_filter, ← bind_mapM_flatten, objectBody, Contribution.fieldDescriptors_eq]

theorem inputBody_eq :
    type.inputBody settings = (do
      let fields ← type.placedInputFields.mapM (Placed.inputFieldDescriptor settings)
      let parseValue ← type.wiring? settings settings.wiring.inputValidator
      return .input fields parseValue) := by
  rw [placedInputFields, ← bind_mapM_flatten, inputBody, Contribution.inputFieldDescriptors_eq]

theorem interfaceBody_eq :
    type.interfaceBody settings = (do
      let fields ← type.placedFields.mapM (Placed.fieldDescriptor settings)
      let typeResolver ← type.wiring? settings settings.wiring.typeResolver
      if typeResolver.isNone ∧ type.name ∉ settings.typeResolverExemptions then
        throw (type.subject.missing settings.wiring.typeResolver)
      return .interface fields typeResolver) := by
  rw [placedFields, ← bind_mapM_flatten, interfaceBody, Contribution.fieldDescriptors_eq]

/-- Whether fields have distinct names, and what is reported if not, does not depend on what else
stands in their sources. -/
theorem checkFields_bare (typeName : String) (earlier names : List (SchemaSource × Name)) :
    checkFields typeName (earlier.map (Prod.map SchemaSource.bare id))
        (names.map (Prod.map SchemaSource.bare id)) =
      checkFields typeName earlier names := by
  induction names generalizing earlier with
  | nil => rfl
  | cons entry rest ih =>
      have later := ih (earlier ++ [entry])
      rw [List.map_append] at later
      rw [List.map_cons, checkFields, checkFields, List.find?_map]
      simp only [Function.comp_def, Prod.map_snd, id_eq]
      cases found : earlier.find? (·.2.text = entry.2.text) with
      | none => exact later
      | some other => rfl

theorem checkDisjoint_eq :
    type.checkDisjoint =
      checkFields type.name [] (type.placedNames.map fun placed => (placed.source, placed.part)) := by
  have bare : type.placedNames.map (fun placed => (placed.source, placed.part)) =
      type.fieldNames.map (Prod.map SchemaSource.bare id) := by
    rw [placedNames, fieldNames, List.map_flatMap, List.map_flatMap]
    refine List.flatMap_congr fun contribution _ => ?_
    rw [Contribution.placedNames, Contribution.fieldNames, List.map_map, List.map_map]
    rfl
  rw [bare, checkDisjoint]
  exact (checkFields_bare type.name [] type.fieldNames).symm

end Pieces

namespace Agrees

theorem subject (agrees : type.Agrees other) : type.subject = other.subject := by
  rw [DeclaredType.subject, DeclaredType.subject, agrees.name, agrees.location]

theorem wiring? (agrees : type.Agrees other) : type.wiring? = other.wiring? := by
  funext settings name
  rw [DeclaredType.wiring?, DeclaredType.wiring?, agrees.subject, agrees.directives]

theorem isDescribedIn (agrees : type.Agrees other) :
    type.isDescribedIn module = other.isDescribedIn module := by
  rw [DeclaredType.isDescribedIn, DeclaredType.isDescribedIn, ownedBy, ownedBy, agrees.owner,
    agrees.kind, hasFieldIn_eq, hasFieldIn_eq, agrees.fields]

theorem bodyIn (agrees : type.Agrees other) :
    type.bodyIn settings module = other.bodyIn settings module := by
  rw [DeclaredType.bodyIn, DeclaredType.bodyIn, agrees.kind]
  cases other.kind with
  | object => simp only [objectBody_eq, agrees.fields, agrees.wiring?, agrees.interfaces]
  | scalar => simp only [scalarBody, agrees.subject, agrees.directives]
  | input => simp only [inputBody_eq, agrees.inputFields, agrees.wiring?]
  | enum => simp only [enumBody, agrees.values]
  | interface =>
      simp only [interfaceBody_eq, agrees.fields, agrees.wiring?, agrees.name, agrees.subject]
  | union => simp only [unionBody, agrees.members, agrees.wiring?, agrees.subject]

theorem describe (agrees : type.Agrees other) :
    type.describe settings module = other.describe settings module := by
  rw [DeclaredType.describe, DeclaredType.describe, agrees.bodyIn, agrees.name, agrees.description,
    agrees.directives]

theorem checkDisjoint (agrees : type.Agrees other) : type.checkDisjoint = other.checkDisjoint := by
  rw [checkDisjoint_eq, checkDisjoint_eq, agrees.name, agrees.names]

end Agrees

end DeclaredType

namespace SchemaCompiler

variable {settings : Settings} {types others : List DeclaredType} {module : String}

/-- Types that agree in pairs make the same table. -/
theorem table_of_agrees (agree : List.Forall₂ DeclaredType.Agrees types others) :
    table settings types module = table settings others module := by
  have described : List.Forall₂ DeclaredType.Agrees (types.filter (·.isDescribedIn module))
      (others.filter (·.isDescribedIn module)) :=
    List.rel_filter (fun _ _ agrees => iff_of_eq (congrArg (· = true) agrees.isDescribedIn)) agree
  rw [table, table, mapM_eq_of_forall₂ described fun _ _ agrees => agrees.describe]

/-- The tables of some modules, if the fields of each type have distinct names. -/
def tables (settings : Settings) (modules : List String) (types : List DeclaredType) :
    Except CompileError (List DescriptorTable) := do
  let tables ← modules.mapM (table settings types)
  types.forM DeclaredType.checkDisjoint
  return tables

/-- Types that agree in pairs have the same tables. -/
theorem tables_of_agrees {modules : List String}
    (agree : List.Forall₂ DeclaredType.Agrees types others) :
    tables settings modules types = tables settings modules others := by
  have each : table settings types = table settings others :=
    funext fun _ => table_of_agrees agree
  have checked : types.forM DeclaredType.checkDisjoint = others.forM DeclaredType.checkDisjoint :=
    forM_eq_of_forall₂ agree fun _ _ agrees => agrees.checkDisjoint
  rw [tables, tables, each, checked]

end SchemaCompiler

end WiredGraph
