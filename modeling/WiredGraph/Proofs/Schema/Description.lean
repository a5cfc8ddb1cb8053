import WiredGraph.Proofs.Schema.Declaration

/-!
# How types are described

What a module says about a type is stated here by the kind of the type. Only the fields of an
object type depend on the module: what it is wired to, its interfaces, its description and its
directives are those of the whole type in every module. Whether a type can be described depends on
the callables it is wired to, and on its fields.
-/

namespace WiredGraph

open Directive (first? FirstGives Among)
open Reference (IsReference)

/-- A text, without the blanks around it, is the name of a class that scalars may have. -/
def Settings.AcceptsScalar (settings : Settings) (text : String) : Prop :=
  (∀ start ∈ settings.scalarStart, start.toList.isPrefixOf (Text.trim text.toList) = true) ∧
    Reference.isClassName (Text.trim text.toList) = true

namespace DeclaredType

/-- The interfaces that the whole type implements. -/
def interfaceNames (type : DeclaredType) : List String :=
  (type.contributions.flatMap (·.definition.body.interfaces)).map Name.text

/-- The members that the whole type has. -/
def memberNames (type : DeclaredType) : List String :=
  (type.contributions.flatMap (·.definition.body.members)).map Name.text

/-- The fields that a module describes: those of the module for an object type, else all. -/
def declarationsFor (type : DeclaredType) (module : String) : List FieldDeclaration :=
  if type.kind = .object then type.declarationsIn module else type.declarations

theorem mem_declarations_of_mem_declarationsFor {type : DeclaredType} {module : String}
    {declaration : FieldDeclaration} (declaration_mem : declaration ∈ type.declarationsFor module) :
    declaration ∈ type.declarations := by
  rw [declarationsFor] at declaration_mem
  split at declaration_mem
  · rcases List.mem_flatMap.mp declaration_mem with ⟨contribution, contribution_mem, declared⟩
    exact List.mem_flatMap.mpr ⟨contribution, List.mem_of_mem_filter contribution_mem, declared⟩
  · exact declaration_mem

/-- The callable that the directives of a name on the type are wired to. -/
def WiresTo (type : DeclaredType) (settings : Settings) (name : String) :
    Option CallableRef → Prop :=
  WiredTo settings.referenceTokens type.directives name

/-- What is said about the type together with some fields. -/
inductive HasBody (settings : Settings) (type : DeclaredType) :
    List FieldDescriptor → TypeDescriptor.Body → Prop
  | object {fields : List FieldDescriptor} {fieldResolver : Option CallableRef} :
      type.kind = .object →
        type.WiresTo settings settings.wiring.typeFieldResolver fieldResolver →
          HasBody settings type fields (.object fields fieldResolver type.interfaceNames)
  | scalar {directive : Directive} {text : String} :
      type.kind = .scalar → first? type.directives settings.wiring.scalar = some directive →
        directive.text? = some text → settings.AcceptsScalar text →
          HasBody settings type [] (scalarOfClass (String.ofList (Text.trim text.toList)))
  | input {fields : List FieldDescriptor} {parseValue : Option CallableRef} :
      type.kind = .input → type.WiresTo settings settings.wiring.inputValidator parseValue →
        HasBody settings type fields (.input fields parseValue)
  | enum : type.kind = .enum → HasBody settings type [] type.enumBody
  | interface {fields : List FieldDescriptor} {typeResolver : Option CallableRef} :
      type.kind = .interface → type.WiresTo settings settings.wiring.typeResolver typeResolver →
        typeResolver.isSome ∨ type.name ∈ settings.typeResolverExemptions →
          HasBody settings type fields (.interface fields typeResolver)
  | union {typeResolver : CallableRef} :
      type.kind = .union →
        type.WiresTo settings settings.wiring.typeResolver (some typeResolver) →
          HasBody settings type [] (.union type.memberNames typeResolver)

/-- The directives that wire the type itself are there where they have to be, and refer to
something. -/
def IsWired (settings : Settings) (type : DeclaredType) : Prop :=
  match type.kind with
  | .object =>
      FirstGives type.directives settings.wiring.typeFieldResolver
        (IsReference settings.referenceTokens)
  | .scalar =>
      Among type.directives settings.wiring.scalar ∧
        FirstGives type.directives settings.wiring.scalar settings.AcceptsScalar
  | .input =>
      FirstGives type.directives settings.wiring.inputValidator
        (IsReference settings.referenceTokens)
  | .enum => True
  | .interface =>
      (Among type.directives settings.wiring.typeResolver ∨
        type.name ∈ settings.typeResolverExemptions) ∧
      FirstGives type.directives settings.wiring.typeResolver
        (IsReference settings.referenceTokens)
  | .union =>
      Among type.directives settings.wiring.typeResolver ∧
        FirstGives type.directives settings.wiring.typeResolver
          (IsReference settings.referenceTokens)

variable {settings : Settings} {type : DeclaredType} {body : TypeDescriptor.Body}

theorem wiring?_eq_ok_iff {name : String} {reference : Option CallableRef} :
    type.wiring? settings name = .ok reference ↔ type.WiresTo settings name reference :=
  Subject.wiring?_eq_ok_iff

namespace HasBody

variable {fields : List FieldDescriptor}

theorem object_iff (kind : type.kind = .object) :
    type.HasBody settings fields body ↔ ∃ fieldResolver,
      type.WiresTo settings settings.wiring.typeFieldResolver fieldResolver ∧
        .object fields fieldResolver type.interfaceNames = body := by
  constructor
  · intro hasBody
    cases hasBody with
    | object _ wires => exact ⟨_, wires, rfl⟩
    | _ => simp_all
  · rintro ⟨fieldResolver, wires, rfl⟩
    exact .object kind wires

theorem scalar_iff (kind : type.kind = .scalar) :
    type.HasBody settings [] body ↔ ∃ directive text,
      first? type.directives settings.wiring.scalar = some directive ∧
        directive.text? = some text ∧ settings.AcceptsScalar text ∧
          scalarOfClass (String.ofList (Text.trim text.toList)) = body := by
  constructor
  · intro hasBody
    cases hasBody with
    | scalar _ first given accepts => exact ⟨_, _, first, given, accepts, rfl⟩
    | _ => simp_all
  · rintro ⟨directive, text, first, given, accepts, rfl⟩
    exact .scalar kind first given accepts

theorem input_iff (kind : type.kind = .input) :
    type.HasBody settings fields body ↔ ∃ parseValue,
      type.WiresTo settings settings.wiring.inputValidator parseValue ∧
        .input fields parseValue = body := by
  constructor
  · intro hasBody
    cases hasBody with
    | input _ wires => exact ⟨_, wires, rfl⟩
    | _ => simp_all
  · rintro ⟨parseValue, wires, rfl⟩
    exact .input kind wires

theorem enum_iff (kind : type.kind = .enum) :
    type.HasBody settings [] body ↔ type.enumBody = body := by
  constructor
  · intro hasBody
    cases hasBody with
    | enum => rfl
    | _ => simp_all
  · rintro rfl
    exact .enum kind

theorem interface_iff (kind : type.kind = .interface) :
    type.HasBody settings fields body ↔ ∃ typeResolver,
      type.WiresTo settings settings.wiring.typeResolver typeResolver ∧
        (typeResolver.isSome ∨ type.name ∈ settings.typeResolverExemptions) ∧
          .interface fields typeResolver = body := by
  constructor
  · intro hasBody
    cases hasBody with
    | interface _ wires enough => exact ⟨_, wires, enough, rfl⟩
    | _ => simp_all
  · rintro ⟨typeResolver, wires, enough, rfl⟩
    exact .interface kind wires enough

theorem union_iff (kind : type.kind = .union) :
    type.HasBody settings [] body ↔ ∃ typeResolver,
      type.WiresTo settings settings.wiring.typeResolver (some typeResolver) ∧
        .union type.memberNames typeResolver = body := by
  constructor
  · intro hasBody
    cases hasBody with
    | union _ wires => exact ⟨_, wires, rfl⟩
    | _ => simp_all
  · rintro ⟨typeResolver, wires, rfl⟩
    exact .union kind wires

theorem kind (hasBody : type.HasBody settings fields body) : body.kind = type.kind := by
  cases hasBody <;> simp_all [TypeDescriptor.Body.kind, scalarOfClass, enumBody]

/-- Nothing is said about fields of a type whose kind has none. -/
theorem eq_nil (hasBody : type.HasBody settings fields body)
    (kind : type.kind = .scalar ∨ type.kind = .enum ∨ type.kind = .union) : fields = [] := by
  cases hasBody <;> simp_all

theorem fields_eq (hasBody : type.HasBody settings fields body) : body.fields = fields := by
  cases hasBody <;> rfl

end HasBody

section Bodies

theorem fieldDescriptors_eq_ok_iff {contributions : List Contribution}
    {descriptors : List FieldDescriptor} (output : ∀ contribution ∈ contributions,
      contribution.kind = .object ∨ contribution.kind = .interface) :
    (∃ fields, contributions.mapM (Contribution.fieldDescriptors settings) = .ok fields ∧
        fields.flatten = descriptors) ↔
      List.Forall₂ (FieldDeclaration.DescribedBy settings)
        (contributions.flatMap Contribution.declarations) descriptors :=
  Success.exists_mapM_flatten_iff fun contribution contribution_mem _ =>
    Contribution.fieldDescriptors_eq_ok_iff (output contribution contribution_mem)

theorem inputFieldDescriptors_eq_ok_iff {contributions : List Contribution}
    {descriptors : List FieldDescriptor} (input : ∀ contribution ∈ contributions,
      contribution.kind = .input) :
    (∃ fields, contributions.mapM (Contribution.inputFieldDescriptors settings) = .ok fields ∧
        fields.flatten = descriptors) ↔
      List.Forall₂ (FieldDeclaration.DescribedBy settings)
        (contributions.flatMap Contribution.declarations) descriptors :=
  Success.exists_mapM_flatten_iff fun contribution contribution_mem _ =>
    Contribution.inputFieldDescriptors_eq_ok_iff (input contribution contribution_mem)

theorem objectBody_eq_ok_iff {module : String} (uniform : type.IsUniform)
    (kind : type.kind = .object) :
    type.objectBody settings module = .ok body ↔
      ∃ fields, List.Forall₂ (FieldDeclaration.DescribedBy settings) (type.declarationsIn module)
          fields ∧ type.HasBody settings fields body := by
  have output : ∀ contribution ∈ type.contributionsOf module,
      contribution.kind = .object ∨ contribution.kind = .interface := by
    intro contribution contribution_mem
    exact .inl ((uniform contribution (List.mem_of_mem_filter contribution_mem)).trans kind)
  simp only [objectBody, Success.bind_eq_ok, Success.pure_eq_ok, wiring?_eq_ok_iff,
    declarationsIn, ← fieldDescriptors_eq_ok_iff output, HasBody.object_iff kind]
  constructor
  · rintro ⟨fields, described, made⟩
    exact ⟨fields.flatten, ⟨fields, described, rfl⟩, made⟩
  · rintro ⟨_, ⟨fields, described, rfl⟩, made⟩
    exact ⟨fields, described, made⟩

theorem inputBody_eq_ok_iff (uniform : type.IsUniform) (kind : type.kind = .input) :
    type.inputBody settings = .ok body ↔
      ∃ fields, List.Forall₂ (FieldDeclaration.DescribedBy settings) type.declarations fields ∧
        type.HasBody settings fields body := by
  have input : ∀ contribution ∈ type.contributions, contribution.kind = .input :=
    fun contribution contribution_mem => (uniform contribution contribution_mem).trans kind
  simp only [inputBody, Success.bind_eq_ok, Success.pure_eq_ok, wiring?_eq_ok_iff, declarations,
    ← inputFieldDescriptors_eq_ok_iff input, HasBody.input_iff kind]
  constructor
  · rintro ⟨fields, described, made⟩
    exact ⟨fields.flatten, ⟨fields, described, rfl⟩, made⟩
  · rintro ⟨_, ⟨fields, described, rfl⟩, made⟩
    exact ⟨fields, described, made⟩

theorem interfaceBody_eq_ok_iff (uniform : type.IsUniform) (kind : type.kind = .interface) :
    type.interfaceBody settings = .ok body ↔
      ∃ fields, List.Forall₂ (FieldDeclaration.DescribedBy settings) type.declarations fields ∧
        type.HasBody settings fields body := by
  have output : ∀ contribution ∈ type.contributions,
      contribution.kind = .object ∨ contribution.kind = .interface :=
    fun contribution contribution_mem =>
      .inr ((uniform contribution contribution_mem).trans kind)
  simp only [interfaceBody, Success.bind_eq_ok, wiring?_eq_ok_iff, declarations,
    ← fieldDescriptors_eq_ok_iff output, HasBody.interface_iff kind]
  constructor
  · rintro ⟨fields, described, typeResolver, wires, accepted⟩
    split at accepted
    · simp at accepted
    · next enough =>
        rw [Success.pure_eq_ok] at accepted
        refine ⟨fields.flatten, ⟨fields, described, rfl⟩, typeResolver, wires, ?_, accepted⟩
        rw [not_and_or, not_not, Option.isNone_iff_eq_none, ← ne_eq,
          ← Option.isSome_iff_ne_none] at enough
        exact enough
  · rintro ⟨_, ⟨fields, described, rfl⟩, typeResolver, wires, enough, rfl⟩
    refine ⟨fields, described, typeResolver, wires, ?_⟩
    rw [if_neg]
    · rfl
    · rintro ⟨missing, notExempt⟩
      rcases enough with present | exempt
      · simp_all
      · exact notExempt exempt

/-- No fields are contributed to a type whose kind has none. -/
theorem declarations_eq_nil (uniform : type.IsUniform)
    (kind : type.kind = .scalar ∨ type.kind = .enum ∨ type.kind = .union) :
    type.declarations = [] := by
  rw [declarations, List.flatMap_eq_nil_iff]
  intro contribution contribution_mem
  rw [← uniform contribution contribution_mem] at kind
  rcases contribution with ⟨source, ⟨description, name, directives, body, span⟩⟩
  cases body <;>
    simp_all [Contribution.kind, TypeDefinition.kind, Contribution.declarations,
      TypeDefinition.Body.inputFields, TypeDefinition.Body.fields]

theorem declarationsFor_eq_nil {module : String} (uniform : type.IsUniform)
    (kind : type.kind = .scalar ∨ type.kind = .enum ∨ type.kind = .union) :
    type.declarationsFor module = [] := by
  rw [declarationsFor, if_neg, declarations_eq_nil uniform kind]
  intro object
  simp [object] at kind

theorem scalarBody_eq_ok_iff (kind : type.kind = .scalar) :
    type.scalarBody settings = .ok body ↔ type.HasBody settings [] body := by
  simp only [scalarBody, Success.bind_eq_ok, HasBody.scalar_iff kind]
  constructor
  · rintro ⟨text | text, found, accepted⟩
    · simp at accepted
    · rcases Subject.wiringText?_eq_ok_some_iff.mp found with ⟨directive, first, given⟩
      cases start : settings.scalarStart with
      | none =>
          simp only [start, Success.unless_eq_ok, Success.pure_eq_ok] at accepted
          rcases accepted with ⟨className, rfl⟩
          exact ⟨directive, text, first, given, ⟨by simp [start], className⟩, rfl⟩
      | some start' =>
          simp only [start, Success.unless_eq_ok, Success.pure_eq_ok] at accepted
          rcases accepted with ⟨starts, className, rfl⟩
          exact ⟨directive, text, first, given, ⟨by simpa [start] using starts, className⟩, rfl⟩
  · rintro ⟨directive, text, first, given, ⟨starts, className⟩, rfl⟩
    refine ⟨some text, Subject.wiringText?_eq_ok_some_iff.mpr ⟨directive, first, given⟩, ?_⟩
    cases start : settings.scalarStart with
    | none => simp [className]
    | some start' => simp [className, starts start' start]

theorem unionBody_eq_ok_iff (kind : type.kind = .union) :
    type.unionBody settings = .ok body ↔ type.HasBody settings [] body := by
  simp only [unionBody, Success.bind_eq_ok, wiring?_eq_ok_iff, HasBody.union_iff kind]
  constructor
  · rintro ⟨reference | reference, wires, accepted⟩
    · simp at accepted
    · exact ⟨reference, wires, Success.pure_eq_ok.mp accepted⟩
  · rintro ⟨typeResolver, wires, rfl⟩
    exact ⟨some typeResolver, wires, rfl⟩

end Bodies

/-- What a module says about a type of one kind of contributions is that it has the fields that are
described in the module. Kinds without fields are described with no fields at all. -/
theorem bodyIn_eq_ok_iff {module : String} (uniform : type.IsUniform) :
    type.bodyIn settings module = .ok body ↔
      ∃ fields, List.Forall₂ (FieldDeclaration.DescribedBy settings)
          (type.declarationsFor module) fields ∧ type.HasBody settings fields body := by
  have fieldless (kind : type.kind = .scalar ∨ type.kind = .enum ∨ type.kind = .union) :
      (∃ fields, List.Forall₂ (FieldDeclaration.DescribedBy settings)
          (type.declarationsFor module) fields ∧ type.HasBody settings fields body) ↔
        type.HasBody settings [] body := by
    rw [declarationsFor_eq_nil uniform kind]
    simp
  rw [bodyIn]
  cases kind : type.kind with
  | object =>
      rw [declarationsFor, if_pos kind]
      exact objectBody_eq_ok_iff uniform kind
  | scalar => rw [fieldless (by simp [kind]), ← scalarBody_eq_ok_iff kind]
  | input =>
      rw [declarationsFor, if_neg (by simp [kind])]
      exact inputBody_eq_ok_iff uniform kind
  | enum => rw [fieldless (by simp [kind]), HasBody.enum_iff kind, Except.ok.injEq]
  | interface =>
      rw [declarationsFor, if_neg (by simp [kind])]
      exact interfaceBody_eq_ok_iff uniform kind
  | union => rw [fieldless (by simp [kind]), ← unionBody_eq_ok_iff kind]

/-- There is something to say about a type exactly if it is wired. -/
theorem exists_hasBody_iff {fields : List FieldDescriptor}
    (fieldless : type.kind = .scalar ∨ type.kind = .enum ∨ type.kind = .union → fields = []) :
    (∃ body, type.HasBody settings fields body) ↔ type.IsWired settings := by
  cases kind : type.kind with
  | object =>
      simp only [IsWired, kind, ← exists_wiredTo_iff, HasBody.object_iff kind]
      constructor
      · rintro ⟨_, fieldResolver, wires, -⟩
        exact ⟨fieldResolver, wires⟩
      · rintro ⟨fieldResolver, wires⟩
        exact ⟨_, fieldResolver, wires, rfl⟩
  | scalar =>
      obtain rfl := fieldless (by simp [kind])
      simp only [IsWired, kind, HasBody.scalar_iff kind]
      constructor
      · rintro ⟨_, directive, text, first, given, accepts, -⟩
        refine ⟨Directive.first?_isSome_iff.mp (by simp [first]), fun other otherFirst => ?_⟩
        cases first.symm.trans otherFirst
        exact ⟨text, given, accepts⟩
      · rintro ⟨present, gives⟩
        rcases Option.isSome_iff_exists.mp (Directive.first?_isSome_iff.mpr present) with
          ⟨directive, first⟩
        rcases gives directive first with ⟨text, given, accepts⟩
        exact ⟨_, directive, text, first, given, accepts, rfl⟩
  | input =>
      simp only [IsWired, kind, ← exists_wiredTo_iff, HasBody.input_iff kind]
      constructor
      · rintro ⟨_, parseValue, wires, -⟩
        exact ⟨parseValue, wires⟩
      · rintro ⟨parseValue, wires⟩
        exact ⟨_, parseValue, wires, rfl⟩
  | enum =>
      obtain rfl := fieldless (by simp [kind])
      rw [IsWired, kind]
      exact iff_of_true ⟨_, .enum kind⟩ trivial
  | interface =>
      simp only [IsWired, kind, ← exists_wiredTo_iff, HasBody.interface_iff kind]
      constructor
      · rintro ⟨_, typeResolver, wires, enough, -⟩
        exact ⟨enough.imp_left wires.isSome_iff.mp, typeResolver, wires⟩
      · rintro ⟨enough, typeResolver, wires⟩
        exact ⟨_, typeResolver, wires, enough.imp_left wires.isSome_iff.mpr, rfl⟩
  | union =>
      obtain rfl := fieldless (by simp [kind])
      simp only [IsWired, kind, ← exists_wiredTo_iff, HasBody.union_iff kind]
      constructor
      · rintro ⟨_, typeResolver, wires, -⟩
        exact ⟨wires.isSome_iff.mp rfl, some typeResolver, wires⟩
      · rintro ⟨present, reference, wires⟩
        rcases Option.isSome_iff_exists.mp (wires.isSome_iff.mpr present) with
          ⟨typeResolver, rfl⟩
        exact ⟨_, typeResolver, wires, rfl⟩

/-- How a module describes the type. -/
structure DescribedBy (settings : Settings) (type : DeclaredType) (module : String)
    (descriptor : TypeDescriptor) : Prop where
  name : descriptor.name = type.name
  description : descriptor.description = type.base.definition.description.map Description.text
  sourceModule : descriptor.sourceModule = module
  directives : descriptor.directives = settings.wiring.remaining type.directives
  fields : List.Forall₂ (FieldDeclaration.DescribedBy settings) (type.declarationsFor module)
    descriptor.body.fields
  body : type.HasBody settings descriptor.body.fields descriptor.body

theorem describe_eq_ok_iff {module : String} {descriptor : TypeDescriptor}
    (uniform : type.IsUniform) :
    type.describe settings module = .ok descriptor ↔
      type.DescribedBy settings module descriptor := by
  simp only [describe, Success.bind_eq_ok, Success.pure_eq_ok, bodyIn_eq_ok_iff uniform]
  constructor
  · rintro ⟨body, ⟨fields, described, hasBody⟩, rfl⟩
    obtain rfl := hasBody.fields_eq
    exact ⟨rfl, rfl, rfl, rfl, described, hasBody⟩
  · rcases descriptor with ⟨name, description, sourceModule, directives, body⟩
    rintro ⟨rfl, rfl, rfl, rfl, described, hasBody⟩
    exact ⟨body, ⟨body.fields, described, hasBody⟩, rfl⟩

/-- A module can describe a type exactly if the type is wired, and the fields that the module
describes are, and have fit defaults. -/
theorem exists_describedBy_iff {module : String} (uniform : type.IsUniform)
    (wellFormed : type.IsWellFormed) :
    (∃ descriptor, type.DescribedBy settings module descriptor) ↔
      type.IsWired settings ∧ ∀ declaration ∈ type.declarationsFor module,
        declaration.IsWired settings ∧ ∀ value ∈ declaration.defaults, value.IsDefault := by
  have fieldsOfKind {fields : List FieldDescriptor}
      (described : List.Forall₂ (FieldDeclaration.DescribedBy settings)
        (type.declarationsFor module) fields) :
      type.kind = .scalar ∨ type.kind = .enum ∨ type.kind = .union → fields = [] := by
    intro kind
    rw [declarationsFor_eq_nil uniform kind] at described
    exact List.forall₂_nil_left_iff.mp described
  have each : (∃ fields, List.Forall₂ (FieldDeclaration.DescribedBy settings)
        (type.declarationsFor module) fields) ↔
      ∀ declaration ∈ type.declarationsFor module,
        declaration.IsWired settings ∧ ∀ value ∈ declaration.defaults, value.IsDefault := by
    rw [Success.exists_forall₂_iff]
    refine forall₂_congr fun declaration declaration_mem => ?_
    exact FieldDeclaration.exists_describedBy_iff
      (wellFormed.defaults declaration (mem_declarations_of_mem_declarationsFor declaration_mem))
  rw [← each]
  constructor
  · rintro ⟨descriptor, described⟩
    exact ⟨(exists_hasBody_iff (fieldsOfKind described.fields)).mp ⟨_, described.body⟩, _,
      described.fields⟩
  · rintro ⟨wired, fields, described⟩
    rcases (exists_hasBody_iff (fieldsOfKind described)).mpr wired with ⟨body, hasBody⟩
    obtain rfl := hasBody.fields_eq
    exact ⟨⟨_, _, module, _, body⟩, rfl, rfl, rfl, rfl, described, hasBody⟩

end DeclaredType

end WiredGraph
