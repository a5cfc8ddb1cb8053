import WiredGraph.Proofs.Schema.Literal
import WiredGraph.Proofs.Schema.Wiring
import WiredGraph.Schema.Field

/-!
# How fields are described

A field is declared in one of two forms, and described in one. The description of a declaration is
stated here by what it has to agree with: it does not depend on where the declaration stands. A
declaration has a description exactly if its resolver and its literals are fit for one.
-/

namespace WiredGraph

/-- A field as it is declared. -/
inductive FieldDeclaration where
  /-- A field of an object type or an interface. -/
  | output (field : FieldDefinition)
  /-- A field of an input type. -/
  | input (field : InputValueDefinition)

namespace FieldDeclaration

/-- The name of the field. -/
def name : FieldDeclaration → Name
  | .output field => field.name
  | .input field => field.name

/-- The type of the field. -/
def type : FieldDeclaration → TypeExpr
  | .output field => field.type
  | .input field => field.type

/-- The description that stands before the field. -/
def description : FieldDeclaration → Option Description
  | .output field => field.description
  | .input field => field.description

/-- The directives of the field. -/
def directives : FieldDeclaration → List Directive
  | .output field => field.directives
  | .input field => field.directives

/-- The arguments of the field; fields of input types have none. -/
def arguments : FieldDeclaration → List InputValueDefinition
  | .output field => field.arguments
  | .input _ => []

/-- The default of the field; only fields of input types have one. -/
def default : FieldDeclaration → Option Value
  | .output _ => none
  | .input field => field.default

/-- The literals that stand for a missing value of the field or of one of its arguments. -/
def defaults (declaration : FieldDeclaration) : List Value :=
  declaration.default.toList ++ declaration.arguments.filterMap InputValueDefinition.default

/-- What the field is resolved by; fields of input types are not resolved. -/
def ResolvedBy (settings : Settings) : FieldDeclaration → Option CallableRef → Prop
  | .output field =>
      WiredTo settings.referenceTokens field.directives settings.wiring.fieldResolver
  | .input _ => (· = none)

/-- The resolver of the field, if it names one, is well-formed. -/
def IsWired (settings : Settings) : FieldDeclaration → Prop
  | .output field =>
      Directive.FirstGives field.directives settings.wiring.fieldResolver
        (Reference.IsReference settings.referenceTokens)
  | .input _ => True

end FieldDeclaration

/-- How a declared default is described. -/
def DefaultValue.Keeps (declared : Option Value) (default : Option DefaultValue) : Prop :=
  declared.map ofValue = default.map .ok

/-- How an argument is described. -/
structure InputValueDefinition.DescribedBy (argument : InputValueDefinition)
    (descriptor : ArgumentDescriptor) : Prop where
  name : descriptor.name = argument.name.text
  type : descriptor.type = .ofTypeExpr argument.type
  description : descriptor.description = argument.description.map Description.text
  default : DefaultValue.Keeps argument.default descriptor.default

/-- How a field is described: the resolver and the directives for the runtime are told apart, and
everything else is kept. -/
structure FieldDeclaration.DescribedBy (settings : Settings) (declaration : FieldDeclaration)
    (descriptor : FieldDescriptor) : Prop where
  name : descriptor.name = declaration.name.text
  type : descriptor.type = .ofTypeExpr declaration.type
  description : descriptor.description = declaration.description.map Description.text
  default : DefaultValue.Keeps declaration.default descriptor.default
  resolver : declaration.ResolvedBy settings descriptor.resolver
  directives : descriptor.directives = settings.wiring.remaining declaration.directives
  arguments :
    List.Forall₂ InputValueDefinition.DescribedBy declaration.arguments descriptor.arguments

theorem Subject.default?_eq_ok_iff {subject : Subject} {field : String} {declared : Option Value}
    {default : Option DefaultValue} :
    subject.default? field declared = .ok default ↔ DefaultValue.Keeps declared default := by
  rcases declared with - | value
  · cases default <;> simp [default?, DefaultValue.Keeps]
  · simp only [default?, DefaultValue.Keeps, Option.map_some]
    cases DefaultValue.ofValue value <;> cases default <;> simp

theorem DefaultValue.exists_keeps_iff {blocks : Prop} {declared : Option Value}
    (wellFormed : ∀ value ∈ declared, value.WellFormed blocks) :
    (∃ default, Keeps declared default) ↔ ∀ value ∈ declared, value.IsDefault := by
  rcases declared with - | value
  · exact iff_of_true ⟨none, rfl⟩ (by simp)
  · have kept : (∃ default, Keeps (some value) default) ↔
        ∃ default, ofValue value = .ok default := by
      constructor
      · rintro ⟨default | default, keeps⟩
        · simp [Keeps] at keeps
        · exact ⟨default, by simpa [Keeps] using keeps⟩
      · rintro ⟨default, keeps⟩
        exact ⟨some default, by simp [Keeps, keeps]⟩
    rw [kept, exists_ofValue_iff (wellFormed value rfl)]
    simp

namespace TypeDefinition

variable {settings : Settings} {typeName : String} {source : SchemaSource}

theorem argumentDescriptor_eq_ok_iff {subject : Subject} {argument : InputValueDefinition}
    {descriptor : ArgumentDescriptor} :
    argumentDescriptor subject argument = .ok descriptor ↔ argument.DescribedBy descriptor := by
  simp only [argumentDescriptor, Success.bind_eq_ok, Success.pure_eq_ok,
    Subject.default?_eq_ok_iff]
  constructor
  · rintro ⟨default, keeps, rfl⟩
    exact ⟨rfl, rfl, rfl, keeps⟩
  · rcases descriptor with ⟨name, type, description, default⟩
    rintro ⟨rfl, rfl, rfl, keeps⟩
    exact ⟨default, keeps, rfl⟩

theorem fieldDescriptor_eq_ok_iff {field : FieldDefinition} {descriptor : FieldDescriptor} :
    fieldDescriptor settings typeName source field = .ok descriptor ↔
      FieldDeclaration.DescribedBy settings (.output field) descriptor := by
  simp only [fieldDescriptor, Success.bind_eq_ok, Success.pure_eq_ok, Success.mapM_eq_ok_iff,
    argumentDescriptor_eq_ok_iff, Subject.wiring?_eq_ok_iff]
  constructor
  · rintro ⟨arguments, described, resolver, wiredTo, rfl⟩
    exact ⟨rfl, rfl, rfl, rfl, wiredTo, rfl, described⟩
  · rcases descriptor with ⟨name, type, description, default, resolver, directives, arguments⟩
    rintro ⟨rfl, rfl, rfl, keeps, wiredTo, rfl, described⟩
    have no_default : default = none := by
      cases default with
      | none => rfl
      | some default => simp [DefaultValue.Keeps, FieldDeclaration.default] at keeps
    subst no_default
    exact ⟨arguments, described, resolver, wiredTo, rfl⟩

theorem inputFieldDescriptor_eq_ok_iff {field : InputValueDefinition}
    {descriptor : FieldDescriptor} :
    inputFieldDescriptor settings typeName source field = .ok descriptor ↔
      FieldDeclaration.DescribedBy settings (.input field) descriptor := by
  simp only [inputFieldDescriptor, Success.bind_eq_ok, Success.pure_eq_ok,
    Subject.default?_eq_ok_iff]
  constructor
  · rintro ⟨default, keeps, rfl⟩
    exact ⟨rfl, rfl, rfl, keeps, rfl, rfl, .nil⟩
  · rcases descriptor with ⟨name, type, description, default, resolver, directives, arguments⟩
    rintro ⟨rfl, rfl, rfl, keeps, resolved, rfl, described⟩
    cases resolved
    cases described
    exact ⟨default, keeps, rfl⟩

end TypeDefinition

namespace InputValueDefinition

theorem exists_describedBy_iff {blocks : Prop} {argument : InputValueDefinition}
    (wellFormed : ∀ value ∈ argument.default, value.WellFormed blocks) :
    (∃ descriptor, argument.DescribedBy descriptor) ↔
      ∀ value ∈ argument.default, value.IsDefault := by
  rw [← DefaultValue.exists_keeps_iff wellFormed]
  constructor
  · rintro ⟨descriptor, described⟩
    exact ⟨descriptor.default, described.default⟩
  · rintro ⟨default, keeps⟩
    exact ⟨⟨_, _, _, default⟩, rfl, rfl, rfl, keeps⟩

end InputValueDefinition

namespace FieldDeclaration

variable {settings : Settings} {declaration : FieldDeclaration}

theorem exists_resolvedBy_iff :
    (∃ resolver, declaration.ResolvedBy settings resolver) ↔ declaration.IsWired settings := by
  cases declaration with
  | output field => exact exists_wiredTo_iff
  | input field => exact iff_of_true ⟨none, rfl⟩ trivial

theorem mem_defaults {value : Value} :
    value ∈ declaration.defaults ↔
      value ∈ declaration.default ∨
        ∃ argument ∈ declaration.arguments, value ∈ argument.default := by
  simp [defaults, List.mem_append, List.mem_filterMap]

/-- A field can be described exactly if its resolver and all default values in it are fit for it. -/
theorem exists_describedBy_iff {blocks : Prop}
    (wellFormed : ∀ value ∈ declaration.defaults, value.WellFormed blocks) :
    (∃ descriptor, declaration.DescribedBy settings descriptor) ↔
      declaration.IsWired settings ∧ ∀ value ∈ declaration.defaults, value.IsDefault := by
  have ownWellFormed : ∀ value ∈ declaration.default, value.WellFormed blocks :=
    fun value value_mem => wellFormed value (mem_defaults.mpr (.inl value_mem))
  have argumentsWellFormed : ∀ argument ∈ declaration.arguments, ∀ value ∈ argument.default,
      value.WellFormed blocks :=
    fun argument argument_mem value value_mem =>
      wellFormed value (mem_defaults.mpr (.inr ⟨argument, argument_mem, value_mem⟩))
  constructor
  · rintro ⟨descriptor, described⟩
    refine ⟨exists_resolvedBy_iff.mp ⟨_, described.resolver⟩, fun value value_mem => ?_⟩
    rcases mem_defaults.mp value_mem with own | ⟨argument, argument_mem, value_mem⟩
    · have each := (DefaultValue.exists_keeps_iff ownWellFormed).mp ⟨_, described.default⟩
      exact each value own
    · have argumentDescribed :=
        Success.exists_forall₂_iff.mp ⟨_, described.arguments⟩ argument argument_mem
      have each := (InputValueDefinition.exists_describedBy_iff
        (argumentsWellFormed argument argument_mem)).mp argumentDescribed
      exact each value value_mem
  · rintro ⟨wired, fit⟩
    rcases exists_resolvedBy_iff.mpr wired with ⟨resolver, resolved⟩
    have ownFit : ∀ value ∈ declaration.default, value.IsDefault :=
      fun value value_mem => fit value (mem_defaults.mpr (.inl value_mem))
    rcases (DefaultValue.exists_keeps_iff ownWellFormed).mpr ownFit with ⟨default, keeps⟩
    have argumentsDescribed : ∀ argument ∈ declaration.arguments,
        ∃ descriptor, argument.DescribedBy descriptor := by
      intro argument argument_mem
      rw [InputValueDefinition.exists_describedBy_iff (argumentsWellFormed argument argument_mem)]
      intro value value_mem
      exact fit value (mem_defaults.mpr (.inr ⟨argument, argument_mem, value_mem⟩))
    rcases Success.exists_forall₂_iff.mpr argumentsDescribed with ⟨arguments, described⟩
    exact ⟨⟨_, _, _, default, resolver, _, arguments⟩,
      rfl, rfl, rfl, keeps, resolved, rfl, described⟩

end FieldDeclaration

namespace Contribution

variable {settings : Settings} {contribution : Contribution}

/-- The fields that a definition or an extension declares. -/
def declarations (contribution : Contribution) : List FieldDeclaration :=
  contribution.definition.body.fields.map .output ++
    contribution.definition.body.inputFields.map .input

theorem fieldNames_map_snd :
    contribution.fieldNames.map Prod.snd =
      contribution.declarations.map FieldDeclaration.name := by
  simp only [fieldNames, declarations, List.map_map, List.map_append]
  rfl

/-- Objects and interfaces declare fields in only one of the two forms. -/
theorem declarations_of_output
    (kind : contribution.kind = .object ∨ contribution.kind = .interface) :
    contribution.declarations = contribution.definition.body.fields.map .output := by
  rcases contribution with ⟨source, ⟨description, name, directives, body, span⟩⟩
  cases body <;>
    simp_all [Contribution.kind, TypeDefinition.kind, declarations, TypeDefinition.Body.inputFields]

theorem declarations_of_input (kind : contribution.kind = .input) :
    contribution.declarations = contribution.definition.body.inputFields.map .input := by
  rcases contribution with ⟨source, ⟨description, name, directives, body, span⟩⟩
  cases body <;>
    simp_all [Contribution.kind, TypeDefinition.kind, declarations, TypeDefinition.Body.fields]

theorem fieldDescriptors_eq_ok_iff {descriptors : List FieldDescriptor}
    (kind : contribution.kind = .object ∨ contribution.kind = .interface) :
    contribution.fieldDescriptors settings = .ok descriptors ↔
      List.Forall₂ (FieldDeclaration.DescribedBy settings) contribution.declarations
        descriptors := by
  rw [declarations_of_output kind, List.forall₂_map_left_iff, fieldDescriptors]
  simp only [Success.mapM_eq_ok_iff, TypeDefinition.fieldDescriptor_eq_ok_iff]

theorem inputFieldDescriptors_eq_ok_iff {descriptors : List FieldDescriptor}
    (kind : contribution.kind = .input) :
    contribution.inputFieldDescriptors settings = .ok descriptors ↔
      List.Forall₂ (FieldDeclaration.DescribedBy settings) contribution.declarations
        descriptors := by
  rw [declarations_of_input kind, List.forall₂_map_left_iff, inputFieldDescriptors]
  simp only [Success.mapM_eq_ok_iff, TypeDefinition.inputFieldDescriptor_eq_ok_iff]

end Contribution

end WiredGraph
