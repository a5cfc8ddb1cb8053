import Mathlib.Data.List.Chain
import WiredGraph.Document.Printer
import WiredGraph.Proofs.Document.Content

/-!
# The content of documents with type-system definitions

A definition of the type system has a content, too: all of it but where its parts stand. Its printed
form is the same whether or not the arguments that it defines have descriptions, so what can be read
from that form is the content of the definition without these descriptions.
-/

namespace WiredGraph

section Content

/-- A description without its span. -/
def Description.content (description : Description) : Description :=
  ⟨description.text, description.block, .empty 0⟩

/-- A root operation without its spans. -/
def RootOperation.content (root : RootOperation) : RootOperation :=
  ⟨root.operation, root.typeName.content, .empty 0⟩

/-- A schema definition without its spans. -/
def SchemaDefinition.content (definition : SchemaDefinition) : SchemaDefinition :=
  ⟨definition.description.map Description.content,
    definition.directives.map (Directive.content id),
    definition.operations.map RootOperation.content, .empty 0⟩

/-- An argument definition or a field of an input type without its spans. -/
def InputValueDefinition.content (definition : InputValueDefinition) : InputValueDefinition :=
  ⟨definition.description.map Description.content, definition.name.content,
    definition.type.content, definition.default.map (Value.content id),
    definition.directives.map (Directive.content id), .empty 0⟩

/-- A field definition without its spans. -/
def FieldDefinition.content (definition : FieldDefinition) : FieldDefinition :=
  ⟨definition.description.map Description.content, definition.name.content,
    definition.arguments.map InputValueDefinition.content, definition.type.content,
    definition.directives.map (Directive.content id), .empty 0⟩

/-- A value of an enum without its spans. -/
def EnumValueDefinition.content (definition : EnumValueDefinition) : EnumValueDefinition :=
  ⟨definition.description.map Description.content, definition.name.content,
    definition.directives.map (Directive.content id), .empty 0⟩

/-- The body of a type without its spans. -/
def TypeDefinition.Body.content : TypeDefinition.Body → TypeDefinition.Body
  | .object interfaces fields =>
      .object (interfaces.map Name.content) (fields.map FieldDefinition.content)
  | .interface interfaces fields =>
      .interface (interfaces.map Name.content) (fields.map FieldDefinition.content)
  | .union members => .union (members.map Name.content)
  | .enum values => .enum (values.map EnumValueDefinition.content)
  | .input fields => .input (fields.map InputValueDefinition.content)
  | .scalar => .scalar

/-- A type definition without its spans. -/
def TypeDefinition.content (definition : TypeDefinition) : TypeDefinition :=
  ⟨definition.description.map Description.content, definition.name.content,
    definition.directives.map (Directive.content id), definition.body.content, .empty 0⟩

/-- A directive definition without its spans. -/
def DirectiveDefinition.content (definition : DirectiveDefinition) : DirectiveDefinition :=
  ⟨definition.description.map Description.content, definition.name.content,
    definition.arguments.map InputValueDefinition.content, definition.repeatable,
    definition.locations, .empty 0⟩

/-- A definition of any kind without its spans. -/
def Definition.fullContent : Definition → Definition
  | .schema definition => .schema definition.content
  | .type definition => .type definition.content
  | .extension addition => .extension addition.content
  | .directive definition => .directive definition.content
  | .operation definition => .operation (definition.content id)
  | .fragment definition => .fragment (definition.content id)

/-- Two documents are the same but for where the parts of their definitions stand. -/
def Document.SameContent (document other : Document) : Prop :=
  document.definitions.map Definition.fullContent = other.definitions.map Definition.fullContent

end Content

section Undescribed

/-- An argument definition without its description. -/
def InputValueDefinition.undescribed (definition : InputValueDefinition) : InputValueDefinition :=
  { definition with description := none }

/-- A field whose arguments have no descriptions. -/
def FieldDefinition.argumentsUndescribed (definition : FieldDefinition) : FieldDefinition :=
  { definition with arguments := definition.arguments.map InputValueDefinition.undescribed }

/-- The body of a type without the descriptions of arguments. -/
def TypeDefinition.Body.argumentsUndescribed : TypeDefinition.Body → TypeDefinition.Body
  | .object interfaces fields =>
      .object interfaces (fields.map FieldDefinition.argumentsUndescribed)
  | .interface interfaces fields =>
      .interface interfaces (fields.map FieldDefinition.argumentsUndescribed)
  | body => body

/-- A type definition without the descriptions of arguments. -/
def TypeDefinition.argumentsUndescribed (definition : TypeDefinition) : TypeDefinition :=
  { definition with body := definition.body.argumentsUndescribed }

/-- A directive definition without the descriptions of its arguments. -/
def DirectiveDefinition.argumentsUndescribed (definition : DirectiveDefinition) :
    DirectiveDefinition :=
  { definition with arguments := definition.arguments.map InputValueDefinition.undescribed }

/-- A definition in which no argument of a field or of a directive has a description. -/
def Definition.argumentsUndescribed : Definition → Definition
  | .type definition => .type definition.argumentsUndescribed
  | .extension addition => .extension addition.argumentsUndescribed
  | .directive definition => .directive definition.argumentsUndescribed
  | definition => definition

/-- A document without the descriptions of arguments. -/
def Document.argumentsUndescribed (document : Document) : Document :=
  { document with definitions := document.definitions.map Definition.argumentsUndescribed }

/-- The arguments that a definition defines for its fields or for a directive. -/
def Definition.definedArguments : Definition → List InputValueDefinition
  | .type definition => definition.body.fields.flatMap FieldDefinition.arguments
  | .extension addition => addition.body.fields.flatMap FieldDefinition.arguments
  | .directive definition => definition.arguments
  | _ => []

/-- Whether an argument that is defined in a document has a description. -/
def Document.describesArgument (document : Document) : Bool :=
  (document.definitions.flatMap Definition.definedArguments).any (·.description.isSome)

theorem InputValueDefinition.content_undescribed_eq_iff (definition : InputValueDefinition) :
    definition.undescribed.content = definition.content ↔ definition.description = none := by
  rcases definition with ⟨description, name, type, default, directives, span⟩
  cases description <;> simp [undescribed, content]

theorem InputValueDefinition.contents_undescribed_eq_iff (definitions : List InputValueDefinition) :
    (definitions.map undescribed).map content = definitions.map content ↔
      ∀ definition ∈ definitions, definition.description = none := by
  simp only [List.map_map, List.map_inj_left, Function.comp_apply, content_undescribed_eq_iff]

theorem FieldDefinition.content_argumentsUndescribed_eq_iff (definition : FieldDefinition) :
    definition.argumentsUndescribed.content = definition.content ↔
      ∀ argument ∈ definition.arguments, argument.description = none := by
  rw [← InputValueDefinition.contents_undescribed_eq_iff]
  simp [argumentsUndescribed, content]

theorem FieldDefinition.contents_argumentsUndescribed_eq_iff (fields : List FieldDefinition) :
    (fields.map argumentsUndescribed).map content = fields.map content ↔
      ∀ argument ∈ fields.flatMap arguments, argument.description = none := by
  simp only [List.map_map, List.map_inj_left, Function.comp_apply,
    content_argumentsUndescribed_eq_iff, List.forall_mem_flatMap]

theorem TypeDefinition.content_argumentsUndescribed_eq_iff (definition : TypeDefinition) :
    definition.argumentsUndescribed.content = definition.content ↔
      ∀ argument ∈ definition.body.fields.flatMap FieldDefinition.arguments,
        argument.description = none := by
  rw [← FieldDefinition.contents_argumentsUndescribed_eq_iff]
  rcases definition with ⟨description, name, directives, body, span⟩
  cases body <;> simp [argumentsUndescribed, Body.argumentsUndescribed, content, Body.content,
    Body.fields]

/-- Leaving out the descriptions of arguments changes a definition exactly if there are any. -/
theorem Definition.fullContent_argumentsUndescribed_eq_iff (definition : Definition) :
    definition.argumentsUndescribed.fullContent = definition.fullContent ↔
      ∀ argument ∈ definition.definedArguments, argument.description = none := by
  cases definition with
  | type definition =>
      simpa [argumentsUndescribed, fullContent, definedArguments] using
        definition.content_argumentsUndescribed_eq_iff
  | extension addition =>
      simpa [argumentsUndescribed, fullContent, definedArguments] using
        addition.content_argumentsUndescribed_eq_iff
  | directive definition =>
      simp only [definedArguments]
      rw [← InputValueDefinition.contents_undescribed_eq_iff]
      simp [argumentsUndescribed, DirectiveDefinition.argumentsUndescribed, fullContent,
        DirectiveDefinition.content]
  | _ => simp [argumentsUndescribed, definedArguments]

/-- A document is the same without the descriptions of its arguments exactly if it has none. -/
theorem Document.sameContent_argumentsUndescribed_iff (document : Document) :
    document.argumentsUndescribed.SameContent document ↔ document.describesArgument = false := by
  simp only [SameContent, argumentsUndescribed, List.map_map, List.map_inj_left,
    Function.comp_apply, Definition.fullContent_argumentsUndescribed_eq_iff, describesArgument,
    List.any_eq_false, List.forall_mem_flatMap, Option.not_isSome_iff_eq_none]

end Undescribed

section Blocks

/-- Whether the block of an object type, an interface, an enum or an input type is empty. -/
def TypeDefinition.Body.hasEmptyBlock : TypeDefinition.Body → Bool
  | .object _ fields | .interface _ fields => fields.isEmpty
  | .enum values => values.isEmpty
  | .input fields => fields.isEmpty
  | _ => false

/-- Whether a definition is printed without the block that it may have. -/
def Definition.isOpen : Definition → Bool
  | .type definition => definition.body.hasEmptyBlock
  | .extension addition => addition.body.hasEmptyBlock
  | _ => false

/-- Whether a definition is printed as a selection set only. -/
def Definition.isShorthand : Definition → Bool
  | .operation definition => definition.isShorthand
  | _ => false

/-- Nothing that is printed as a selection set follows a type that is printed without a block. -/
def Document.KeepsBlocksApart (document : Document) : Prop :=
  document.definitions.IsChain fun definition next =>
    definition.isOpen = true → next.isShorthand = false

instance (document : Document) : Decidable document.KeepsBlocksApart :=
  inferInstanceAs (Decidable (document.definitions.IsChain _))

theorem TypeDefinition.Body.hasEmptyBlock_argumentsUndescribed (body : TypeDefinition.Body) :
    body.argumentsUndescribed.hasEmptyBlock = body.hasEmptyBlock := by
  cases body <;> simp [argumentsUndescribed, hasEmptyBlock]

theorem TypeDefinition.Body.hasEmptyBlock_content (body : TypeDefinition.Body) :
    body.content.hasEmptyBlock = body.hasEmptyBlock := by
  cases body <;> simp [content, hasEmptyBlock]

/-- What a definition is printed as without its spans and the descriptions of its arguments. -/
theorem Definition.isOpen_content (definition : Definition) :
    definition.argumentsUndescribed.fullContent.isOpen = definition.isOpen := by
  cases definition <;>
    simp [argumentsUndescribed, TypeDefinition.argumentsUndescribed, fullContent,
      TypeDefinition.content, isOpen, TypeDefinition.Body.hasEmptyBlock_content,
      TypeDefinition.Body.hasEmptyBlock_argumentsUndescribed]

end Blocks

end WiredGraph
