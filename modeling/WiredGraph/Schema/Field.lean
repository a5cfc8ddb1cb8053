import WiredGraph.Schema.Declaration
import WiredGraph.Schema.Wiring

/-!
# Fields of declared types

Fields of object types and interfaces take arguments and may be wired to a resolver. Fields of
input types may have a default value instead. An error in a field is reported at its name; for a
field with arguments it names the field, for one of an input type only the type.
-/

namespace WiredGraph

namespace TypeDefinition

/-- What descriptors say about an argument. -/
def argumentDescriptor (subject : Subject) (argument : InputValueDefinition) :
    Except CompileError ArgumentDescriptor := do
  let default ← subject.default? argument.name.text argument.default
  return ⟨argument.name.text, .ofTypeExpr argument.type,
    argument.description.map Description.text, default⟩

/-- What descriptors say about a field of an object type or an interface. -/
def fieldDescriptor (settings : Settings) (typeName : String) (source : SchemaSource)
    (field : FieldDefinition) : Except CompileError FieldDescriptor := do
  let subject : Subject :=
    ⟨typeName ++ "." ++ field.name.text, source.locate field.name.span⟩
  let arguments ← field.arguments.mapM (argumentDescriptor subject)
  let resolver ← subject.wiring? settings.referenceTokens settings.wiring.fieldResolver
    field.directives
  return {
    name := field.name.text
    type := .ofTypeExpr field.type
    description := field.description.map Description.text
    default := none
    resolver := resolver
    directives := settings.wiring.remaining field.directives
    arguments := arguments }

/-- What descriptors say about a field of an input type. -/
def inputFieldDescriptor (settings : Settings) (typeName : String) (source : SchemaSource)
    (field : InputValueDefinition) : Except CompileError FieldDescriptor := do
  let subject : Subject := ⟨typeName, source.locate field.name.span⟩
  let default ← subject.default? field.name.text field.default
  return {
    name := field.name.text
    type := .ofTypeExpr field.type
    description := field.description.map Description.text
    default := default
    resolver := none
    directives := settings.wiring.remaining field.directives
    arguments := [] }

end TypeDefinition

namespace Contribution

/-- The descriptors of the fields of an object type or an interface in a contribution. -/
def fieldDescriptors (settings : Settings) (contribution : Contribution) :
    Except CompileError (List FieldDescriptor) :=
  contribution.definition.body.fields.mapM
    (TypeDefinition.fieldDescriptor settings contribution.name contribution.source)

/-- The descriptors of the fields of an input type in a contribution. -/
def inputFieldDescriptors (settings : Settings) (contribution : Contribution) :
    Except CompileError (List FieldDescriptor) :=
  contribution.definition.body.inputFields.mapM
    (TypeDefinition.inputFieldDescriptor settings contribution.name contribution.source)

end Contribution

end WiredGraph
