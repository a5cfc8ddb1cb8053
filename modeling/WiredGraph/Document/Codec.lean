import WiredGraph.Document.Definition
import WiredGraph.Json.Basic

/-!
# Documents as JSON

For other tools a document can be given as a JSON tree. A span is written as its two offsets, and a
name as its text and the offsets. Every other node is an object with its span, and a definition
also says what sort of node it is.
-/

namespace WiredGraph

namespace Span

/-- The written form: both offsets. -/
def toJson (span : Span) : Json := .array [.ofNat span.start, .ofNat span.stop]

end Span

namespace Name

/-- The written form: the text and both offsets. -/
def toJson (name : Name) : Json :=
  .array [.string name.text, .ofNat name.span.start, .ofNat name.span.stop]

end Name

namespace Description

/-- The written form. -/
def toJson (description : Description) : Json :=
  .object [("value", .string description.text), ("block", .bool description.block),
    ("span", description.span.toJson)]

end Description

namespace TypeExpr

/-- The written form. -/
def toJson : TypeExpr → Json
  | .named name => .object [("named", name.toJson)]
  | .list item span => .object [("list", item.toJson), ("span", span.toJson)]
  | .nonNull inner span => .object [("non_null", inner.toJson), ("span", span.toJson)]

end TypeExpr

mutual

/-- The written form of a value. -/
def Value.toJson : Value → Json
  | .var name => .object [("variable", name.toJson)]
  | .int digits span => .object [("int", .string digits), ("span", span.toJson)]
  | .float digits span => .object [("float", .string digits), ("span", span.toJson)]
  | .string text block span =>
      .object [("string", .string text), ("block", .bool block), ("span", span.toJson)]
  | .boolean value span => .object [("bool", .bool value), ("span", span.toJson)]
  | .null span => .object [("null", .bool true), ("span", span.toJson)]
  | .enum name => .object [("enum", name.toJson)]
  | .list items span =>
      .object [("list", .array (Value.toJsonEach items)), ("span", span.toJson)]
  | .object fields span =>
      .object [("object", .array (ObjectField.toJsonEach fields)), ("span", span.toJson)]

/-- The written forms of values. -/
def Value.toJsonEach : List Value → List Json
  | [] => []
  | value :: rest => value.toJson :: Value.toJsonEach rest

/-- The written forms of the fields of an object. -/
def ObjectField.toJsonEach : List ObjectField → List Json
  | [] => []
  | .mk name value span :: rest =>
      .object [("name", name.toJson), ("value", value.toJson), ("span", span.toJson)] ::
        ObjectField.toJsonEach rest

end

namespace Argument

/-- The written form. -/
def toJson (argument : Argument) : Json :=
  .object [("name", argument.name.toJson), ("value", argument.value.toJson),
    ("value_span", argument.value.span.toJson), ("span", argument.span.toJson)]

end Argument

namespace Directive

/-- The written form. -/
def toJson (directive : Directive) : Json :=
  .object [("name", directive.name.toJson),
    ("arguments", .array (directive.arguments.map Argument.toJson)),
    ("span", directive.span.toJson)]

/-- The member that lists the directives of a node. -/
def member (directives : List Directive) : String × Json :=
  ("directives", .array (directives.map toJson))

end Directive

namespace InputValueDefinition

/-- The written form. -/
def toJson (value : InputValueDefinition) : Json :=
  .object [("description", .ofOption Description.toJson value.description),
    ("name", value.name.toJson), ("type", value.type.toJson),
    ("default", .ofOption Value.toJson value.default), Directive.member value.directives,
    ("span", value.span.toJson)]

end InputValueDefinition

namespace FieldDefinition

/-- The written form. -/
def toJson (field : FieldDefinition) : Json :=
  .object [("description", .ofOption Description.toJson field.description),
    ("name", field.name.toJson),
    ("arguments", .array (field.arguments.map InputValueDefinition.toJson)),
    ("type", field.type.toJson), ("type_span", field.type.span.toJson),
    Directive.member field.directives, ("span", field.span.toJson)]

end FieldDefinition

namespace EnumValueDefinition

/-- The written form. -/
def toJson (value : EnumValueDefinition) : Json :=
  .object [("description", .ofOption Description.toJson value.description),
    ("name", value.name.toJson), Directive.member value.directives,
    ("span", value.span.toJson)]

end EnumValueDefinition

mutual

/-- The written form of a selection. -/
def Selection.toJson : Selection → Json
  | .field aliasName name arguments directives none span =>
      .object [("field", name.toJson), ("alias", .ofOption Name.toJson aliasName),
        ("arguments", .array (arguments.map Argument.toJson)), Directive.member directives,
        ("set", .null), ("span", span.toJson)]
  | .field aliasName name arguments directives (some set) span =>
      .object [("field", name.toJson), ("alias", .ofOption Name.toJson aliasName),
        ("arguments", .array (arguments.map Argument.toJson)), Directive.member directives,
        ("set", set.toJson), ("span", span.toJson)]
  | .spread name directives span =>
      .object [("spread", name.toJson), Directive.member directives, ("span", span.toJson)]
  | .inline condition directives set span =>
      .object [("inline", .ofOption Name.toJson condition), Directive.member directives,
        ("set", set.toJson), ("span", span.toJson)]

/-- The written form of a selection set. -/
def SelectionSet.toJson : SelectionSet → Json
  | .mk selections span =>
      .object [("selections", .array (Selection.toJsonEach selections)), ("span", span.toJson)]

/-- The written forms of selections. -/
def Selection.toJsonEach : List Selection → List Json
  | [] => []
  | selection :: rest => selection.toJson :: Selection.toJsonEach rest

end

namespace TypeDefinition

/-- The members for what is said about a type of its kind. -/
def Body.toMembers : Body → List (String × Json)
  | .object interfaces fields | .interface interfaces fields =>
      [("implements", .array (interfaces.map Name.toJson)),
        ("fields", .array (fields.map FieldDefinition.toJson))]
  | .union members => [("members", .array (members.map Name.toJson))]
  | .enum values => [("values", .array (values.map EnumValueDefinition.toJson))]
  | .input fields => [("fields", .array (fields.map InputValueDefinition.toJson))]
  | .scalar => []

/-- The written form, for one sort of node. -/
def toJson (node : String) (definition : TypeDefinition) : Json :=
  .object ([("node", .string node), ("keyword", .string definition.kind.keyword),
    ("description", .ofOption Description.toJson definition.description),
    ("name", definition.name.toJson), Directive.member definition.directives,
    ("span", definition.span.toJson)] ++ definition.body.toMembers)

end TypeDefinition

namespace RootOperation

/-- The written form. -/
def toJson (root : RootOperation) : Json :=
  .object [("operation", .string root.operation.text), ("type", root.typeName.toJson),
    ("span", root.span.toJson)]

end RootOperation

namespace VariableDefinition

/-- The written form. -/
def toJson (definition : VariableDefinition) : Json :=
  .object [("name", definition.name.toJson), ("type", definition.type.toJson),
    ("default", .ofOption Value.toJson definition.default),
    Directive.member definition.directives, ("span", definition.span.toJson)]

end VariableDefinition

namespace Definition

/-- The written form. -/
def toJson : Definition → Json
  | .schema definition =>
      .object [("node", .string "schema"),
        ("description", .ofOption Description.toJson definition.description),
        Directive.member definition.directives,
        ("operations", .array (definition.operations.map RootOperation.toJson)),
        ("span", definition.span.toJson)]
  | .type definition => definition.toJson "type"
  | .extension addition => addition.toJson "extension"
  | .directive definition =>
      .object [("node", .string "directive"),
        ("description", .ofOption Description.toJson definition.description),
        ("name", definition.name.toJson),
        ("arguments", .array (definition.arguments.map InputValueDefinition.toJson)),
        ("repeatable", .bool definition.repeatable),
        ("locations", .ofStrings (definition.locations.map DirectiveLocation.text)),
        ("span", definition.span.toJson)]
  | .operation definition =>
      .object [("node", .string "operation"), ("operation", .string definition.operation.text),
        ("name", .ofOption Name.toJson definition.name),
        ("variables", .array (definition.variableDefinitions.map VariableDefinition.toJson)),
        Directive.member definition.directives, ("set", definition.set.toJson),
        ("spreads", .ofStrings definition.set.spreads), ("span", definition.span.toJson)]
  | .fragment definition =>
      .object [("node", .string "fragment"), ("name", definition.name.toJson),
        ("on", definition.condition.toJson), Directive.member definition.directives,
        ("set", definition.set.toJson), ("spreads", .ofStrings definition.set.spreads),
        ("span", definition.span.toJson)]

end Definition

end WiredGraph
