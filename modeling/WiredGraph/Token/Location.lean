/-!
# Directive locations

A directive definition lists the places where the directive may stand. Each place has one
upper-case word.
-/

namespace WiredGraph

/-- A place where a directive may stand. -/
inductive DirectiveLocation where
  | schema
  | scalar
  | object
  | fieldDefinition
  | argumentDefinition
  | interface
  | union
  | enum
  | enumValue
  | inputObject
  | inputFieldDefinition
  | query
  | mutation
  | subscription
  | field
  | fragmentDefinition
  | fragmentSpread
  | inlineFragment
  | variableDefinition
deriving DecidableEq, Repr

namespace DirectiveLocation

/-- All locations. -/
def all : List DirectiveLocation :=
  [.schema, .scalar, .object, .fieldDefinition, .argumentDefinition, .interface, .union, .enum,
    .enumValue, .inputObject, .inputFieldDefinition, .query, .mutation, .subscription, .field,
    .fragmentDefinition, .fragmentSpread, .inlineFragment, .variableDefinition]

/-- The word for a location. -/
def text : DirectiveLocation → String
  | .schema => "SCHEMA"
  | .scalar => "SCALAR"
  | .object => "OBJECT"
  | .fieldDefinition => "FIELD_DEFINITION"
  | .argumentDefinition => "ARGUMENT_DEFINITION"
  | .interface => "INTERFACE"
  | .union => "UNION"
  | .enum => "ENUM"
  | .enumValue => "ENUM_VALUE"
  | .inputObject => "INPUT_OBJECT"
  | .inputFieldDefinition => "INPUT_FIELD_DEFINITION"
  | .query => "QUERY"
  | .mutation => "MUTATION"
  | .subscription => "SUBSCRIPTION"
  | .field => "FIELD"
  | .fragmentDefinition => "FRAGMENT_DEFINITION"
  | .fragmentSpread => "FRAGMENT_SPREAD"
  | .inlineFragment => "INLINE_FRAGMENT"
  | .variableDefinition => "VARIABLE_DEFINITION"

/-- The location that a word stands for, if it stands for one. -/
def ofText? (word : String) : Option DirectiveLocation := all.find? (·.text == word)

@[simp]
theorem ofText?_text (location : DirectiveLocation) : ofText? location.text = some location := by
  cases location <;> decide

end DirectiveLocation

end WiredGraph
