import WiredGraph.Proofs.Document.WellFormed

/-!
# Well-formed definitions with their descriptions

Whether a definition is well-formed leaves its descriptions open. One that can also be printed so
that it is read again has only descriptions that can be written, and a directive is defined for at
least one location. The descriptions of arguments are not printed, so they are left open here, too.
-/

namespace WiredGraph

/-- A description that can be written; a block string can be if those are allowed. -/
def Description.Writable (blocks : Prop) (description : Description) : Prop :=
  description.block = true → blocks

/-- An argument definition or a field of an input type that can be written with its description. -/
structure InputValueDefinition.Writable (blocks : Prop) (definition : InputValueDefinition) :
    Prop where
  description : ∀ text ∈ definition.description, text.Writable blocks
  wellFormed : definition.WellFormed blocks

/-- A field definition that can be written with its description. -/
structure FieldDefinition.Writable (blocks : Prop) (definition : FieldDefinition) : Prop where
  description : ∀ text ∈ definition.description, text.Writable blocks
  wellFormed : definition.WellFormed blocks

/-- A value of an enum that can be written with its description. -/
structure EnumValueDefinition.Writable (blocks : Prop) (definition : EnumValueDefinition) :
    Prop where
  description : ∀ text ∈ definition.description, text.Writable blocks
  wellFormed : definition.WellFormed blocks

/-- The body of a type that can be written with its descriptions, whatever kind it has. -/
structure TypeDefinition.Body.Writable (blocks : Prop) (body : TypeDefinition.Body) : Prop where
  interfaces : ∀ name ∈ body.interfaces, name.IsIdentifier
  fields : ∀ field ∈ body.fields, field.Writable blocks
  inputFields : ∀ field ∈ body.inputFields, field.Writable blocks
  values : ∀ value ∈ body.values, value.Writable blocks
  members : ∀ name ∈ body.members, name.IsIdentifier

/-- A type that can be written from its keyword on. -/
structure TypeDefinition.Writable (blocks : Prop) (definition : TypeDefinition) : Prop where
  name : definition.name.IsIdentifier
  directives : ∀ directive ∈ definition.directives, directive.WellFormed blocks
  body : definition.body.Writable blocks

/-- A schema definition that can be written. -/
structure SchemaDefinition.Writable (blocks : Prop) (definition : SchemaDefinition) : Prop where
  directives : ∀ directive ∈ definition.directives, directive.WellFormed blocks
  operations : ∀ root ∈ definition.operations, root.typeName.IsIdentifier

/-- A directive definition that can be written; it has a location at least. -/
structure DirectiveDefinition.Writable (blocks : Prop) (definition : DirectiveDefinition) :
    Prop where
  name : definition.name.IsIdentifier
  arguments : ∀ argument ∈ definition.arguments, argument.WellFormed blocks
  locations : definition.locations ≠ []

/-- The description that a definition is printed with. -/
def Definition.description? : Definition → Option Description
  | .schema definition => definition.description
  | .type definition => definition.description
  | .directive definition => definition.description
  | _ => none

/-- What can be written of a definition apart from its description. -/
def Definition.StatementWritable (blocks : Prop) : Definition → Prop
  | .schema definition => definition.Writable blocks
  | .type definition => definition.Writable blocks
  | .extension addition => addition.Writable blocks ∧ addition.description = none
  | .directive definition => definition.Writable blocks
  | .operation definition => definition.WellFormed blocks
  | .fragment definition => definition.WellFormed blocks

/-- A definition of either sort that can be written. -/
structure Definition.Writable (blocks : Prop) (definition : Definition) : Prop where
  description : ∀ text ∈ definition.description?, text.Writable blocks
  statement : definition.StatementWritable blocks

section WellFormed

variable {blocks : Prop}

theorem TypeDefinition.Body.Writable.wellFormed {body : TypeDefinition.Body}
    (writable : body.Writable blocks) : body.WellFormed blocks where
  interfaces := writable.interfaces
  fields field field_mem := (writable.fields field field_mem).wellFormed
  inputFields field field_mem := (writable.inputFields field field_mem).wellFormed
  values value value_mem := (writable.values value value_mem).wellFormed
  members := writable.members

theorem TypeDefinition.Writable.wellFormed {definition : TypeDefinition}
    (writable : definition.Writable blocks) : definition.WellFormed blocks where
  name := writable.name
  directives := writable.directives
  body := writable.body.wellFormed

end WellFormed

end WiredGraph
