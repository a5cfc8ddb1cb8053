import WiredGraph.Proofs.Document.Content
import WiredGraph.Proofs.Token.Lexeme

/-!
# Well-formed documents

Not every document that can be built can also be written: a name has to be an identifier, an enum
value must not be one of the words that are values of their own, and the name after three points
must not be the word that goes before a type condition. A part of a document is well-formed if it
keeps to these rules. Whether texts may be block strings is left open here, since those are not
printed as they are written.
-/

namespace WiredGraph

/-- A name that can be written. -/
def Name.IsIdentifier (name : Name) : Prop := Ascii.isIdentifier name.text.toList = true

/-- The words that are values and can therefore not be enum values. -/
def Value.words : List String := ["true", "false", "null"]

/-- Whether a type is one of values that are always there. -/
def TypeExpr.isNonNull : TypeExpr → Bool
  | .nonNull _ _ => true
  | _ => false

/-- A type that can be written: only one exclamation mark may follow a type. -/
inductive TypeExpr.WellFormed : TypeExpr → Prop
  | named {name : Name} : name.IsIdentifier → WellFormed (.named name)
  | list {item : TypeExpr} {span : Span} : WellFormed item → WellFormed (.list item span)
  | nonNull {inner : TypeExpr} {span : Span} :
      WellFormed inner → inner.isNonNull = false → WellFormed (.nonNull inner span)

/-- A value that can be written; block strings are allowed only where `blocks` holds. -/
inductive Value.WellFormed (blocks : Prop) : Value → Prop
  | var {name : Name} : name.IsIdentifier → WellFormed blocks (.var name)
  | int {digits : String} {span : Span} :
      Scan.IsNumberOf .int digits.toList → WellFormed blocks (.int digits span)
  | float {digits : String} {span : Span} :
      Scan.IsNumberOf .float digits.toList → WellFormed blocks (.float digits span)
  | string {text : String} {block : Bool} {span : Span} :
      (block = true → blocks) → WellFormed blocks (.string text block span)
  | boolean (value : Bool) (span : Span) : WellFormed blocks (.boolean value span)
  | null (span : Span) : WellFormed blocks (.null span)
  | enum {name : Name} :
      name.IsIdentifier → name.text ∉ Value.words → WellFormed blocks (.enum name)
  | list {items : List Value} {span : Span} :
      (∀ item ∈ items, WellFormed blocks item) → WellFormed blocks (.list items span)
  | object {fields : List ObjectField} {span : Span} :
      (∀ field ∈ fields, field.name.IsIdentifier) →
        (∀ field ∈ fields, WellFormed blocks field.value) → WellFormed blocks (.object fields span)

/-- An argument that can be written. -/
structure Argument.WellFormed (blocks : Prop) (argument : Argument) : Prop where
  name : argument.name.IsIdentifier
  value : argument.value.WellFormed blocks

/-- A directive that can be written. -/
structure Directive.WellFormed (blocks : Prop) (directive : Directive) : Prop where
  name : directive.name.IsIdentifier
  arguments : ∀ argument ∈ directive.arguments, argument.WellFormed blocks

/-- What may stand around the name of a field: an alias, arguments and directives. -/
structure Selection.FieldWellFormed (blocks : Prop) (aliasName : Option Name) (name : Name)
    (arguments : List Argument) (directives : List Directive) : Prop where
  aliasName : ∀ other ∈ aliasName, other.IsIdentifier
  name : name.IsIdentifier
  arguments : ∀ argument ∈ arguments, argument.WellFormed blocks
  directives : ∀ directive ∈ directives, directive.WellFormed blocks

/-- A name that a fragment may have. -/
structure Name.NamesFragment (name : Name) : Prop where
  identifier : name.IsIdentifier
  no_condition : name.text ≠ "on"

/-- A selection that can be written, with the selections below it. -/
inductive Selection.WellFormed (blocks : Prop) : Selection → Prop
  | leaf {aliasName : Option Name} {name : Name} {arguments : List Argument}
      {directives : List Directive} {span : Span} :
      FieldWellFormed blocks aliasName name arguments directives →
        WellFormed blocks (.field aliasName name arguments directives none span)
  | field {aliasName : Option Name} {name : Name} {arguments : List Argument}
      {directives : List Directive} {selections : List Selection} {setSpan span : Span} :
      FieldWellFormed blocks aliasName name arguments directives →
        (∀ selection ∈ selections, WellFormed blocks selection) →
          WellFormed blocks
            (.field aliasName name arguments directives (some (.mk selections setSpan)) span)
  | spread {name : Name} {directives : List Directive} {span : Span} :
      name.NamesFragment → (∀ directive ∈ directives, directive.WellFormed blocks) →
        WellFormed blocks (.spread name directives span)
  | inline {condition : Option Name} {directives : List Directive} {selections : List Selection}
      {setSpan span : Span} :
      (∀ name ∈ condition, name.IsIdentifier) →
        (∀ directive ∈ directives, directive.WellFormed blocks) →
          (∀ selection ∈ selections, WellFormed blocks selection) →
            WellFormed blocks (.inline condition directives (.mk selections setSpan) span)

/-- A selection set that can be written. -/
def SelectionSet.WellFormed (blocks : Prop) (set : SelectionSet) : Prop :=
  ∀ selection ∈ set.selections, selection.WellFormed blocks

/-- A variable of an operation that can be written. -/
structure VariableDefinition.WellFormed (blocks : Prop) (definition : VariableDefinition) :
    Prop where
  name : definition.name.IsIdentifier
  type : definition.type.WellFormed
  default : ∀ value ∈ definition.default, value.WellFormed blocks
  directives : ∀ directive ∈ definition.directives, directive.WellFormed blocks

/-- An operation that can be written. -/
structure OperationDefinition.WellFormed (blocks : Prop) (definition : OperationDefinition) :
    Prop where
  name : ∀ name ∈ definition.name, name.IsIdentifier
  variableDefinitions : ∀ declared ∈ definition.variableDefinitions, declared.WellFormed blocks
  directives : ∀ directive ∈ definition.directives, directive.WellFormed blocks
  set : definition.set.WellFormed blocks

/-- A fragment definition that can be written. -/
structure FragmentDefinition.WellFormed (blocks : Prop) (definition : FragmentDefinition) :
    Prop where
  name : definition.name.NamesFragment
  condition : definition.condition.IsIdentifier
  directives : ∀ directive ∈ definition.directives, directive.WellFormed blocks
  set : definition.set.WellFormed blocks

/-- An argument definition or a field of an input type that can be written; as for all definitions
of the type system, its description is left open. -/
structure InputValueDefinition.WellFormed (blocks : Prop) (definition : InputValueDefinition) :
    Prop where
  name : definition.name.IsIdentifier
  type : definition.type.WellFormed
  default : ∀ value ∈ definition.default, value.WellFormed blocks
  directives : ∀ directive ∈ definition.directives, directive.WellFormed blocks

/-- A field definition that can be written but for its descriptions. -/
structure FieldDefinition.WellFormed (blocks : Prop) (definition : FieldDefinition) : Prop where
  name : definition.name.IsIdentifier
  arguments : ∀ argument ∈ definition.arguments, argument.WellFormed blocks
  type : definition.type.WellFormed
  directives : ∀ directive ∈ definition.directives, directive.WellFormed blocks

/-- A value of an enum that can be written but for its description. -/
structure EnumValueDefinition.WellFormed (blocks : Prop) (definition : EnumValueDefinition) :
    Prop where
  name : definition.name.IsIdentifier
  directives : ∀ directive ∈ definition.directives, directive.WellFormed blocks

/-- The body of a type that can be written but for its descriptions. -/
structure TypeDefinition.Body.WellFormed (blocks : Prop) (body : TypeDefinition.Body) : Prop where
  interfaces : ∀ name ∈ body.interfaces, name.IsIdentifier
  fields : ∀ field ∈ body.fields, field.WellFormed blocks
  inputFields : ∀ field ∈ body.inputFields, field.WellFormed blocks
  values : ∀ value ∈ body.values, value.WellFormed blocks
  members : ∀ name ∈ body.members, name.IsIdentifier

/-- A type definition that can be written but for its descriptions. -/
structure TypeDefinition.WellFormed (blocks : Prop) (definition : TypeDefinition) : Prop where
  name : definition.name.IsIdentifier
  directives : ∀ directive ∈ definition.directives, directive.WellFormed blocks
  body : definition.body.WellFormed blocks

/-- An executable definition that can be written. -/
def Definition.WellFormed (blocks : Prop) : Definition → Prop
  | .operation definition => definition.WellFormed blocks
  | .fragment definition => definition.WellFormed blocks
  | _ => False

theorem Selection.wellFormed_field {blocks : Prop} {aliasName : Option Name}
    {name : Name} {arguments : List Argument} {directives : List Directive}
    {set : Option SelectionSet}
    (head : Selection.FieldWellFormed blocks aliasName name arguments directives)
    (wellFormed : ∀ inner ∈ set, inner.WellFormed blocks) (span : Span) :
    (Selection.field aliasName name arguments directives set span).WellFormed blocks := by
  rcases set with - | ⟨⟨selections, setSpan⟩⟩
  · exact .leaf head
  · exact .field head (wellFormed _ rfl)

section Content

variable {blocks : Prop} (read : String → String)

theorem TypeExpr.WellFormed.content {type : TypeExpr} (wellFormed : type.WellFormed) :
    type.content.WellFormed := by
  induction wellFormed with
  | named name => exact .named name
  | list _ ih => exact .list ih
  | @nonNull inner _ _ once ih =>
      refine .nonNull ih ?_
      cases inner <;> exact once

/-- How texts are read does not matter to whether a value can be written. -/
theorem Value.WellFormed.content {value : Value} (wellFormed : value.WellFormed blocks) :
    (value.content read).WellFormed blocks := by
  induction wellFormed with
  | var name => exact .var name
  | int digits => exact .int digits
  | float digits => exact .float digits
  | string block => exact .string block
  | boolean value => exact .boolean value _
  | null => exact .null _
  | enum name noWord => exact .enum name noWord
  | list _ ih =>
      refine .list ?_
      rw [Value.contentEach_eq_map]
      exact List.forall_mem_map.mpr ih
  | object names _ ih =>
      rw [Value.content, ObjectField.contentEach_eq_map]
      refine .object (List.forall_mem_map.mpr ?_) (List.forall_mem_map.mpr ?_)
      · rintro ⟨name, value, span⟩ field_mem
        exact names (.mk name value span) field_mem
      · rintro ⟨name, value, span⟩ field_mem
        exact ih (.mk name value span) field_mem

theorem Argument.WellFormed.content {argument : Argument}
    (wellFormed : argument.WellFormed blocks) : (argument.content read).WellFormed blocks where
  name := wellFormed.name
  value := wellFormed.value.content read

theorem Directive.WellFormed.content {directive : Directive}
    (wellFormed : directive.WellFormed blocks) : (directive.content read).WellFormed blocks where
  name := wellFormed.name
  arguments := List.forall_mem_map.mpr fun argument argument_mem =>
    (wellFormed.arguments argument argument_mem).content read

theorem Directive.wellFormed_contents {directives : List Directive}
    (wellFormed : ∀ directive ∈ directives, directive.WellFormed blocks) :
    ∀ directive ∈ directives.map (Directive.content read), directive.WellFormed blocks :=
  List.forall_mem_map.mpr fun directive directive_mem =>
    (wellFormed directive directive_mem).content read

theorem Name.isIdentifier_contents {name : Option Name}
    (each : ∀ other ∈ name, other.IsIdentifier) :
    ∀ other ∈ name.map Name.content, other.IsIdentifier := by
  intro other other_mem
  rcases Option.map_eq_some_iff.mp other_mem with ⟨original, original_mem, rfl⟩
  exact each original original_mem

theorem Selection.FieldWellFormed.content {aliasName : Option Name} {name : Name}
    {arguments : List Argument} {directives : List Directive}
    (wellFormed : FieldWellFormed blocks aliasName name arguments directives) :
    FieldWellFormed blocks (aliasName.map Name.content) name.content
      (arguments.map (Argument.content read)) (directives.map (Directive.content read)) where
  aliasName := Name.isIdentifier_contents wellFormed.aliasName
  name := wellFormed.name
  arguments := List.forall_mem_map.mpr fun argument argument_mem =>
    (wellFormed.arguments argument argument_mem).content read
  directives := Directive.wellFormed_contents read wellFormed.directives

theorem Selection.WellFormed.content {selection : Selection}
    (wellFormed : selection.WellFormed blocks) : (selection.content read).WellFormed blocks := by
  induction wellFormed with
  | leaf head => exact .leaf (head.content read)
  | field head _ ih =>
      simp only [Selection.content, SelectionSet.content, Selection.contentEach_eq_map]
      exact .field (head.content read) (List.forall_mem_map.mpr ih)
  | spread name directives =>
      exact .spread ⟨name.identifier, name.no_condition⟩
        (Directive.wellFormed_contents read directives)
  | inline condition directives _ ih =>
      simp only [Selection.content, SelectionSet.content, Selection.contentEach_eq_map]
      exact .inline (Name.isIdentifier_contents condition)
        (Directive.wellFormed_contents read directives) (List.forall_mem_map.mpr ih)

theorem SelectionSet.WellFormed.content {set : SelectionSet} (wellFormed : set.WellFormed blocks) :
    (set.content read).WellFormed blocks := by
  rcases set with ⟨selections, span⟩
  simp only [SelectionSet.content, Selection.contentEach_eq_map]
  exact List.forall_mem_map.mpr fun selection selection_mem =>
    (wellFormed selection selection_mem).content read

theorem VariableDefinition.WellFormed.content {definition : VariableDefinition}
    (wellFormed : definition.WellFormed blocks) : (definition.content read).WellFormed blocks where
  name := wellFormed.name
  type := wellFormed.type.content
  default := by
    intro value value_mem
    rcases Option.map_eq_some_iff.mp value_mem with ⟨original, original_mem, rfl⟩
    exact (wellFormed.default original original_mem).content read
  directives := Directive.wellFormed_contents read wellFormed.directives

theorem OperationDefinition.WellFormed.content {definition : OperationDefinition}
    (wellFormed : definition.WellFormed blocks) : (definition.content read).WellFormed blocks where
  name := Name.isIdentifier_contents wellFormed.name
  variableDefinitions := List.forall_mem_map.mpr fun declared declared_mem =>
    (wellFormed.variableDefinitions declared declared_mem).content read
  directives := Directive.wellFormed_contents read wellFormed.directives
  set := wellFormed.set.content read

theorem FragmentDefinition.WellFormed.content {definition : FragmentDefinition}
    (wellFormed : definition.WellFormed blocks) : (definition.content read).WellFormed blocks where
  name := ⟨wellFormed.name.identifier, wellFormed.name.no_condition⟩
  condition := wellFormed.condition
  directives := Directive.wellFormed_contents read wellFormed.directives
  set := wellFormed.set.content read

theorem Definition.WellFormed.content {definition : Definition}
    (wellFormed : definition.WellFormed blocks) : (definition.content read).WellFormed blocks := by
  cases definition with
  | operation definition => exact OperationDefinition.WellFormed.content read wellFormed
  | fragment definition => exact FragmentDefinition.WellFormed.content read wellFormed
  | _ => exact wellFormed

end Content

end WiredGraph
