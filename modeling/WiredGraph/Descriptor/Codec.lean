import WiredGraph.Descriptor.Table
import WiredGraph.Json.Decode
import WiredGraph.Json.Reader
import WiredGraph.Json.Writer

/-!
# Descriptors as JSON

Each descriptor has one written form: its fields in a fixed order, those that are absent or empty
left out. Reading accepts every record that gives the required fields, in any order, and takes the
left-out ones as absent or empty.
-/

namespace WiredGraph

/-- A member that is left out when there is no value. -/
def optionalMember {Item : Type} (key : String) (encode : Item → Json) :
    Option Item → List (String × Json)
  | some item => [(key, encode item)]
  | none => []

/-- A member that is left out when the list is empty. -/
def listMember {Item : Type} (key : String) (encode : Item → Json) :
    List Item → List (String × Json)
  | [] => []
  | items => [(key, .array (items.map encode))]

namespace CallableRef

/-- The written form. -/
def toJson : CallableRef → Json
  | .service name => .object [("kind", .string "service"), ("name", .string name)]
  | .constructor className =>
      .object [("kind", .string "constructor"), ("class", .string className)]
  | .staticMethod className method =>
      .object [("kind", .string "static_method"), ("class", .string className),
        ("method", .string method)]

/-- The callable that a value describes. -/
def ofJson? (value : Json) : Option CallableRef := do
  let (tag, record) ← value.variant?
  match tag with
  | "service" =>
      match ← Json.fields? ["name"] record with
      | [name] => return .service (← Json.required? Json.asString? name)
      | _ => none
  | "constructor" =>
      match ← Json.fields? ["class"] record with
      | [className] => return .constructor (← Json.required? Json.asString? className)
      | _ => none
  | "static_method" =>
      match ← Json.fields? ["class", "method"] record with
      | [className, method] =>
          return .staticMethod (← Json.required? Json.asString? className)
            (← Json.required? Json.asString? method)
      | _ => none
  | _ => none

end CallableRef

namespace TypeRef

/-- The written form: an object with one member. -/
def toJson : TypeRef → Json
  | .named name => .object [("named", .string name)]
  | .list item => .object [("list", item.toJson)]
  | .nonNull inner => .object [("non_null", inner.toJson)]

/-- The type that a value describes. -/
def ofJson? : Json → Option TypeRef
  | .object [("named", .string name)] => some (.named name)
  | .object [("list", item)] => (ofJson? item).map .list
  | .object [("non_null", inner)] => (ofJson? inner).map .nonNull
  | _ => none

end TypeRef

namespace DefaultValue

/-- A literal with its kind. -/
def tagged (kind : String) (value : Json) : Json :=
  .object [("kind", .string kind), ("value", value)]

/-- The written form of a floating point number; there is none for infinities but null. -/
def floatToJson (value : ExtendedBinary64) : Json :=
  (value.finite?.map fun number => .number (.floating number)).getD .null

mutual

/-- The written form: the kind and, except for null, the value. -/
def toJson : DefaultValue → Json
  | .string value => tagged "string" (.string value)
  | .int value => tagged "int" (.ofInt64 value)
  | .float value => tagged "float" (floatToJson value)
  | .boolean value => tagged "boolean" (.bool value)
  | .null => .object [("kind", .string "null")]
  | .list items => tagged "list" (.array (toJsonEach items))
  | .enum name => tagged "enum" (.string name)

/-- The written forms of literals. -/
def toJsonEach : List DefaultValue → List Json
  | [] => []
  | value :: rest => value.toJson :: toJsonEach rest

end

/-- The kind and the value of a literal: the members of an object, or a list of both. -/
def content? : Json → Option (String × Option Json)
  | .object members => do
      let kind ← (← Json.uniqueMember? members "kind").bind Json.asString?
      some (kind, ← Json.uniqueMember? members "value")
  | .array [kind, value] => do some (← kind.asString?, some value)
  | _ => none

/-- The literal of a kind that nests nothing. -/
def ofContent? : String × Option Json → Option DefaultValue
  | ("string", some value) => value.asString?.map .string
  | ("int", some value) => value.asInt64?.map .int
  | ("float", some value) => value.asBinary64?.map fun number => .float (.finite number)
  | ("boolean", some value) => value.asBool?.map .boolean
  | ("null", none) => some .null
  | ("null", some .null) => some .null
  | ("enum", some value) => value.asString?.map .enum
  | _ => none

mutual

/-- The literal that a value describes. -/
def ofJson? : Json → Option DefaultValue
  | .object members => do
      match ← content? (.object members) with
      | ("list", some _) => return .list (← valueItems? members)
      | content => ofContent? content
  | .array (kind :: value :: rest) => do
      match ← content? (.array (kind :: value :: rest)) with
      | ("list", some _) => return .list (← items? value)
      | content => ofContent? content
  | _ => none

/-- The literals that the items of a list describe. -/
def items? : Json → Option (List DefaultValue)
  | .array items => ofJsonEach? items
  | _ => none

/-- The literals that values describe. -/
def ofJsonEach? : List Json → Option (List DefaultValue)
  | [] => some []
  | item :: rest => do return (← ofJson? item) :: (← ofJsonEach? rest)

/-- The literals that the items of the member for the value describe. -/
def valueItems? : List (String × Json) → Option (List DefaultValue)
  | [] => none
  | (key, value) :: rest => if key = "value" then items? value else valueItems? rest

end

end DefaultValue

namespace DirectiveInvocation

/-- The written form. -/
def toJson (invocation : DirectiveInvocation) : Json :=
  let arguments := invocation.arguments.entries.map fun (name, value) => (name, value.tree)
  .object ([("name", .string invocation.name)] ++
    if arguments.isEmpty then [] else [("args", .object arguments)])

/-- The invocation that a value describes. -/
def ofJson? (value : Json) : Option DirectiveInvocation := do
  match ← Json.fields? ["name", "args"] value with
  | [name, arguments] =>
      let argument? (value : Json) : Option SortedJson := some (.ofJson value)
      return ⟨← Json.required? Json.asString? name,
        ← Json.defaulted? (Json.asMap? argument?) .empty arguments⟩
  | _ => none

end DirectiveInvocation

namespace ArgumentDescriptor

/-- The written form. -/
def toJson (argument : ArgumentDescriptor) : Json :=
  .object ([("name", .string argument.name), ("type", argument.type.toJson)] ++
    optionalMember "description" .string argument.description ++
    optionalMember "default_value" DefaultValue.toJson argument.default)

/-- The argument that a value describes. -/
def ofJson? (value : Json) : Option ArgumentDescriptor := do
  match ← Json.fields? ["name", "type", "description", "default_value"] value with
  | [name, type, description, default] =>
      return ⟨← Json.required? Json.asString? name, ← Json.required? TypeRef.ofJson? type,
        ← Json.optional? Json.asString? description,
        ← Json.optional? DefaultValue.ofJson? default⟩
  | _ => none

end ArgumentDescriptor

namespace FieldDescriptor

/-- The written form. -/
def toJson (field : FieldDescriptor) : Json :=
  .object ([("name", .string field.name), ("type", field.type.toJson)] ++
    optionalMember "description" .string field.description ++
    optionalMember "default_value" DefaultValue.toJson field.default ++
    optionalMember "resolver" CallableRef.toJson field.resolver ++
    listMember "directives" DirectiveInvocation.toJson field.directives ++
    listMember "arguments" ArgumentDescriptor.toJson field.arguments)

/-- The field that a value describes. -/
def ofJson? (value : Json) : Option FieldDescriptor := do
  match ← Json.fields? ["name", "type", "description", "default_value", "resolver", "directives",
      "arguments"] value with
  | [name, type, description, default, resolver, directives, arguments] =>
      return ⟨← Json.required? Json.asString? name, ← Json.required? TypeRef.ofJson? type,
        ← Json.optional? Json.asString? description,
        ← Json.optional? DefaultValue.ofJson? default,
        ← Json.optional? CallableRef.ofJson? resolver,
        ← Json.defaulted? (Json.asList? DirectiveInvocation.ofJson?) [] directives,
        ← Json.defaulted? (Json.asList? ArgumentDescriptor.ofJson?) [] arguments⟩
  | _ => none

end FieldDescriptor

namespace TypeDescriptor.Body

/-- The members for the kind of type and what is said about it. -/
def toMembers : Body → List (String × Json)
  | .scalar serialize parseValue parseLiteral =>
      [("kind", .string "scalar"), ("serialize", serialize.toJson),
        ("parse_value", parseValue.toJson), ("parse_literal", parseLiteral.toJson)]
  | .object fields fieldResolver interfaces =>
      [("kind", .string "object"), ("fields", .array (fields.map FieldDescriptor.toJson))] ++
        optionalMember "field_resolver" CallableRef.toJson fieldResolver ++
        listMember "interfaces" .string interfaces
  | .input fields parseValue =>
      [("kind", .string "input"), ("fields", .array (fields.map FieldDescriptor.toJson))] ++
        optionalMember "parse_value" CallableRef.toJson parseValue
  | .enum values =>
      [("kind", .string "enum"),
        ("values", .object (values.entries.map fun (name, value) => (name, .string value)))]
  | .interface fields typeResolver =>
      [("kind", .string "interface"), ("fields", .array (fields.map FieldDescriptor.toJson))] ++
        optionalMember "type_resolver" CallableRef.toJson typeResolver
  | .union members typeResolver =>
      [("kind", .string "union"), ("members", .array (members.map .string)),
        ("type_resolver", typeResolver.toJson)]

/-- What a record says about a type of a kind. -/
def ofRecord? (kind : String) (record : Json) : Option Body := do
  let callable? := Json.required? CallableRef.ofJson?
  let optionalCallable? := Json.optional? CallableRef.ofJson?
  let fields? := Json.required? (Json.asList? FieldDescriptor.ofJson?)
  match kind with
  | "scalar" =>
      match ← Json.fields? ["serialize", "parse_value", "parse_literal"] record with
      | [serialize, parseValue, parseLiteral] =>
          return .scalar (← callable? serialize) (← callable? parseValue) (← callable? parseLiteral)
      | _ => none
  | "object" =>
      match ← Json.fields? ["fields", "field_resolver", "interfaces"] record with
      | [fields, fieldResolver, interfaces] =>
          return .object (← fields? fields) (← optionalCallable? fieldResolver)
            (← Json.defaulted? (Json.asList? Json.asString?) [] interfaces)
      | _ => none
  | "input" =>
      match ← Json.fields? ["fields", "parse_value"] record with
      | [fields, parseValue] => return .input (← fields? fields) (← optionalCallable? parseValue)
      | _ => none
  | "enum" =>
      match ← Json.fields? ["values"] record with
      | [values] => return .enum (← Json.required? (Json.asMap? Json.asString?) values)
      | _ => none
  | "interface" =>
      match ← Json.fields? ["fields", "type_resolver"] record with
      | [fields, typeResolver] =>
          return .interface (← fields? fields) (← optionalCallable? typeResolver)
      | _ => none
  | "union" =>
      match ← Json.fields? ["members", "type_resolver"] record with
      | [members, typeResolver] =>
          return .union (← Json.required? (Json.asList? Json.asString?) members)
            (← callable? typeResolver)
      | _ => none
  | _ => none

end TypeDescriptor.Body

namespace TypeDescriptor

/-- The written form. -/
def toJson (descriptor : TypeDescriptor) : Json :=
  .object ([("name", .string descriptor.name)] ++
    optionalMember "description" .string descriptor.description ++
    [("source_module", .string descriptor.sourceModule)] ++
    listMember "directives" DirectiveInvocation.toJson descriptor.directives ++
    descriptor.body.toMembers)

/-- The descriptor that an object describes. -/
def ofJson? : Json → Option TypeDescriptor
  | .object members => do
      let (kind, record) ← Json.variant? (.object members)
      match ← Json.fields? ["name", "description", "source_module", "directives"]
          (.object members) with
      | [name, description, sourceModule, directives] =>
          return ⟨← Json.required? Json.asString? name,
            ← Json.optional? Json.asString? description,
            ← Json.required? Json.asString? sourceModule,
            ← Json.defaulted? (Json.asList? DirectiveInvocation.ofJson?) [] directives,
            ← Body.ofRecord? kind record⟩
      | _ => none
  | _ => none

end TypeDescriptor

namespace DescriptorTable

/-- The written form. -/
def toJson (table : DescriptorTable) : Json :=
  .object [
    ("module", .string table.module),
    ("types", .object (table.types.entries.map fun (name, partials) =>
      (name, .array (partials.map TypeDescriptor.toJson))))]

/-- The table that a value describes. -/
def ofJson? (value : Json) : Option DescriptorTable := do
  match ← Json.fields? ["module", "types"] value with
  | [module, types] =>
      return ⟨← Json.required? Json.asString? module,
        ← Json.required? (Json.asMap? (Json.asList? TypeDescriptor.ofJson?)) types⟩
  | _ => none

/-- The text of the artifact of a module. -/
def artifact (table : DescriptorTable) : String := table.toJson.prettyText

/-- The table in an artifact. -/
def ofArtifact? (text : String) : Option DescriptorTable := (Json.ofText? text).bind ofJson?

end DescriptorTable

end WiredGraph
