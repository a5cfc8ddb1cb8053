import WiredGraph.Descriptor.Codec
import WiredGraph.Proofs.Json.Decode
import WiredGraph.Proofs.Json.RoundTrip

/-!
# Descriptors are read back from what is written for them

A table of descriptors has a proper written form exactly if no default value in it holds an
infinity: then it is decoded as it was, with everything in the same order, and otherwise it is not
decoded at all. Reading the artifact adds a bound on how deep defaults, types and arguments nest.
-/

namespace WiredGraph

open Json (givenMembers)

section Members

variable {Item : Type} {key : String} {encode : Item → Json}
  {fields : List (String × Option Json)}

@[simp]
theorem givenMembers_nil : givenMembers [] = [] := rfl

@[simp]
theorem givenMembers_cons_some (value : Json) :
    givenMembers ((key, some value) :: fields) = (key, value) :: givenMembers fields := rfl

@[simp]
theorem givenMembers_cons_map (value : Option Item) :
    givenMembers ((key, value.map encode) :: fields) =
      optionalMember key encode value ++ givenMembers fields := by
  cases value <;> rfl

/-- The value of a field that is left out when the list is empty. -/
def givenList (encode : Item → Json) (items : List Item) : Option Json :=
  if items.isEmpty then none else some (.array (items.map encode))

@[simp]
theorem givenMembers_cons_givenList (items : List Item) :
    givenMembers ((key, givenList encode items) :: fields) =
      listMember key encode items ++ givenMembers fields := by
  cases items <;> rfl

theorem defaulted?_givenList {item? : Json → Option Item} {sound : Item → Prop}
    (restores : Restores item? encode sound) (items found : List Item) :
    Json.defaulted? (Json.asList? item?) [] (givenList encode items) = some found ↔
      (∀ item ∈ items, sound item) ∧ items = found := by
  refine Json.defaulted?_unless (Json.restores_asList? restores) (fun omitted => ?_) found
  rw [List.isEmpty_iff] at omitted
  subst omitted
  exact ⟨nofun, rfl⟩

end Members

namespace CallableRef

theorem toJson_ne_null (callable : CallableRef) : callable.toJson ≠ .null := by
  cases callable <;> exact nofun

theorem restores_toJson : Restores ofJson? toJson fun _ => True :=
  restores_of_eq fun callable => by cases callable <;> rfl

end CallableRef

theorem TypeRef.restores_toJson : Restores ofJson? toJson fun _ => True :=
  restores_of_eq fun type => by induction type <;> simp_all [toJson, ofJson?]

namespace DefaultValue

mutual

/-- Whether no number in a default value is infinite. -/
def isFinite : DefaultValue → Bool
  | .float value => value.finite?.isSome
  | .list items => isFiniteEach items
  | _ => true

/-- Whether all floats in some defaults are finite. -/
def isFiniteEach : List DefaultValue → Bool
  | [] => true
  | value :: rest => value.isFinite && isFiniteEach rest

end

theorem toJson_ne_null (value : DefaultValue) : value.toJson ≠ .null := by
  cases value <;> exact nofun

theorem ofJson?_toJson_list (items : List DefaultValue) :
    ofJson? (DefaultValue.list items).toJson = (ofJsonEach? (toJsonEach items)).map .list := by
  have read : ofJson? (DefaultValue.list items).toJson =
      (ofJsonEach? (toJsonEach items)).bind fun items => some (.list items) := rfl
  rw [read, Option.map_eq_bind]
  rfl

theorem ofJson?_toJson_int (value : Int64) :
    ofJson? (DefaultValue.int value).toJson = some (.int value) := by
  have read : ofJson? (DefaultValue.int value).toJson = (Json.ofInt64 value).asInt64?.map .int :=
    rfl
  rw [read, Json.asInt64?_ofInt64, Option.map_some]

mutual

/-- A default value is decoded as itself exactly if it is finite. -/
theorem restores_toJson : (value found : DefaultValue) →
    (ofJson? value.toJson = some found ↔ value.isFinite = true ∧ value = found)
  | .string _, _ => eq_some_iff_of_eq_some rfl rfl
  | .int number, _ => eq_some_iff_of_eq_some rfl (ofJson?_toJson_int number)
  | .float (.finite _), _ => eq_some_iff_of_eq_some rfl rfl
  | .float (.infinite _), _ => iff_of_false nofun nofun
  | .boolean _, _ => eq_some_iff_of_eq_some rfl rfl
  | .null, _ => eq_some_iff_of_eq_some rfl rfl
  | .enum _, _ => eq_some_iff_of_eq_some rfl rfl
  | .list items, found => by
      rw [ofJson?_toJson_list, Option.map_eq_some_iff, isFinite]
      constructor
      · rintro ⟨others, decoded, rfl⟩
        rcases (restores_toJsonEach items others).mp decoded with ⟨finite, rfl⟩
        exact ⟨finite, rfl⟩
      · rintro ⟨finite, rfl⟩
        exact ⟨items, (restores_toJsonEach items items).mpr ⟨finite, rfl⟩, rfl⟩

theorem restores_toJsonEach : (items found : List DefaultValue) →
    (ofJsonEach? (toJsonEach items) = some found ↔ isFiniteEach items = true ∧ items = found)
  | [], _ => eq_some_iff_of_eq_some rfl rfl
  | value :: rest, found => by
      simp only [toJsonEach, ofJsonEach?, Option.bind_eq_bind, Option.bind_eq_some_iff,
        Option.pure_def, Option.some_inj, isFiniteEach, Bool.and_eq_true]
      constructor
      · rintro ⟨first, firstDecoded, others, decoded, rfl⟩
        rcases (restores_toJson value first).mp firstDecoded with ⟨valueFinite, rfl⟩
        rcases (restores_toJsonEach rest others).mp decoded with ⟨restFinite, rfl⟩
        exact ⟨⟨valueFinite, restFinite⟩, rfl⟩
      · rintro ⟨⟨valueFinite, restFinite⟩, rfl⟩
        exact ⟨value, (restores_toJson value value).mpr ⟨valueFinite, rfl⟩, rest,
          (restores_toJsonEach rest rest).mpr ⟨restFinite, rfl⟩, rfl⟩

end

end DefaultValue

namespace DirectiveInvocation

/-- The fields of the written form, those that are left out among them. -/
def jsonFields (invocation : DirectiveInvocation) : List (String × Option Json) :=
  [("name", some (.string invocation.name)),
    ("args", if invocation.arguments.entries.isEmpty then none
      else some (.object (invocation.arguments.entries.map fun (name, value) =>
        (name, value.tree))))]

theorem toJson_eq (invocation : DirectiveInvocation) :
    invocation.toJson = .object (givenMembers invocation.jsonFields) := by
  rw [toJson, jsonFields]
  simp only [List.isEmpty_map, givenMembers_cons_some]
  split <;> rfl

theorem restores_toJson : Restores ofJson? toJson fun _ => True := by
  intro invocation found
  have given : Json.fields? ["name", "args"] invocation.toJson =
      some (invocation.jsonFields.map Prod.snd) :=
    Json.fields?_of_eq invocation.toJson_eq rfl (by decide)
  have arguments : ∀ found, Json.defaulted?
      (Json.asMap? fun value => some (SortedJson.ofJson value)) .empty
      (if invocation.arguments.entries.isEmpty then none
        else some (.object (invocation.arguments.entries.map fun (name, value) =>
          (name, value.tree)))) = some found ↔ True ∧ invocation.arguments = found := by
    intro found
    have value : Restores (fun value => some (SortedJson.ofJson value)) SortedJson.tree
        fun _ => True := restores_of_eq fun value => congrArg some value.ofJson_tree
    have empty : invocation.arguments.entries.isEmpty = true →
        (∀ entry ∈ invocation.arguments.entries, True) ∧ invocation.arguments = .empty :=
      fun omitted => ⟨fun _ _ => trivial, OrderedMap.ext (List.isEmpty_iff.mp omitted)⟩
    rw [Json.defaulted?_unless (Json.restores_asMap? value) empty]
    simp
  rw [ofJson?, given]
  simp only [jsonFields, List.map_cons, List.map_nil, Option.bind_eq_bind, Option.bind_some,
    Option.bind_eq_some_iff, Option.pure_def, Option.some_inj, arguments,
    Json.required?_some Json.restores_asString?]
  simp

end DirectiveInvocation

namespace ArgumentDescriptor

/-- The fields of the written form of an argument, those that are left out among them. -/
def jsonFields (argument : ArgumentDescriptor) : List (String × Option Json) :=
  [("name", some (.string argument.name)), ("type", some argument.type.toJson),
    ("description", argument.description.map .string),
    ("default_value", argument.default.map DefaultValue.toJson)]

theorem toJson_eq (argument : ArgumentDescriptor) :
    argument.toJson = .object (givenMembers argument.jsonFields) := by
  simp [toJson, jsonFields]

theorem restores_toJson :
    Restores ofJson? toJson fun argument => ∀ value ∈ argument.default, value.isFinite := by
  intro argument found
  have given : Json.fields? ["name", "type", "description", "default_value"] argument.toJson =
      some (argument.jsonFields.map Prod.snd) :=
    Json.fields?_of_eq argument.toJson_eq rfl (by decide)
  have description := Json.optional?_map Json.restores_asString? nofun argument.description
  have default := Json.optional?_map DefaultValue.restores_toJson DefaultValue.toJson_ne_null
    argument.default
  rw [ofJson?, given]
  simp only [jsonFields, List.map_cons, List.map_nil, Option.bind_eq_bind, Option.bind_some,
    Option.bind_eq_some_iff, Option.pure_def, Option.some_inj, description, default,
    Json.required?_some Json.restores_asString?, Json.required?_some TypeRef.restores_toJson]
  simp

end ArgumentDescriptor

namespace FieldDescriptor

/-- The default values of the field and of its arguments. -/
def defaults (field : FieldDescriptor) : List DefaultValue :=
  field.default.toList ++ field.arguments.filterMap ArgumentDescriptor.default

theorem forall_mem_defaults_iff {field : FieldDescriptor} {holds : DefaultValue → Prop} :
    (∀ value ∈ field.defaults, holds value) ↔
      (∀ value ∈ field.default, holds value) ∧
        ∀ argument ∈ field.arguments, ∀ value ∈ argument.default, holds value := by
  simp only [defaults, List.forall_mem_append, Option.mem_toList, List.forall_mem_filterMap]
  rfl

/-- The fields of the written form of a field, those that are left out among them. -/
def jsonFields (field : FieldDescriptor) : List (String × Option Json) :=
  [("name", some (.string field.name)), ("type", some field.type.toJson),
    ("description", field.description.map .string),
    ("default_value", field.default.map DefaultValue.toJson),
    ("resolver", field.resolver.map CallableRef.toJson),
    ("directives", givenList DirectiveInvocation.toJson field.directives),
    ("arguments", givenList ArgumentDescriptor.toJson field.arguments)]

theorem toJson_eq (field : FieldDescriptor) :
    field.toJson = .object (givenMembers field.jsonFields) := by
  simp [toJson, jsonFields]

theorem restores_toJson :
    Restores ofJson? toJson fun field => ∀ value ∈ field.defaults, value.isFinite := by
  intro field found
  have given : Json.fields? ["name", "type", "description", "default_value", "resolver",
      "directives", "arguments"] field.toJson = some (field.jsonFields.map Prod.snd) :=
    Json.fields?_of_eq field.toJson_eq rfl (by decide)
  have description := Json.optional?_map Json.restores_asString? nofun field.description
  have default := Json.optional?_map DefaultValue.restores_toJson DefaultValue.toJson_ne_null
    field.default
  have resolver := Json.optional?_map CallableRef.restores_toJson CallableRef.toJson_ne_null
    field.resolver
  have directives := defaulted?_givenList DirectiveInvocation.restores_toJson field.directives
  have arguments := defaulted?_givenList ArgumentDescriptor.restores_toJson field.arguments
  rw [ofJson?, given]
  simp only [forall_mem_defaults_iff, jsonFields, List.map_cons, List.map_nil,
    Option.bind_eq_bind, Option.bind_some, Option.bind_eq_some_iff, Option.pure_def,
    Option.some_inj, description, default, resolver, directives, arguments,
    Json.required?_some Json.restores_asString?, Json.required?_some TypeRef.restores_toJson]
  simp [and_assoc]

end FieldDescriptor

namespace TypeDescriptor.Body

/-- The default values in the fields. -/
def defaults (body : Body) : List DefaultValue := body.fields.flatMap FieldDescriptor.defaults

theorem forall_mem_defaults_iff {body : Body} {holds : DefaultValue → Prop} :
    (∀ value ∈ body.defaults, holds value) ↔
      ∀ field ∈ body.fields, ∀ value ∈ field.defaults, holds value := by
  rw [defaults, List.forall_mem_flatMap]

/-- The fields of the written form besides the kind. -/
def jsonFields : Body → List (String × Option Json)
  | .scalar serialize parseValue parseLiteral =>
      [("serialize", some serialize.toJson), ("parse_value", some parseValue.toJson),
        ("parse_literal", some parseLiteral.toJson)]
  | .object fields fieldResolver interfaces =>
      [("fields", some (.array (fields.map FieldDescriptor.toJson))),
        ("field_resolver", fieldResolver.map CallableRef.toJson),
        ("interfaces", givenList .string interfaces)]
  | .input fields parseValue =>
      [("fields", some (.array (fields.map FieldDescriptor.toJson))),
        ("parse_value", parseValue.map CallableRef.toJson)]
  | .enum values =>
      [("values", some (.object (values.entries.map fun (name, value) =>
        (name, .string value))))]
  | .interface fields typeResolver =>
      [("fields", some (.array (fields.map FieldDescriptor.toJson))),
        ("type_resolver", typeResolver.map CallableRef.toJson)]
  | .union members typeResolver =>
      [("members", some (.array (members.map .string))),
        ("type_resolver", some typeResolver.toJson)]

theorem toMembers_eq (body : Body) :
    body.toMembers = givenMembers (("kind", some (.string body.kind.text)) :: body.jsonFields) := by
  cases body <;> simp [toMembers, jsonFields, kind, TypeKind.text]

/-- What is said about a type is decoded from any record that has its fields. -/
theorem ofRecord?_givenMembers {fields : List (String × Option Json)}
    (distinct : (fields.map Prod.fst).Nodup) (body found : Body)
    (within : ∀ field ∈ body.jsonFields, field ∈ fields) :
    ofRecord? body.kind.text (.object (givenMembers fields)) = some found ↔
      (∀ value ∈ body.defaults, value.isFinite) ∧ body = found := by
  have given := Json.fields?_givenMembers distinct within
  have callable := Json.required?_some CallableRef.restores_toJson
  have optionalCallable := Json.optional?_map CallableRef.restores_toJson
    CallableRef.toJson_ne_null
  have fields := Json.required?_some (Json.restores_asList? FieldDescriptor.restores_toJson)
  have strings := Json.required?_some (Json.restores_asList? Json.restores_asString?)
  have optionalStrings := defaulted?_givenList Json.restores_asString?
  have values := Json.required?_some (Json.restores_asMap? Json.restores_asString?)
  rw [forall_mem_defaults_iff]
  cases body
  all_goals
    simp only [jsonFields, List.map_cons, List.map_nil] at given
    simp only [kind, TypeKind.text, ofRecord?, given, Option.bind_eq_bind, Option.bind_some,
      Option.bind_eq_some_iff, Option.pure_def, Option.some_inj, callable, optionalCallable,
      fields, strings, optionalStrings, values]
    simp [Body.fields]

theorem key_ne_kind (body : Body) : ∀ field ∈ body.jsonFields, field.1 ≠ "kind" := by
  cases body <;> simp [jsonFields]

end TypeDescriptor.Body

namespace TypeDescriptor

/-- The default values in the fields. -/
def defaults (descriptor : TypeDescriptor) : List DefaultValue := descriptor.body.defaults

/-- The fields of the written form of a type, those of its body last. -/
def jsonFields (descriptor : TypeDescriptor) : List (String × Option Json) :=
  [("name", some (.string descriptor.name)),
    ("description", descriptor.description.map .string),
    ("source_module", some (.string descriptor.sourceModule)),
    ("directives", givenList DirectiveInvocation.toJson descriptor.directives),
    ("kind", some (.string descriptor.kind.text))] ++ descriptor.body.jsonFields

theorem toJson_eq (descriptor : TypeDescriptor) :
    descriptor.toJson = .object (givenMembers descriptor.jsonFields) := by
  simp [toJson, jsonFields, Body.toMembers_eq, kind]

theorem nodup_jsonFields (descriptor : TypeDescriptor) :
    (descriptor.jsonFields.map Prod.fst).Nodup := by
  rcases descriptor with ⟨name, description, sourceModule, directives, body⟩
  cases body <;> simp [jsonFields, Body.jsonFields]

theorem restores_toJson :
    Restores ofJson? toJson fun descriptor => ∀ value ∈ descriptor.defaults, value.isFinite := by
  intro descriptor found
  have distinct := descriptor.nodup_jsonFields
  have variant : Json.variant? (.object (givenMembers descriptor.jsonFields)) = some
      (descriptor.kind.text,
        .object (givenMembers (descriptor.jsonFields.filter (·.1 != "kind")))) :=
    Json.variant?_givenMembers distinct (by simp [jsonFields])
  have given : Json.fields? ["name", "description", "source_module", "directives"]
      (.object (givenMembers descriptor.jsonFields)) =
        some [some (.string descriptor.name), descriptor.description.map .string,
          some (.string descriptor.sourceModule),
          givenList DirectiveInvocation.toJson descriptor.directives] :=
    Json.fields?_givenMembers distinct
      fun field (field_mem : field ∈ descriptor.jsonFields.take 4) =>
        List.mem_of_mem_take field_mem
  have body : ∀ found, Body.ofRecord? descriptor.kind.text
      (.object (givenMembers (descriptor.jsonFields.filter (·.1 != "kind")))) = some found ↔
        (∀ value ∈ descriptor.defaults, value.isFinite) ∧ descriptor.body = found := by
    intro found
    refine Body.ofRecord?_givenMembers (distinct.sublist (List.filter_sublist.map _)) _ found ?_
    intro field field_mem
    rw [List.mem_filter]
    exact ⟨List.mem_append_right _ field_mem,
      by simpa using descriptor.body.key_ne_kind field field_mem⟩
  have description := Json.optional?_map Json.restores_asString? nofun descriptor.description
  have directives := defaulted?_givenList DirectiveInvocation.restores_toJson
    descriptor.directives
  rw [toJson_eq, ofJson?, variant]
  simp only [given, Option.bind_eq_bind, Option.bind_some, Option.bind_eq_some_iff,
    Option.pure_def, Option.some_inj, description, directives, body,
    Json.required?_some Json.restores_asString?]
  simp

end TypeDescriptor

namespace DescriptorTable

/-- The default values in all fields. -/
def defaults (table : DescriptorTable) : List DefaultValue :=
  table.types.entries.flatMap fun (_, partials) => partials.flatMap TypeDescriptor.defaults

theorem forall_mem_defaults_iff {table : DescriptorTable} {holds : DefaultValue → Prop} :
    (∀ value ∈ table.defaults, holds value) ↔
      ∀ entry ∈ table.types.entries, ∀ descriptor ∈ entry.2, ∀ value ∈ descriptor.defaults,
        holds value := by
  simp only [defaults, List.forall_mem_flatMap]

/-- The fields of the written form of a table. -/
def jsonFields (table : DescriptorTable) : List (String × Option Json) :=
  [("module", some (.string table.module)),
    ("types", some (.object (table.types.entries.map fun (name, partials) =>
      (name, .array (partials.map TypeDescriptor.toJson)))))]

theorem toJson_eq (table : DescriptorTable) :
    table.toJson = .object (givenMembers table.jsonFields) := rfl

/-- A table is decoded as it was exactly if all its default values are finite. -/
theorem restores_toJson :
    Restores ofJson? toJson fun table => ∀ value ∈ table.defaults, value.isFinite := by
  intro table found
  have given : Json.fields? ["module", "types"] table.toJson =
      some (table.jsonFields.map Prod.snd) :=
    Json.fields?_of_eq table.toJson_eq rfl (by decide)
  have types := Json.required?_some (Json.restores_asMap? (Json.restores_asList?
    TypeDescriptor.restores_toJson)) table.types
  rw [ofJson?, given]
  simp only [forall_mem_defaults_iff, jsonFields, List.map_cons, List.map_nil,
    Option.bind_eq_bind, Option.bind_some, Option.bind_eq_some_iff, Option.pure_def,
    Option.some_inj, types, Json.required?_some Json.restores_asString?]
  simp

/-- The artifact of a table is read back exactly if its default values are finite and it does not
nest too deep, given that its floating point numbers are read back. -/
theorem ofArtifact?_artifact_eq_some_iff {table : DescriptorTable}
    (exact : ∀ number ∈ table.toJson.floats, number.IsReadBack) (found : DescriptorTable) :
    ofArtifact? table.artifact = some found ↔
      (∀ value ∈ table.defaults, value.isFinite) ∧
        table.toJson.depth ≤ JsonReading.depthLimit ∧ table = found := by
  rw [ofArtifact?, artifact, Json.ofText?_prettyText exact, Option.bind_eq_some_iff]
  simp only [Option.guard_eq_some_iff, decide_eq_true_iff]
  constructor
  · rintro ⟨_, ⟨rfl, shallow⟩, decoded⟩
    rcases (restores_toJson table found).mp decoded with ⟨finite, same⟩
    exact ⟨finite, shallow, same⟩
  · rintro ⟨finite, shallow, rfl⟩
    exact ⟨table.toJson, ⟨rfl, shallow⟩, restores_toJson.eq_some finite⟩

end DescriptorTable

end WiredGraph
