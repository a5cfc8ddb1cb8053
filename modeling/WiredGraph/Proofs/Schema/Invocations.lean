import WiredGraph.Proofs.Schema.Partition

/-!
# Directives that are handed on to the runtime

Every directive on a field that has none of the five wiring names is handed on to the runtime, in
the order in which they are written. Only two of these names wire a field. A directive on a field
that has one of the other three neither wires anything nor is handed on, so that a field keeps all
directives that do not wire it exactly if it has no such directive.
-/

namespace WiredGraph

/-- How a directive is handed on: it has each of its arguments once, at the place where the argument
is first given and with the value that is given last. -/
structure Directive.InvokedAs (directive : Directive) (invocation : DirectiveInvocation) :
    Prop where
  name : invocation.name = directive.name.text
  arguments : Distinct.FirstOccurrences (directive.arguments.map (·.name.text))
    invocation.arguments.keys
  values : ∀ {before argument after}, directive.arguments = before ++ argument :: after →
    argument.name.text ∉ after.map (·.name.text) →
      invocation.arguments.get? argument.name.text = some (.ofJson argument.value.freeForm)

theorem Directive.invokedAs_ofDirective (directive : Directive) :
    directive.InvokedAs (.ofDirective directive) where
  name := rfl
  arguments := by
    rw [DirectiveInvocation.ofDirective, OrderedMap.keys_ofList, List.map_map]
    exact Distinct.firstOccurrences_eraseDups _
  values := by
    intro before argument after given last
    rw [DirectiveInvocation.ofDirective, given, List.map_append, List.map_cons]
    exact OrderedMap.get?_ofList_of_last (by rwa [List.map_map])

namespace WiringDirectives

variable {wiring : WiringDirectives} {declared : List Directive}
  {invocations : List DirectiveInvocation}

/-- The names of the directives that wire whole types, but no fields. -/
def typeNames (wiring : WiringDirectives) : List String :=
  [wiring.scalar, wiring.typeResolver, wiring.inputValidator]

theorem mem_names_iff {name : String} :
    name ∈ wiring.names ↔ wiring.isFieldWiring name = true ∨ name ∈ wiring.typeNames := by
  simp [names, isFieldWiring, typeNames, or_assoc]

/-- What of the directives on a field is handed on. -/
structure HandsOn (wiring : WiringDirectives) (declared : List Directive)
    (invocations : List DirectiveInvocation) : Prop where
  /-- All directives without a wiring name are handed on, in order. -/
  kept : List.Forall₂ Directive.InvokedAs
    (declared.filter fun directive => directive.name.text ∉ wiring.names) invocations
  /-- They are all that do not wire the field if no directive has a name that wires only types. -/
  complete_iff : List.Forall₂ Directive.InvokedAs
      (declared.filter fun directive => !wiring.isFieldWiring directive.name.text) invocations ↔
    ∀ directive ∈ declared, directive.name.text ∈ wiring.typeNames →
      wiring.isFieldWiring directive.name.text = true

/-- The directives that are not consumed are those that wire neither the field nor a type. -/
theorem filter_not_mem_names :
    (declared.filter fun directive => directive.name.text ∉ wiring.names) =
      (declared.filter fun directive => !wiring.isFieldWiring directive.name.text).filter
        fun directive => directive.name.text ∉ wiring.typeNames := by
  rw [List.filter_filter]
  refine List.filter_congr fun directive _ => ?_
  simp only [mem_names_iff, not_or, Bool.not_eq_true]
  cases wiring.isFieldWiring directive.name.text <;> simp

/-- If nothing is lost, no directive can have been taken out for the name of another wiring. -/
theorem handsOn_remaining (wiring : WiringDirectives) (declared : List Directive) :
    wiring.HandsOn declared (wiring.remaining declared) := by
  have kept : List.Forall₂ Directive.InvokedAs
      (declared.filter fun directive => directive.name.text ∉ wiring.names)
      (wiring.remaining declared) := by
    rw [remaining, List.forall₂_map_right_iff, List.forall₂_same]
    exact fun directive _ => directive.invokedAs_ofDirective
  refine ⟨kept, ?_, ?_⟩
  · intro complete directive directive_mem onType
    have sameLength := complete.length_eq.trans kept.length_eq.symm
    rw [filter_not_mem_names, eq_comm, List.length_filter_eq_length_iff] at sameLength
    by_contra noWiring
    have present : directive ∈
        declared.filter fun directive => !wiring.isFieldWiring directive.name.text :=
      List.mem_filter.mpr ⟨directive_mem, by simpa using noWiring⟩
    exact of_decide_eq_true (sameLength directive present) onType
  · intro wires
    have nothingLost : ∀ directive ∈
        declared.filter fun directive => !wiring.isFieldWiring directive.name.text,
        decide (directive.name.text ∉ wiring.typeNames) = true := by
      intro directive directive_mem
      rw [List.mem_filter, Bool.not_eq_true'] at directive_mem
      rw [decide_eq_true_eq]
      intro onType
      exact absurd (wires directive directive_mem.1 onType) (by simp [directive_mem.2])
    rwa [filter_not_mem_names, List.filter_eq_self.mpr nothingLost] at kept

end WiringDirectives

namespace SchemaCompiler

variable {settings : Settings} {files : List SourceFile} {tables : List DescriptorTable}

/-- How tables hand on the directives of the fields that some sources declare. -/
structure HandsOnDirectives (settings : Settings) (files : List SourceFile)
    (tables : List DescriptorTable) : Prop where
  /-- There are only types in the tables that are declared. -/
  declared : ∀ table ∈ tables, ∀ name ∈ table.types.keys,
    ∃ type ∈ types settings files, type.name = name
  /-- All tables together have one descriptor of every field, with what is handed on of its
  directives. -/
  fields : ∀ type ∈ types settings files, ∃ descriptors,
    List.Forall₂ (fun declaration descriptor => descriptor.name = declaration.name.text ∧
        settings.wiring.HandsOn declaration.directives descriptor.directives)
      type.declarations descriptors ∧
    (descriptors.map FieldDescriptor.name).Nodup ∧
    (tables.flatMap (·.fieldsOf type.name)).Perm descriptors

/-- Compiling schema documents hands on the directives of fields, except those with wiring names. -/
theorem handsOnDirectives_of_compile (compiles : compile settings files = .ok tables) :
    HandsOnDirectives settings files tables where
  declared := by
    intro table table_mem name name_mem
    rw [(describes_of_mem compiles table_mem).2.keys] at name_mem
    rcases List.mem_map.mp name_mem with ⟨type, type_mem, rfl⟩
    exact ⟨type, (mem_typesIn.mp type_mem).1, rfl⟩
  fields := by
    intro type type_mem
    rcases exists_descriptors_of_compile compiles type_mem with
      ⟨descriptors, described, distinct, divided⟩
    refine ⟨descriptors, described.imp fun declaration descriptor here => ?_, distinct, divided⟩
    exact ⟨here.name, here.directives ▸ WiringDirectives.handsOn_remaining _ _⟩

/-- A field with a directive that gives an argument twice, and one that would wire a type. -/
def guardedTitle : List SourceFile :=
  [⟨"posts.graphql",
    "type Post \x7b title: String @auth(role: USER, level: 1, role: ADMIN) @t @trim \x7d", 1⟩]

/-- The names and the argument names of what is handed on for the fields of the type. -/
def invokedOnPost (tables : List DescriptorTable) : List (String × List String) :=
  ((tables.flatMap (·.fieldsOf "Post")).flatMap (·.directives)).map fun invocation =>
    (invocation.name, invocation.arguments.keys)

theorem handsOnDirectives_of_compile_guardedTitle :
    ∃ tables, compile .standard guardedTitle = .ok tables ∧
      invokedOnPost tables = [("auth", ["role", "level"]), ("trim", [])] ∧
      HandsOnDirectives .standard guardedTitle tables := by
  have succeeds : (match compile .standard guardedTitle with
      | .ok tables => decide (invokedOnPost tables = [("auth", ["role", "level"]), ("trim", [])])
      | .error _ => false) = true := by decide +kernel
  split at succeeds
  · next tables compiles =>
      exact ⟨tables, compiles, of_decide_eq_true succeeds, handsOnDirectives_of_compile compiles⟩
  · cases succeeds

end SchemaCompiler

end WiredGraph
