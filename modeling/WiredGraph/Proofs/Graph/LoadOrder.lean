import Mathlib.Data.List.Forall2
import WiredGraph.Proofs.Graph.Lookup
import WiredGraph.Proofs.Schema.Partition

/-!
# Loading compiled tables in any order

The compiler gives every partial of a type the same description, directives, interfaces and wiring,
and divides the fields among them. So the graph can merge the partials of a compiled schema in
whatever order the tables are loaded: only the order of the fields depends on it, and what can still
go wrong is that a reference is not bound.
-/

namespace WiredGraph

variable {World : Type}

namespace TypeGraph

/-- What comes of a type that is the first one to be asked for after tables were loaded. -/
def firstLookUp (tables : List DescriptorTable) (bindings : Bindings World)
    (registry : HandlerRegistry World) (roots : RootNames) (name : String) : Realized World :=
  ((ofDescriptors (.ofTables tables) bindings registry roots).lookUp name).1

/-- A type that was not asked for before is created. -/
theorem lookUp_new {graph : TypeGraph World} {name : String}
    (notBuiltin : ∀ builtin ∈ TypeNode.builtinNames,
      Ascii.foldCase builtin ≠ Ascii.foldCase name)
    (known : graph.descriptors.partials name ≠ [])
    (new : graph.slots.get? (Ascii.foldCase name) = none) :
    (graph.lookUp name).1 = graph.create name := by
  have someThere : (graph.descriptors.partials name).isEmpty = false := by
    rwa [List.isEmpty_eq_false_iff]
  rw [lookUp]
  simp only [TypeNode.builtin?_eq_none notBuiltin, someThere, Bool.false_eq_true, if_false, new]

/-- If the partials that were loaded can be merged, the first type is what they agree on, with the
fields of all tables. -/
theorem firstLookUp_eq {tables : List DescriptorTable} {name : String} {shared : TypeDescriptor}
    (notBuiltin : ∀ builtin ∈ TypeNode.builtinNames,
      Ascii.foldCase builtin ≠ Ascii.foldCase name)
    (mergeable : shared.Mergeable (tables.flatMap (·.partialsOf name))) (bindings : Bindings World)
    (registry : HandlerRegistry World) (roots : RootNames) :
    firstLookUp tables bindings registry roots name =
      shared.realize bindings TypeNode.builtinNames.length
        (tables.flatMap (·.fieldsOf name)) := by
  have partials := DescriptorSet.partials_ofTables mergeable.nonempty
  have fields : (tables.flatMap (·.partialsOf name)).flatMap (·.body.fields) =
      tables.flatMap (·.fieldsOf name) := List.flatMap_assoc
  rw [← fields, ← TypeNode.ofPartials_eq mergeable bindings _ name, firstLookUp,
    lookUp_new notBuiltin (partials ▸ mergeable.nonempty) rfl, create, ← partials]
  rfl

end TypeGraph

namespace DeclaredType

variable {settings : Settings} {type : DeclaredType}

/-- What is said about a type depends on nothing else than its fields. -/
theorem HasBody.withFields_eq {fields others : List FieldDescriptor}
    {body other : TypeDescriptor.Body} (hasBody : type.HasBody settings fields body)
    (also : type.HasBody settings others other) : body.withFields [] = other.withFields [] := by
  cases hasBody with
  | object kind wires =>
      rcases (HasBody.object_iff kind).mp also with ⟨_, alsoWires, rfl⟩
      obtain rfl := wires.unique alsoWires
      rfl
  | scalar kind first given =>
      obtain rfl := also.eq_nil (.inl kind)
      rcases (HasBody.scalar_iff kind).mp also with ⟨_, _, alsoFirst, alsoGiven, -, rfl⟩
      cases first.symm.trans alsoFirst
      cases given.symm.trans alsoGiven
      rfl
  | input kind wires =>
      rcases (HasBody.input_iff kind).mp also with ⟨_, alsoWires, rfl⟩
      obtain rfl := wires.unique alsoWires
      rfl
  | enum kind =>
      obtain rfl := also.eq_nil (.inr (.inl kind))
      rw [(HasBody.enum_iff kind).mp also]
  | interface kind wires =>
      rcases (HasBody.interface_iff kind).mp also with ⟨_, alsoWires, -, rfl⟩
      obtain rfl := wires.unique alsoWires
      rfl
  | union kind wires =>
      obtain rfl := also.eq_nil (.inr (.inr kind))
      rcases (HasBody.union_iff kind).mp also with ⟨_, alsoWires, rfl⟩
      cases wires.unique alsoWires
      rfl

/-- The descriptors of a type in two modules agree. -/
theorem DescribedBy.agreesWith {module otherModule : String} {descriptor other : TypeDescriptor}
    (described : type.DescribedBy settings module descriptor)
    (also : type.DescribedBy settings otherModule other) : descriptor.AgreesWith other where
  name := described.name.trans also.name.symm
  description := described.description.trans also.description.symm
  directives := described.directives.trans also.directives.symm
  body := described.body.withFields_eq also.body

end DeclaredType

namespace SchemaCompiler

variable {settings : Settings} {files : List SourceFile} {tables : List DescriptorTable}
  {type : DeclaredType}

theorem describedBy_of_mem_partialsOf (compiles : compile settings files = .ok tables)
    (type_mem : type ∈ types settings files) {table : DescriptorTable} (table_mem : table ∈ tables)
    {descriptor : TypeDescriptor} (descriptor_mem : descriptor ∈ table.partialsOf type.name) :
    type.DescribedBy settings table.module descriptor := by
  have declares := (compile_eq_ok_iff.mp compiles).1
  rcases (describes_of_mem compiles table_mem).2.partialsOf_eq declares type_mem with
    ⟨-, single, only, described⟩ | ⟨-, nothing⟩
  · rw [only, List.mem_singleton] at descriptor_mem
    exact descriptor_mem ▸ described
  · rw [nothing] at descriptor_mem
    nomatch descriptor_mem

/-- In whatever order the tables of a compiled schema are, their partials of a type can be merged
into one descriptor of it. -/
theorem exists_mergeable_of_compile (compiles : compile settings files = .ok tables)
    (type_mem : type ∈ types settings files) :
    ∃ shared, type.DescribedBy settings type.base.source.module shared ∧
      ∀ order : List DescriptorTable, order.Perm tables →
        shared.Mergeable (order.flatMap (·.partialsOf type.name)) := by
  rcases exists_owner_of_compile compiles type_mem with
    ⟨owner, owner_mem, owns, shared, single, described⟩
  refine ⟨shared, owns ▸ described, fun order permuted => ⟨?_, ?_, fun notObject => ?_⟩⟩
  · have shared_mem : shared ∈ owner.partialsOf type.name := by
      rw [single]
      exact List.mem_singleton_self shared
    exact List.ne_nil_of_mem
      (List.mem_flatMap.mpr ⟨owner, permuted.mem_iff.mpr owner_mem, shared_mem⟩)
  · intro descriptor descriptor_mem
    rcases List.mem_flatMap.mp descriptor_mem with ⟨table, table_mem, here⟩
    exact (describedBy_of_mem_partialsOf compiles type_mem (permuted.mem_iff.mp table_mem)
      here).agreesWith described
  · have kind : type.kind ≠ .object := by
      rw [← described.body.kind]
      exact notObject
    rcases exists_single_of_compile compiles type_mem kind with ⟨descriptor, only, -⟩
    have partials := permuted.flatMap_right (DescriptorTable.partialsOf · type.name)
    rw [only] at partials
    exact ⟨descriptor, List.perm_singleton.mp partials⟩

theorem partials_ne_nil_of_compile (compiles : compile settings files = .ok tables)
    (type_mem : type ∈ types settings files) {order : List DescriptorTable}
    (loaded : order.Perm tables) : (DescriptorSet.ofTables order).partials type.name ≠ [] := by
  rcases exists_mergeable_of_compile compiles type_mem with ⟨shared, -, mergeable⟩
  rw [DescriptorSet.partials_ofTables (mergeable order loaded).nonempty]
  exact (mergeable order loaded).nonempty

end SchemaCompiler

namespace TypeGraph

open SchemaCompiler (compile types)

/-- How the graph realizes a declared type from compiled tables. -/
structure Realizes (settings : Settings) (type : DeclaredType) (tables : List DescriptorTable)
    (bindings : Bindings World) (realized : Realized World) : Prop where
  /-- The partials agree on the kind of type. -/
  agrees : ∀ typeName first second, realized ≠ .error (.kindMismatch typeName first second)
  /-- There is a node exactly if everything that the partials refer to is bound. -/
  bound : (∃ node, realized = .ok node) ↔ ∀ table ∈ tables,
    ∀ descriptor ∈ table.partialsOf type.name, descriptor.body.IsBound bindings
  /-- The node is what was declared. -/
  node : ∀ node, realized = .ok node →
    node.name = type.name ∧ node.kind.typeKind = type.kind ∧
      node.description = type.base.definition.description.map Description.text ∧
      node.directives = settings.wiring.remaining type.directives
  /-- The node has exactly the fields of the type, as they were compiled. -/
  fields : ∀ node, realized = .ok node → ∃ fields descriptors, node.fields = .ok fields ∧
    List.Forall₂ (FieldDeclaration.DescribedBy settings) type.declarations descriptors ∧
    (tables.flatMap (·.fieldsOf type.name)).Perm descriptors ∧
    fields.values.Perm descriptors ∧
    ∀ descriptor ∈ descriptors, fields.get? descriptor.name = some descriptor

variable {settings : Settings} {files : List SourceFile} {tables : List DescriptorTable}
  {type : DeclaredType}

/-- Fields that a node contributes are all the fields of its type. -/
theorem contributedFields_eq {shared : TypeDescriptor} {module : String}
    {fields descriptors : List FieldDescriptor} (uniform : type.IsUniform)
    (described : type.DescribedBy settings module shared)
    (declared : List.Forall₂ (FieldDeclaration.DescribedBy settings) type.declarations descriptors)
    (permuted : fields.Perm descriptors) : (shared.body.withFields fields).fields = fields := by
  have fieldless (kind : type.kind = .scalar ∨ type.kind = .enum ∨ type.kind = .union) :
      fields = [] := by
    rw [DeclaredType.declarations_eq_nil uniform kind, List.forall₂_nil_left_iff] at declared
    exact List.perm_nil.mp (declared ▸ permuted)
  rw [← described.body.kind] at fieldless
  cases body : shared.body <;>
    simp_all [TypeDescriptor.Body.withFields, TypeDescriptor.Body.fields,
      TypeDescriptor.Body.kind]

/-- What the partials of a compiled schema make of a declared type, in whatever order the tables
are loaded. -/
theorem realizes_ofPartials (compiles : compile settings files = .ok tables)
    (type_mem : type ∈ types settings files) {order : List DescriptorTable}
    (loaded : order.Perm tables) (bindings : Bindings World) (id : Nat) (name : String) :
    Realizes settings type tables bindings (TypeNode.ofPartials bindings id name
      ((DescriptorSet.ofTables order).partials type.name)) := by
  have uniform := (SchemaCompiler.compile_eq_ok_iff.mp compiles).1.isUniform type_mem
  rcases SchemaCompiler.exists_mergeable_of_compile compiles type_mem with
    ⟨shared, described, mergeable⟩
  rcases SchemaCompiler.exists_descriptors_of_compile compiles type_mem with
    ⟨descriptors, declared, distinct, compiled⟩
  rw [DescriptorSet.partials_ofTables (mergeable order loaded).nonempty,
    TypeNode.ofPartials_eq (mergeable order loaded)]
  have fields : (order.flatMap (·.partialsOf type.name)).flatMap (·.body.fields) =
      order.flatMap (·.fieldsOf type.name) := List.flatMap_assoc
  rw [fields]
  refine ⟨?agrees, ?bound, ?node, ?fields⟩
  case agrees =>
    intro typeName first second mismatched
    exact TypeDescriptor.isUnbound_of_realize mismatched
  case bound =>
    rw [TypeDescriptor.exists_node_iff, (mergeable tables (.refl tables)).isBound_iff]
    exact List.forall_mem_flatMap
  case node =>
    intro node realized
    rcases TypeDescriptor.realize_eq_ok_iff.mp realized with ⟨kind, bodyRealized, rfl⟩
    have ofKind := (TypeDescriptor.Body.of_realize_eq_ok bodyRealized).1
    exact ⟨described.name, ofKind.trans described.body.kind, described.description,
      described.directives⟩
  case fields =>
    intro node realized
    rcases TypeDescriptor.realize_eq_ok_iff.mp realized with ⟨kind, bodyRealized, rfl⟩
    have permuted : (order.flatMap (·.fieldsOf type.name)).Perm descriptors :=
      (loaded.flatMap_right _).trans compiled
    have contributed : kind.contributedFields.Perm descriptors := by
      rw [(TypeDescriptor.Body.of_realize_eq_ok bodyRealized).2,
        contributedFields_eq uniform described declared permuted]
      exact permuted
    rcases TypeNode.exists_fields_of_perm (shared.node _ kind) contributed distinct with
      ⟨fields, merged, values, found⟩
    exact ⟨fields, descriptors, merged, declared, compiled, values, found⟩

/-- The tables of a compiled schema can be loaded in any order. The first type that is asked for is
realized, if its references are bound, with every declared field, and all but the order of the
fields is as if the tables had been loaded in the order of the modules. -/
theorem realizes_of_compile (compiles : compile settings files = .ok tables)
    (type_mem : type ∈ types settings files)
    (notBuiltin : ∀ builtin ∈ TypeNode.builtinNames,
      Ascii.foldCase builtin ≠ Ascii.foldCase type.name)
    {order : List DescriptorTable} (loaded : order.Perm tables) (bindings : Bindings World)
    (registry : HandlerRegistry World) (roots : RootNames) :
    Realizes settings type tables bindings
        (firstLookUp order bindings registry roots type.name) ∧
      (firstLookUp order bindings registry roots type.name).map TypeNode.withoutFields =
        (firstLookUp tables bindings registry roots type.name).map TypeNode.withoutFields := by
  rcases SchemaCompiler.exists_mergeable_of_compile compiles type_mem with
    ⟨shared, described, mergeable⟩
  have described := SchemaCompiler.partials_ne_nil_of_compile compiles type_mem loaded
  constructor
  · rw [firstLookUp, lookUp_new notBuiltin described rfl, create]
    exact realizes_ofPartials compiles type_mem loaded bindings _ _
  · rw [firstLookUp_eq notBuiltin (mergeable order loaded),
      firstLookUp_eq notBuiltin (mergeable tables (.refl tables)),
      TypeDescriptor.map_withoutFields_realize, TypeDescriptor.map_withoutFields_realize]

/-- An object type that is wired to a class, with fields in two modules. -/
def wiredUser : List SourceFile :=
  [⟨"users.graphql", "type User implements Node @f(class: \"Users::class\") \x7b id: ID \x7d", 1⟩,
    ⟨"posts.graphql", "extend type User @live \x7b posts(first: Int = 10): [ID] \x7d", 1⟩]

/-- Bindings with the resolvers of the class, which resolve no field. -/
def userBindings : Bindings Unit :=
  Bindings.empty.bindConstructor "Users" (.resolverMap fun world => (.empty, world))

theorem realizes_of_compile_wiredUser :
    ∃ tables, compile .standard wiredUser = .ok tables ∧ tables.length = 2 ∧
      ∃ type ∈ types .standard wiredUser, type.name = "User" ∧
        (∀ builtin ∈ TypeNode.builtinNames,
          Ascii.foldCase builtin ≠ Ascii.foldCase type.name) ∧
        tables.reverse.Perm tables ∧
        Realizes .standard type tables userBindings
          (firstLookUp tables.reverse userBindings (.ofCatalog .empty) .standard type.name) ∧
        (firstLookUp tables.reverse userBindings (.ofCatalog .empty) .standard type.name).map
            TypeNode.withoutFields =
          (firstLookUp tables userBindings (.ofCatalog .empty) .standard type.name).map
            TypeNode.withoutFields := by
  have succeeds : (match compile .standard wiredUser with
      | .ok tables => decide (tables.length = 2)
      | .error _ => false) = true := by decide +kernel
  have declared : ∃ type ∈ types .standard wiredUser, type.name = "User" := by decide +kernel
  split at succeeds
  · next tables compiles =>
      rcases declared with ⟨type, type_mem, named⟩
      have notBuiltin : ∀ builtin ∈ TypeNode.builtinNames,
          Ascii.foldCase builtin ≠ Ascii.foldCase type.name := by
        rw [named]
        decide +kernel
      have reversed : tables.reverse.Perm tables := List.reverse_perm tables
      exact ⟨tables, compiles, of_decide_eq_true succeeds, type, type_mem, named, notBuiltin,
        reversed, realizes_of_compile compiles type_mem notBuiltin reversed userBindings
          (.ofCatalog .empty) .standard⟩
  · cases succeeds

end TypeGraph

end WiredGraph
