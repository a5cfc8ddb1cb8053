import WiredGraph.Proofs.Graph.LoadOrder
import WiredGraph.Proofs.Graph.Memoization

/-!
# What is served under the name of a declared type

A graph tells names apart without regard to case, and knows the built-in scalars before all other
types. The types of a schema are told apart by their exact names. So what is served under the name
of a declared type is a declared type that it agrees with without regard to case, namely the one
whose name was asked for first, unless it is a built-in scalar.
-/

namespace WiredGraph

variable {World : Type}

namespace SchemaCompiler

variable {settings : Settings} {files : List SourceFile} {tables order : List DescriptorTable}

/-- What compiled tables describe was declared. -/
theorem exists_type_of_mem_keys (compiles : compile settings files = .ok tables)
    (loaded : order.Perm tables) {name : String}
    (name_mem : name ∈ (DescriptorSet.ofTables order).types.keys) :
    ∃ type ∈ types settings files, type.name = name := by
  rcases DescriptorSet.mem_keys_ofTables.mp name_mem with ⟨table, table_mem, here⟩
  have describes := (describes_of_mem compiles (loaded.mem_iff.mp table_mem)).2
  rw [describes.keys, List.mem_map] at here
  rcases here with ⟨type, type_mem, named⟩
  exact ⟨type, (mem_typesIn.mp type_mem).1, named⟩

/-- What was declared is described by compiled tables. -/
theorem name_mem_keys_of_compile (compiles : compile settings files = .ok tables)
    (loaded : order.Perm tables) {type : DeclaredType} (type_mem : type ∈ types settings files) :
    type.name ∈ (DescriptorSet.ofTables order).types.keys := by
  rcases exists_owner_of_compile compiles type_mem with ⟨owner, owner_mem, -, shared, single, -⟩
  apply DescriptorSet.mem_keys_ofTables.mpr
  refine ⟨owner, loaded.mem_iff.mpr owner_mem, ?_⟩
  have isPartial : shared ∈ owner.partialsOf type.name := by simp [single]
  exact DescriptorTable.mem_keys_of_mem_partialsOf isPartial

theorem eq_of_name_eq_of_compile (compiles : compile settings files = .ok tables)
    {type other : DeclaredType} (type_mem : type ∈ types settings files)
    (other_mem : other ∈ types settings files) (same : type.name = other.name) : type = other :=
  (compile_eq_ok_iff.mp compiles).1.eq_of_name_eq type_mem other_mem same

end SchemaCompiler

namespace TypeGraph

open SchemaCompiler (compile types)

variable {settings : Settings} {files : List SourceFile} {tables order : List DescriptorTable}

/-- The partials that are found under a name are those of a declared type, the one that has exactly
that name if there is one. -/
theorem exists_realizes_ofPartials (compiles : compile settings files = .ok tables)
    (loaded : order.Perm tables) {name : String}
    (described : (DescriptorSet.ofTables order).partials name ≠ []) :
    ∃ served ∈ types settings files, Ascii.foldCase served.name = Ascii.foldCase name ∧
      (∀ type ∈ types settings files, type.name = name → served = type) ∧
      ∀ (bindings : Bindings World) (id : Nat), Realizes settings served tables bindings
        (TypeNode.ofPartials bindings id name ((DescriptorSet.ofTables order).partials name)) := by
  rcases DescriptorSet.exists_spelling described with
    ⟨spelled, spelled_mem, agrees, same, preferred⟩
  rcases SchemaCompiler.exists_type_of_mem_keys compiles loaded spelled_mem with
    ⟨served, served_mem, rfl⟩
  refine ⟨served, served_mem, agrees, ?_, ?_⟩
  · intro type type_mem named
    have name_mem := SchemaCompiler.name_mem_keys_of_compile compiles loaded type_mem
    rw [named] at name_mem
    apply SchemaCompiler.eq_of_name_eq_of_compile compiles served_mem type_mem
    rw [preferred name_mem, named]
  · intro bindings id
    rw [same]
    exact realizes_ofPartials compiles served_mem loaded bindings id name

attribute [local irreducible] lookUp TypeNode.builtin? Ascii.foldCase

/-- What a lookup of a type that is no built-in one comes to was made from the partials of the first
name that was asked for. -/
theorem exists_firstAsked {graph : TypeGraph World} {asked : List String}
    (memo : graph.IsMemo asked) {name : String}
    (notBuiltin : (TypeNode.builtin? (Ascii.foldCase name) : Option (TypeNode World)) = none)
    (described : graph.descriptors.partials name ≠ []) :
    ∃ first, firstAsked graph.descriptors (asked ++ [name]) (Ascii.foldCase name) = some first ∧
      ∃ id, TypeNode.ofPartials graph.bindings id first (graph.descriptors.partials first) =
        (graph.lookUp name).1 := by
  have held := ((memo.lookUp name).held _ _ (slot_lookUp notBuiltin described)).2
  rwa [(graph.finds_lookUp name).descriptors_eq, (graph.finds_lookUp name).bindings_eq] at held

/-- Whatever was asked for before, a declared type whose name is not that of a built-in scalar is
served as a declared type that it agrees with without regard to case. It is served as itself if it
is the only one, or if its name was asked for first. -/
theorem serves_of_compile (compiles : compile settings files = .ok tables) {type : DeclaredType}
    (type_mem : type ∈ types settings files) (loaded : order.Perm tables)
    (bindings : Bindings World) (registry : HandlerRegistry World) (roots : RootNames)
    (requests : List (GraphRequest World)) (world : World) :
    let start := ofDescriptors (.ofTables order) bindings registry roots
    let asked := start.namesForAll requests world ++ [type.name]
    let answer := ((start.run requests world).1.lookUp type.name).1
    (∀ builtin, TypeNode.builtin? type.name = some builtin → answer = .ok builtin) ∧
      ((TypeNode.builtin? type.name : Option (TypeNode World)) = none →
        ∃ served ∈ types settings files, Ascii.foldCase served.name = Ascii.foldCase type.name ∧
          Realizes settings served tables bindings answer ∧
          ((∀ other ∈ types settings files,
            Ascii.foldCase other.name = Ascii.foldCase type.name → other = type) →
              served = type) ∧
          ∀ other ∈ types settings files,
            firstAsked (.ofTables order) asked (Ascii.foldCase type.name) = some other.name →
              served = other) := by
  intro start asked answer
  constructor
  · intro builtin found
    rw [← TypeNode.builtin?_foldCase] at found
    exact lookUp_of_builtin found
  · intro notBuiltin
    rw [← TypeNode.builtin?_foldCase] at notBuiltin
    have memo : (start.run requests world).1.IsMemo ([] ++ start.namesForAll requests world) :=
      (isMemo_ofDescriptors _ bindings registry roots).run requests world
    have ofStart : (start.run requests world).1.descriptors = .ofTables order :=
      descriptors_run start requests world
    have bound : (start.run requests world).1.bindings = bindings :=
      bindings_run start requests world
    have described : (DescriptorSet.ofTables order).partials type.name ≠ [] :=
      SchemaCompiler.partials_ne_nil_of_compile compiles type_mem loaded
    rw [← ofStart] at described
    rcases exists_firstAsked memo notBuiltin described with ⟨first, isFirst, id, made⟩
    rw [List.nil_append, ofStart] at isFirst
    rw [ofStart, bound] at made
    rcases foldCase_of_firstAsked isFirst with ⟨agrees, someThere⟩
    rcases exists_realizes_ofPartials compiles loaded someThere with
      ⟨served, served_mem, same, preferred, realizes⟩
    have agrees : Ascii.foldCase served.name = Ascii.foldCase type.name := same.trans agrees
    refine ⟨served, served_mem, agrees, ?realizes, ?only, ?first⟩
    case realizes =>
      have realized := realizes bindings id
      rw [made] at realized
      exact realized
    case only =>
      intro only
      exact only served served_mem agrees
    case first =>
      intro other other_mem asFirst
      apply preferred other other_mem
      exact Option.some.inj (asFirst.symm.trans isFirst)

/-- Two types whose names differ in case only, and a type with the name of a built-in scalar. -/
def clashing : List SourceFile :=
  [⟨"status.graphql", "enum STATUS \x7b ON \x7d type Status \x7b code: Int \x7d", 1⟩,
    ⟨"text.graphql", "type String \x7b length: Int \x7d", 1⟩]

/-- The graph of tables to which nothing is bound. -/
def unbound (tables : List DescriptorTable) : TypeGraph Unit :=
  ofDescriptors (.ofTables tables) .empty (.ofCatalog .empty) .standard

/-- Name and kind of a node. -/
def outline (realized : Realized World) : Option (String × TypeKind) :=
  realized.toOption.map fun node => (node.name, node.kind.typeKind)

theorem serves_other_types : ∃ tables, compile .standard clashing = .ok tables ∧
    (∃ type ∈ types .standard clashing, type.name = "Status" ∧ type.kind = .object) ∧
    outline (((unbound tables).run [.type "STATUS"] ()).1.lookUp "Status").1 =
      some ("STATUS", .enum) ∧
    (∃ type ∈ types .standard clashing, type.name = "String" ∧ type.kind = .object) ∧
    outline ((unbound tables).lookUp "String").1 = some ("String", .scalar) := by
  have served : (match compile .standard clashing with
      | .ok tables => decide
          (outline (((unbound tables).run [.type "STATUS"] ()).1.lookUp "Status").1 =
              some ("STATUS", .enum) ∧
            outline ((unbound tables).lookUp "String").1 = some ("String", .scalar))
      | .error _ => false) = true := by decide +kernel
  split at served
  · next tables compiles =>
      have served := of_decide_eq_true served
      exact ⟨tables, compiles, by decide +kernel, served.1, by decide +kernel, served.2⟩
  · cases served

theorem serves_of_compile_clashing : ∃ tables, compile .standard clashing = .ok tables ∧
    ∃ type ∈ types .standard clashing, type.name = "Status" ∧ tables.reverse.Perm tables ∧
      ∃ served ∈ types .standard clashing,
        Ascii.foldCase served.name = Ascii.foldCase "Status" ∧
          Realizes .standard served tables .empty
            (((unbound tables.reverse).run [.type "STATUS"] ()).1.lookUp "Status").1 := by
  have succeeds : (compile .standard clashing).isOk = true := by decide +kernel
  have declared : ∃ type ∈ types .standard clashing, type.name = "Status" := by decide +kernel
  cases compiles : compile .standard clashing with
  | error error =>
      rw [compiles] at succeeds
      cases succeeds
  | ok tables =>
      rcases declared with ⟨type, type_mem, named⟩
      have reversed : tables.reverse.Perm tables := List.reverse_perm tables
      have serves := serves_of_compile compiles type_mem reversed (.empty : Bindings Unit)
        (.ofCatalog .empty) .standard [.type "STATUS"] ()
      rw [named] at serves
      rcases serves.2 (by decide +kernel) with ⟨served, served_mem, agrees, realizes, -⟩
      exact ⟨tables, rfl, type, type_mem, named, reversed, served, served_mem, agrees, realizes⟩

end TypeGraph

end WiredGraph
