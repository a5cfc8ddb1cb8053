import Mathlib.Data.List.Perm.Basic
import WiredGraph.Proofs.Schema.Compilation

/-!
# How declarations are divided among tables

Each module has a table of its own, in which it describes what it contributes. A type that is not an
object type is contributed by its owner alone. The fields of an object type are divided among the
modules in which they are declared, so that together the tables have every field exactly once.
-/

namespace WiredGraph

namespace DeclaredType

variable {type : DeclaredType}

/-- The fields that a module contributes to the type. -/
def declarationsAt (type : DeclaredType) (module : String) : List FieldDeclaration :=
  if type.isDescribedIn module then type.declarationsFor module else []

theorem declarationsAt_of_object {module : String} (uniform : type.IsUniform)
    (kind : type.kind = .object) : type.declarationsAt module = type.declarationsIn module := by
  rw [declarationsAt, declarationsFor, if_pos kind]
  split
  · rfl
  · next undescribed =>
      rw [isDescribedIn_iff uniform] at undescribed
      by_contra someField
      exact undescribed (.inr ⟨kind, Ne.symm someField⟩)

theorem isDescribedIn_iff_owner {module : String} (uniform : type.IsUniform)
    (kind : type.kind ≠ .object) :
    type.isDescribedIn module = true ↔ type.base.source.module = module := by
  simp [isDescribedIn_iff uniform, kind]

/-- Modules contribute every field of a type exactly once. -/
theorem flatMap_declarationsAt_perm {modules : List String} (uniform : type.IsUniform)
    (distinct : modules.Nodup)
    (covered : ∀ contribution ∈ type.contributions, contribution.source.module ∈ modules) :
    (modules.flatMap type.declarationsAt).Perm type.declarations := by
  by_cases kind : type.kind = .object
  · have asDeclared : modules.flatMap type.declarationsAt = modules.flatMap type.declarationsIn :=
      List.flatMap_congr fun module _ => declarationsAt_of_object uniform kind
    rw [asDeclared]
    exact flatMap_declarationsIn_perm distinct covered
  · have ownerOnly : ∀ module ∈ modules, module ≠ type.base.source.module →
        type.declarationsAt module = [] := by
      intro module _ differs
      rw [declarationsAt, if_neg]
      rw [isDescribedIn_iff_owner uniform kind]
      exact differs.symm
    rw [Distinct.flatMap_eq_of_only distinct (covered type.base List.mem_cons_self) ownerOnly,
      declarationsAt, if_pos isDescribedIn_owner, declarationsFor, if_neg kind]

theorem declarationsIn_ne_nil_iff {module : String} :
    type.declarationsIn module ≠ [] ↔ ∃ contribution ∈ type.contributions,
      contribution.source.module = module ∧ contribution.declarations ≠ [] := by
  simp [declarationsIn, contributionsOf]

end DeclaredType

namespace SchemaCompiler

/-- How tables divide what some sources declare. -/
structure Partition (settings : Settings) (files : List SourceFile)
    (tables : List DescriptorTable) : Prop where
  /-- There is one table for each module, in the order in which the modules first appear. -/
  modules : tables.map DescriptorTable.module = modules (sources settings files)
  /-- No two types have the same name. -/
  distinct : ((bases settings files).map Contribution.name).Nodup
  /-- The types of a table stand in the order of their base definitions. -/
  ordered : ∀ table ∈ tables,
    table.types.keys.Sublist ((bases settings files).map Contribution.name)
  /-- What a table has of a type is one descriptor. -/
  described : ∀ type ∈ types settings files, ∀ table ∈ tables, type.name ∈ table.types.keys →
    ∃ descriptor, table.partialsOf type.name = [descriptor] ∧
      type.DescribedBy settings table.module descriptor
  /-- A type that is not an object type is in the table of the module of its base definition. -/
  owned : ∀ type ∈ types settings files, type.kind ≠ .object → ∀ table ∈ tables,
    (type.name ∈ table.types.keys ↔ table.module = type.base.source.module)
  /-- It is there once, and nowhere else. -/
  once : ∀ type ∈ types settings files, type.kind ≠ .object → ∃ descriptor,
    tables.flatMap (·.partialsOf type.name) = [descriptor] ∧
      descriptor.sourceModule = type.base.source.module
  /-- An object type is also in the tables of the modules that declare some field of it. -/
  shared : ∀ type ∈ types settings files, type.kind = .object → ∀ table ∈ tables,
    (type.name ∈ table.types.keys ↔ table.module = type.base.source.module ∨
      ∃ contribution ∈ type.contributions,
        contribution.source.module = table.module ∧ contribution.declarations ≠ [])
  /-- Its descriptor has the fields that are declared in the module, in order. -/
  fields : ∀ type ∈ types settings files, type.kind = .object → ∀ table ∈ tables,
    List.Forall₂ (FieldDeclaration.DescribedBy settings) (type.declarationsIn table.module)
      (table.fieldsOf type.name)
  /-- All tables together have every field exactly once. -/
  complete : ∀ type ∈ types settings files, ∃ descriptors,
    List.Forall₂ (FieldDeclaration.DescribedBy settings) type.declarations descriptors ∧
      (descriptors.map FieldDescriptor.name).Nodup ∧
      (tables.flatMap (·.fieldsOf type.name)).Perm descriptors

variable {settings : Settings} {files : List SourceFile} {tables : List DescriptorTable}

namespace Describes

variable {module : String} {table : DescriptorTable} {type : DeclaredType}

theorem name_mem_keys_iff (describes : Describes settings files module table)
    (declares : Declares settings files) (type_mem : type ∈ types settings files) :
    type.name ∈ table.types.keys ↔ type.isDescribedIn module = true := by
  rw [describes.keys, List.mem_map]
  constructor
  · rintro ⟨other, other_mem, same⟩
    rw [mem_typesIn] at other_mem
    obtain rfl := declares.eq_of_name_eq other_mem.1 type_mem same
    exact other_mem.2
  · intro described
    exact ⟨type, mem_typesIn.mpr ⟨type_mem, described⟩, rfl⟩

/-- A table has one descriptor of a type that its module describes, and none of another one. -/
theorem partialsOf_eq (describes : Describes settings files module table)
    (declares : Declares settings files) (type_mem : type ∈ types settings files) :
    (type.isDescribedIn module = true ∧ ∃ descriptor, table.partialsOf type.name = [descriptor] ∧
        type.DescribedBy settings module descriptor) ∨
      type.isDescribedIn module = false ∧ table.partialsOf type.name = [] := by
  cases described : type.isDescribedIn module with
  | true => exact .inl ⟨rfl, describes.described type (mem_typesIn.mpr ⟨type_mem, described⟩)⟩
  | false =>
      have noKey : type.name ∉ table.types.keys := by
        rw [describes.name_mem_keys_iff declares type_mem, described]
        exact Bool.false_ne_true
      rw [← OrderedMap.get?_isSome_iff, Option.not_isSome_iff_eq_none] at noKey
      exact .inr ⟨rfl, by rw [DescriptorTable.partialsOf, noKey, Option.getD_none]⟩

/-- A table has the fields that its module contributes to a type. -/
theorem fieldsOf_described (describes : Describes settings files module table)
    (declares : Declares settings files) (type_mem : type ∈ types settings files) :
    List.Forall₂ (FieldDeclaration.DescribedBy settings) (type.declarationsAt module)
      (table.fieldsOf type.name) := by
  rw [DescriptorTable.fieldsOf, DeclaredType.declarationsAt]
  rcases describes.partialsOf_eq declares type_mem with
    ⟨described, descriptor, single, asDeclared⟩ | ⟨undescribed, nothing⟩
  · rw [if_pos described, single, List.flatMap_singleton]
    exact asDeclared.fields
  · simp [undescribed, nothing]

end Describes

/-- The tables of a compiled schema describe what their own modules contribute. -/
theorem describes_of_mem (compiles : compile settings files = .ok tables)
    {table : DescriptorTable} (table_mem : table ∈ tables) :
    table.module ∈ modules (sources settings files) ∧
      Describes settings files table.module table := by
  rcases Success.exists_left_of_forall₂ (describes_of_compile compiles) table_mem with
    ⟨module, module_mem, describes⟩
  obtain rfl := describes.madeFor
  exact ⟨module_mem, describes⟩

theorem map_module_of_compile (compiles : compile settings files = .ok tables) :
    tables.map DescriptorTable.module = modules (sources settings files) := by
  rw [← List.forall₂_eq_eq_eq, List.forall₂_map_left_iff]
  exact (describes_of_compile compiles).flip.imp fun _ _ describes => describes.madeFor

/-- All tables together have the descriptors of all fields of a type, in some order. -/
theorem exists_descriptors_of_compile (compiles : compile settings files = .ok tables)
    {type : DeclaredType} (type_mem : type ∈ types settings files) :
    ∃ descriptors,
      List.Forall₂ (FieldDeclaration.DescribedBy settings) type.declarations descriptors ∧
        (descriptors.map FieldDescriptor.name).Nodup ∧
        (tables.flatMap (·.fieldsOf type.name)).Perm descriptors := by
  rcases compile_eq_ok_iff.mp compiles with ⟨declares, -, disjoint⟩
  have divided : List.Forall₂ (FieldDeclaration.DescribedBy settings)
      ((modules (sources settings files)).flatMap type.declarationsAt)
      (tables.flatMap (·.fieldsOf type.name)) :=
    List.rel_flatMap (describes_of_compile compiles) fun _ _ describes =>
      describes.fieldsOf_described declares type_mem
  have perm := DeclaredType.flatMap_declarationsAt_perm (declares.isUniform type_mem)
    (Distinct.nodup_eraseDups _)
    (fun contribution contribution_mem => module_mem_of_mem_contributions type_mem contribution_mem)
  rcases List.perm_comp_forall₂ perm.symm divided with ⟨descriptors, described, permuted⟩
  have names : descriptors.map FieldDescriptor.name = type.declarations.map (·.name.text) := by
    rw [← List.forall₂_eq_eq_eq, List.forall₂_map_left_iff, List.forall₂_map_right_iff]
    exact described.flip.imp fun _ _ here => here.name
  exact ⟨descriptors, described, names ▸ disjoint type type_mem, permuted.symm⟩

theorem nodup_modules_of_compile (compiles : compile settings files = .ok tables) :
    (tables.map DescriptorTable.module).Nodup := by
  rw [map_module_of_compile compiles]
  exact Distinct.nodup_eraseDups _

/-- The owner of a type has one descriptor of it. -/
theorem exists_owner_of_compile (compiles : compile settings files = .ok tables)
    {type : DeclaredType} (type_mem : type ∈ types settings files) :
    ∃ owner ∈ tables, owner.module = type.base.source.module ∧
      ∃ descriptor, owner.partialsOf type.name = [descriptor] ∧
        type.DescribedBy settings owner.module descriptor := by
  have module_mem : type.base.source.module ∈ tables.map DescriptorTable.module := by
    rw [map_module_of_compile compiles]
    exact module_mem_of_mem_contributions type_mem List.mem_cons_self
  rcases List.mem_map.mp module_mem with ⟨owner, owner_mem, owns⟩
  refine ⟨owner, owner_mem, owns, (describes_of_mem compiles owner_mem).2.described type ?_⟩
  exact mem_typesIn.mpr ⟨type_mem, owns ▸ DeclaredType.isDescribedIn_owner⟩

/-- A type that is not an object type has one descriptor in all tables. -/
theorem exists_single_of_compile (compiles : compile settings files = .ok tables)
    {type : DeclaredType} (type_mem : type ∈ types settings files) (kind : type.kind ≠ .object) :
    ∃ descriptor, tables.flatMap (·.partialsOf type.name) = [descriptor] ∧
      type.DescribedBy settings type.base.source.module descriptor := by
  have declares := (compile_eq_ok_iff.mp compiles).1
  have uniform := declares.isUniform type_mem
  rcases exists_owner_of_compile compiles type_mem with
    ⟨owner, owner_mem, owns, descriptor, single, described⟩
  have ownerOnly : ∀ table ∈ tables, table ≠ owner → table.partialsOf type.name = [] := by
    intro table table_mem differs
    rcases (describes_of_mem compiles table_mem).2.partialsOf_eq declares type_mem with
      ⟨here, -⟩ | ⟨-, nothing⟩
    · rw [DeclaredType.isDescribedIn_iff_owner uniform kind, ← owns] at here
      have sameTable := List.inj_on_of_nodup_map (nodup_modules_of_compile compiles) table_mem
        owner_mem here.symm
      exact absurd sameTable differs
    · exact nothing
  have distinct := (nodup_modules_of_compile compiles).of_map
  rw [Distinct.flatMap_eq_of_only distinct owner_mem ownerOnly]
  exact ⟨descriptor, single, owns ▸ described⟩

/-- Compiling schema documents divides what they declare among the tables of their modules. -/
theorem partition_of_compile (compiles : compile settings files = .ok tables) :
    Partition settings files tables := by
  have declares := (compile_eq_ok_iff.mp compiles).1
  have keys_iff : ∀ type ∈ types settings files, ∀ table ∈ tables,
      (type.name ∈ table.types.keys ↔ type.isDescribedIn table.module = true) :=
    fun type type_mem table table_mem =>
      (describes_of_mem compiles table_mem).2.name_mem_keys_iff declares type_mem
  refine ⟨map_module_of_compile compiles, declares.distinct, ?ordered, ?described, ?owned, ?once,
    ?shared, ?fields, fun type type_mem => exists_descriptors_of_compile compiles type_mem⟩
  case ordered =>
    intro table table_mem
    rw [(describes_of_mem compiles table_mem).2.keys, ← map_name_types]
    exact List.filter_sublist.map _
  case described =>
    intro type type_mem table table_mem present
    rw [keys_iff type type_mem table table_mem] at present
    exact (describes_of_mem compiles table_mem).2.described type
      (mem_typesIn.mpr ⟨type_mem, present⟩)
  case owned =>
    intro type type_mem kind table table_mem
    rw [keys_iff type type_mem table table_mem,
      DeclaredType.isDescribedIn_iff_owner (declares.isUniform type_mem) kind, eq_comm]
  case once =>
    intro type type_mem kind
    rcases exists_single_of_compile compiles type_mem kind with ⟨descriptor, single, described⟩
    exact ⟨descriptor, single, described.sourceModule⟩
  case shared =>
    intro type type_mem kind table table_mem
    rw [keys_iff type type_mem table table_mem,
      DeclaredType.isDescribedIn_iff (declares.isUniform type_mem),
      DeclaredType.declarationsIn_ne_nil_iff]
    exact or_congr eq_comm (and_iff_right kind)
  case fields =>
    intro type type_mem kind table table_mem
    rw [← DeclaredType.declarationsAt_of_object (declares.isUniform type_mem) kind]
    exact (describes_of_mem compiles table_mem).2.fieldsOf_described declares type_mem

/-- An object type with extensions in two modules, one of them before its base definition, and types
of other kinds. -/
def twoModules : List SourceFile :=
  [⟨"posts/posts.graphql",
      "extend type User \x7b posts: [Post] \x7d type Post \x7b id: ID \x7d", 1⟩,
    ⟨"users/users.graphql", "enum Role \x7b ADMIN \x7d type User \x7b id: ID \x7d", 1⟩,
    ⟨"more/users.graphql", "extend type User \x7b role: Role \x7d", 1⟩]

theorem partition_of_compile_twoModules :
    ∃ tables, compile .standard twoModules = .ok tables ∧ tables.length = 2 ∧
      (types .standard twoModules).length = 3 ∧ Partition .standard twoModules tables := by
  have succeeds : (match compile .standard twoModules with
      | .ok tables => decide (tables.length = 2)
      | .error _ => false) = true := by decide +kernel
  split at succeeds
  · next tables compiles =>
      exact ⟨tables, compiles, of_decide_eq_true succeeds, by decide +kernel,
        partition_of_compile compiles⟩
  · cases succeeds

end SchemaCompiler

end WiredGraph
