import WiredGraph.Proofs.Descriptor.Table
import WiredGraph.Proofs.Schema.Description

/-!
# What compiling schemas does

Compiling gathers the declared types, makes a table for each module, and then checks that the fields
of each type have distinct names. The table of a module holds one descriptor of each type that the
module describes: the types that it owns and the object types that it declares fields for. It stands
under the name of the type, in the order of the base definitions.
-/

namespace WiredGraph

namespace DeclaredType

variable {type : DeclaredType} {module : String}

/-- A module describes the types that it owns and the object types that it declares fields for. -/
theorem isDescribedIn_iff (uniform : type.IsUniform) :
    type.isDescribedIn module = true ↔
      type.base.source.module = module ∨
        type.kind = .object ∧ type.declarationsIn module ≠ [] := by
  simp only [isDescribedIn, ownedBy, Bool.or_eq_true, Bool.and_eq_true, decide_eq_true_eq]
  refine or_congr_right (and_congr_right fun kind => ?_)
  rw [hasFieldIn, List.any_eq_true, declarationsIn, Ne, List.flatMap_eq_nil_iff, not_forall]
  refine exists_congr fun contribution => ?_
  rw [Classical.not_imp, decide_eq_true_eq]
  refine and_congr_right fun contribution_mem => ?_
  have contributes := uniform contribution (List.mem_of_mem_filter contribution_mem)
  rw [Contribution.declarations_of_output (.inl (contributes.trans kind)), List.map_eq_nil_iff]

theorem isDescribedIn_owner : type.isDescribedIn type.base.source.module = true := by
  simp [isDescribedIn, ownedBy]

end DeclaredType

namespace SchemaCompiler

variable {settings : Settings} {files : List SourceFile}

/-- The types that a module describes. -/
def typesIn (settings : Settings) (files : List SourceFile) (module : String) :
    List DeclaredType :=
  (types settings files).filter (·.isDescribedIn module)

/-- How a table says what a module contributes. -/
structure Describes (settings : Settings) (files : List SourceFile) (module : String)
    (table : DescriptorTable) : Prop where
  madeFor : table.module = module
  /-- The table has the types that the module describes, in the order of their declaration. -/
  keys : table.types.keys = (typesIn settings files module).map DeclaredType.name
  /-- It has one descriptor of each of them. -/
  described : ∀ type ∈ typesIn settings files module, ∃ descriptor,
    table.partialsOf type.name = [descriptor] ∧ type.DescribedBy settings module descriptor

theorem mem_typesIn {type : DeclaredType} {module : String} :
    type ∈ typesIn settings files module ↔
      type ∈ types settings files ∧ type.isDescribedIn module = true :=
  List.mem_filter

/-- The descriptors of a module are those that its types are described by. -/
theorem table_eq_ok_iff (declares : Declares settings files) {module : String}
    {table : DescriptorTable} :
    SchemaCompiler.table settings (types settings files) module = .ok table ↔
      ∃ descriptors, List.Forall₂ (fun type => type.DescribedBy settings module)
          (typesIn settings files module) descriptors ∧
        descriptors.foldl DescriptorTable.push (.empty module) = table := by
  have each : ∀ descriptors,
      (typesIn settings files module).mapM (·.describe settings module) = .ok descriptors ↔
        List.Forall₂ (fun type => type.DescribedBy settings module)
          (typesIn settings files module) descriptors := by
    intro descriptors
    rw [Success.mapM_eq_ok_iff]
    have uniform : ∀ type ∈ typesIn settings files module, type.IsUniform :=
      fun type type_mem => declares.isUniform (mem_typesIn.mp type_mem).1
    exact Success.forall₂_congr_of_mem fun type type_mem _ =>
      DeclaredType.describe_eq_ok_iff (uniform type type_mem)
  simp only [SchemaCompiler.table, Success.bind_eq_ok, Success.pure_eq_ok, ← each]
  rfl

theorem describes_of_table_eq_ok (declares : Declares settings files) {module : String}
    {table : DescriptorTable}
    (made : SchemaCompiler.table settings (types settings files) module = .ok table) :
    Describes settings files module table := by
  rcases (table_eq_ok_iff declares).mp made with ⟨descriptors, described, rfl⟩
  have names : descriptors.map TypeDescriptor.name =
      (typesIn settings files module).map DeclaredType.name := by
    rw [← List.forall₂_eq_eq_eq, List.forall₂_map_left_iff, List.forall₂_map_right_iff]
    exact described.flip.imp fun _ _ here => here.name
  have distinct : (descriptors.map TypeDescriptor.name).Nodup := by
    rw [names]
    exact declares.names_nodup.sublist (List.filter_sublist.map _)
  have entries := DescriptorTable.entries_foldl_push module distinct
  refine ⟨by rw [DescriptorTable.foldl_push]; rfl, ?_, fun type type_mem => ?_⟩
  · rw [OrderedMap.keys, entries, List.map_map, ← names]
    rfl
  · rcases Success.exists_right_of_forall₂ described type_mem with
      ⟨descriptor, descriptor_mem, here⟩
    refine ⟨descriptor, ?_, here⟩
    have entry_mem : (type.name, [descriptor]) ∈
        (descriptors.foldl DescriptorTable.push (.empty module)).types.entries := by
      rw [entries, ← here.name]
      exact List.mem_map_of_mem descriptor_mem
    rw [DescriptorTable.partialsOf, OrderedMap.get?_of_mem_entries entry_mem, Option.getD_some]

/-- Compiling step by step: the sources declare types, a table is made for each module, and the
fields of each type have distinct names. -/
theorem compile_eq_ok_iff {tables : List DescriptorTable} :
    compile settings files = .ok tables ↔
      Declares settings files ∧
        List.Forall₂ (fun module table =>
            SchemaCompiler.table settings (types settings files) module = .ok table)
          (modules (sources settings files)) tables ∧
        ∀ type ∈ types settings files, (type.declarations.map (·.name.text)).Nodup := by
  simp only [compile, Success.bind_eq_ok, Success.pure_eq_ok, ← Success.mapM_eq_ok_iff,
    ← DeclaredType.checkDisjoint_eq_ok_iff, ← Success.forM_eq_ok_iff]
  constructor
  · rintro ⟨parsed, read, placed, found, declared, gathered, tables, made, ⟨⟩, disjoint, rfl⟩
    rcases gather_eq_ok_iff.mp ⟨parsed, read, found, gathered⟩ with ⟨declares, rfl, rfl⟩
    exact ⟨declares, made, disjoint⟩
  · rintro ⟨declares, made, disjoint⟩
    rcases gather_eq_ok_iff.mpr ⟨declares, rfl, rfl⟩ with ⟨parsed, read, found, gathered⟩
    exact ⟨parsed, read, _, found, _, gathered, tables, made, (), disjoint, rfl⟩

/-- The tables of a compiled schema say what its modules contribute. -/
theorem describes_of_compile {tables : List DescriptorTable}
    (compiles : compile settings files = .ok tables) :
    List.Forall₂ (Describes settings files) (modules (sources settings files)) tables := by
  rcases compile_eq_ok_iff.mp compiles with ⟨declares, made, -⟩
  exact made.imp fun _ _ => describes_of_table_eq_ok declares

end SchemaCompiler

end WiredGraph
