import WiredGraph.Descriptor.Table
import WiredGraph.Proofs.OrderedMap

/-!
# Partials of tables and sets

A table is filled by pushing descriptors, and a set by adding tables. What a set has of a name is
what its tables have of it, one after another, as long as the name is written as in some table.
-/

namespace WiredGraph

namespace DescriptorTable

/-- What the table contributes to the type of a name. -/
def partialsOf (table : DescriptorTable) (name : String) : List TypeDescriptor :=
  (table.types.get? name).getD []

/-- The fields that the table contributes to the type of a name. -/
def fieldsOf (table : DescriptorTable) (name : String) : List FieldDescriptor :=
  (table.partialsOf name).flatMap (·.body.fields)

theorem mem_keys_of_mem_partialsOf {table : DescriptorTable} {name : String}
    {descriptor : TypeDescriptor} (descriptor_mem : descriptor ∈ table.partialsOf name) :
    name ∈ table.types.keys := by
  rw [← OrderedMap.get?_isSome_iff]
  cases found : table.types.get? name with
  | none => simp [partialsOf, found] at descriptor_mem
  | some partials => rfl

theorem foldl_push (descriptors : List TypeDescriptor) (table : DescriptorTable) :
    descriptors.foldl push table =
      ⟨table.module,
        descriptors.foldl (fun types next => types.push next.name next) table.types⟩ := by
  induction descriptors generalizing table with
  | nil => rfl
  | cons descriptor rest ih => rw [List.foldl_cons, ih, push, List.foldl_cons]

/-- A table of descriptors of distinct types has an entry for each, in order. -/
theorem entries_foldl_push {descriptors : List TypeDescriptor} (module : String)
    (distinct : (descriptors.map TypeDescriptor.name).Nodup) :
    (descriptors.foldl push (.empty module)).types.entries =
      descriptors.map fun descriptor => (descriptor.name, [descriptor]) := by
  have entries := OrderedMap.entries_foldl_push TypeDescriptor.name descriptors
  rw [Distinct.eraseDups_of_nodup distinct, List.map_map] at entries
  rw [foldl_push]
  refine entries.trans (List.map_congr_left fun descriptor descriptor_mem => ?_)
  rw [Function.comp, Distinct.filter_key_eq distinct,
    Distinct.find?_key_eq_some distinct descriptor_mem, Option.toList_some]

end DescriptorTable

namespace DescriptorSet

/-- The set of some tables takes in their entries one after another. -/
theorem types_ofTables (tables : List DescriptorTable) :
    (ofTables tables).types =
      (tables.flatMap (·.types.entries)).foldl
        (fun types entry => types.upsert entry.1 fun held => held.getD [] ++ entry.2) .empty := by
  rw [ofTables]
  suffices fromAny : ∀ set : DescriptorSet, (tables.foldl add set).types =
      (tables.flatMap (·.types.entries)).foldl
        (fun types entry => types.upsert entry.1 fun held => held.getD [] ++ entry.2) set.types from
    fromAny empty
  induction tables with
  | nil => exact fun _ => rfl
  | cons table rest ih =>
      intro set
      rw [List.foldl_cons, ih, List.flatMap_cons, List.foldl_append]
      rfl

theorem get?_ofTables (tables : List DescriptorTable) (name : String) :
    (ofTables tables).types.get? name =
      if name ∈ tables.flatMap (·.types.keys) then some (tables.flatMap (·.partialsOf name))
      else none := by
  have keys : (tables.flatMap (·.types.entries)).map Prod.fst = tables.flatMap (·.types.keys) :=
    List.map_flatMap
  rw [types_ofTables, OrderedMap.get?_foldl_append, keys, List.filter_flatMap, List.flatMap_assoc]
  congr 2
  exact List.flatMap_congr fun table _ => table.types.flatMap_filter_key name

/-- The names of a set are those of its tables. -/
theorem mem_keys_ofTables {tables : List DescriptorTable} {name : String} :
    name ∈ (ofTables tables).types.keys ↔ ∃ table ∈ tables, name ∈ table.types.keys := by
  rw [← OrderedMap.get?_isSome_iff, get?_ofTables, ← List.mem_flatMap]
  split <;> simp_all

/-- A set has the partials of all tables for a name that some table has. -/
theorem partials_ofTables {tables : List DescriptorTable} {name : String}
    (present : tables.flatMap (·.partialsOf name) ≠ []) :
    (ofTables tables).partials name = tables.flatMap (·.partialsOf name) := by
  have anyKey : name ∈ tables.flatMap (·.types.keys) := by
    rcases List.exists_mem_of_ne_nil _ present with ⟨descriptor, descriptor_mem⟩
    rcases List.mem_flatMap.mp descriptor_mem with ⟨table, table_mem, here⟩
    exact List.mem_flatMap.mpr
      ⟨table, table_mem, DescriptorTable.mem_keys_of_mem_partialsOf here⟩
  rw [partials, get?_ofTables, if_pos anyKey]

end DescriptorSet

end WiredGraph
