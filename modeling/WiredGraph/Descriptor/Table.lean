import WiredGraph.Descriptor.Basic
import WiredGraph.Text.Ascii

/-!
# Descriptor tables

A table holds what one module contributes, by type name. A set joins the tables of all modules: the
partials of a type stand in it in the order in which their tables were added.
-/

namespace WiredGraph

/-- The contributions of one module. -/
structure DescriptorTable where
  module : String
  types : OrderedMap String (List TypeDescriptor)

namespace DescriptorTable

/-- The table of a module that contributes nothing. -/
def empty (module : String) : DescriptorTable := ⟨module, .empty⟩

/-- The table with one more contribution, after those to the same type. -/
def push (table : DescriptorTable) (descriptor : TypeDescriptor) : DescriptorTable :=
  { table with types := table.types.push descriptor.name descriptor }

end DescriptorTable

/-- The contributions of all modules. -/
structure DescriptorSet where
  types : OrderedMap String (List TypeDescriptor)

namespace DescriptorSet

/-- The set without contributions. -/
def empty : DescriptorSet := ⟨.empty⟩

/-- The set with the contributions of one more table. -/
def add (set : DescriptorSet) (table : DescriptorTable) : DescriptorSet :=
  ⟨table.types.entries.foldl
    (fun types (name, partials) => types.upsert name fun held => held.getD [] ++ partials)
    set.types⟩

/-- The set of the contributions of some tables. -/
def ofTables (tables : List DescriptorTable) : DescriptorSet := tables.foldl add empty

/-- The partials of a name. A name that is there exactly as written is preferred; otherwise the
first one that differs from it in case only is taken. -/
def partials (set : DescriptorSet) (name : String) : List TypeDescriptor :=
  match set.types.get? name with
  | some partials => partials
  | none =>
      ((set.types.entries.find? fun entry => Ascii.foldCase entry.1 == Ascii.foldCase name).map
        Prod.snd).getD []

end DescriptorSet

end WiredGraph
