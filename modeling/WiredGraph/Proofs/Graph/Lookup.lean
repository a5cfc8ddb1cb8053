import Mathlib.Data.List.Nodup
import Mathlib.Data.String.Basic
import WiredGraph.Proofs.Graph.Merging

/-!
# Looking up types

A lookup answers with a built-in scalar, refuses a name that nothing describes, repeats what was
kept for the name, or realizes the type and keeps what came of it. `Finds` lists these four cases,
and everything about lookups is derived from it: what was kept stays, and the nodes that were made
are numbered one after another. Once its cases are known a lookup stays closed, since it compares
texts, which is not to be tried when terms are compared.
-/

namespace WiredGraph

variable {World : Type}

namespace TypeNode

theorem builtin?_eq_none_iff {name : String} :
    (builtin? name : Option (TypeNode World)) = none ↔
      ∀ builtin ∈ builtinNames, Ascii.foldCase builtin ≠ Ascii.foldCase name := by
  rw [builtin?, Option.map_eq_none_iff, List.find?_eq_none]
  constructor
  · intro noneFound builtin builtin_mem same
    rw [← List.zipIdx_map_fst 0 builtinNames] at builtin_mem
    rcases List.mem_map.mp builtin_mem with ⟨entry, entry_mem, rfl⟩
    apply noneFound entry entry_mem
    simpa using same
  · intro differs entry entry_mem same
    apply differs entry.1 (List.fst_mem_of_mem_zipIdx entry_mem)
    simpa using same

theorem builtin?_eq_none {name : String}
    (notBuiltin : ∀ builtin ∈ builtinNames, Ascii.foldCase builtin ≠ Ascii.foldCase name) :
    (builtin? (Ascii.foldCase name) : Option (TypeNode World)) = none := by
  rw [builtin?_eq_none_iff, Ascii.foldCase_foldCase]
  exact notBuiltin

theorem builtin?_foldCase (name : String) :
    (builtin? (Ascii.foldCase name) : Option (TypeNode World)) = builtin? name := by
  rw [builtin?, builtin?, Ascii.foldCase_foldCase]

/-- Built-in scalars have the first identities. -/
theorem id_lt_of_builtin? {name : String} {node : TypeNode World}
    (found : builtin? name = some node) : node.id < builtinNames.length := by
  rcases Option.map_eq_some_iff.mp found with ⟨⟨builtin, position⟩, entry, rfl⟩
  have entry_mem := List.mem_of_find?_eq_some entry
  exact (List.mem_zipIdx' entry_mem).1

end TypeNode

namespace NodeKind

/-- Whatever the partials are, only a binding can keep the node from being made. -/
theorem isUnbound_of_ofPartials {bindings : Bindings World} {partials : List TypeDescriptor}
    {last : TypeDescriptor} {error : AssemblyError}
    (failed : ofPartials bindings partials last = .error error) : error.IsUnbound := by
  rcases last with ⟨name, description, sourceModule, directives, body⟩
  cases body with
  | scalar serialize parseValue parseLiteral =>
      have failed : (TypeDescriptor.Body.scalar serialize parseValue parseLiteral).realize bindings
          [] = .error error := failed
      exact TypeDescriptor.Body.isUnbound_of_realize failed
  | object fields fieldResolver interfaces =>
      exact isUnbound_of_bindOptional (fun _ _ => Bindings.isUnbound_of_resolverMap)
        (Success.bind_pure_eq_error.mp failed)
  | input fields parseValue =>
      exact isUnbound_of_bindOptional (fun _ _ => Bindings.isUnbound_of_valueFunction)
        (Success.bind_pure_eq_error.mp failed)
  | enum values => nomatch failed
  | interface fields typeResolver =>
      exact isUnbound_of_bindOptional (fun _ _ => Bindings.isUnbound_of_typeResolver)
        (Success.bind_pure_eq_error.mp failed)
  | union members typeResolver =>
      exact Bindings.isUnbound_of_typeResolver (Success.bind_pure_eq_error.mp failed)

end NodeKind

namespace TypeNode

/-- A name with partials is never unknown. -/
theorem ofPartials_ne_unknownType {bindings : Bindings World} {id : Nat} {name unknown : String}
    {partials : List TypeDescriptor} (described : partials ≠ []) :
    ofPartials bindings id name partials ≠ .error (.unknownType unknown) := by
  rcases List.exists_cons_of_ne_nil described with ⟨first, rest, rfl⟩
  intro failed
  simp only [ofPartials, List.head?_cons] at failed
  split at failed
  · cases failed
  · exact NodeKind.isUnbound_of_ofPartials (Success.bind_pure_eq_error.mp failed)

theorem id_of_ofPartials {bindings : Bindings World} {id : Nat} {name : String}
    {partials : List TypeDescriptor} {node : TypeNode World}
    (made : ofPartials bindings id name partials = .ok node) : node.id = id := by
  rw [ofPartials] at made
  split at made
  · split at made
    · cases made
    · simp only [Success.bind_eq_ok, Success.pure_eq_ok] at made
      rcases made with ⟨_, _, _, _, rfl⟩
      rfl
  · cases made

end TypeNode

namespace DescriptorSet

variable {set : DescriptorSet} {name : String}

/-- A set with partials for all of its names has none for a name only if the name agrees with none
of its own without regard to case. -/
theorem partials_eq_nil_iff (described : ∀ entry ∈ set.types.entries, entry.2 ≠ []) :
    set.partials name = [] ↔
      ∀ other ∈ set.types.keys, Ascii.foldCase other ≠ Ascii.foldCase name := by
  have entry_of (other : String) (other_mem : other ∈ set.types.keys) :
      ∃ partials, (other, partials) ∈ set.types.entries := by
    simpa [OrderedMap.keys] using other_mem
  rw [partials]
  split
  · next partials found =>
      have entry_mem : (name, partials) ∈ set.types.entries := OrderedMap.mem_entries_of_get? found
      constructor
      · intro empty
        exact absurd empty (described _ entry_mem)
      · intro differs
        have name_mem : name ∈ set.types.keys := List.mem_map_of_mem entry_mem
        exact absurd rfl (differs name name_mem)
  · constructor
    · intro empty other other_mem same
      rcases entry_of other other_mem with ⟨partials, entry_mem⟩
      cases found : set.types.entries.find? fun entry =>
          Ascii.foldCase entry.1 == Ascii.foldCase name with
      | none =>
          rw [List.find?_eq_none] at found
          apply found _ entry_mem
          simpa using same
      | some entry =>
          rw [found] at empty
          exact described entry (List.mem_of_find?_eq_some found) empty
    · intro differs
      have noneFound : (set.types.entries.find? fun entry =>
          Ascii.foldCase entry.1 == Ascii.foldCase name) = none := by
        rw [List.find?_eq_none]
        intro entry entry_mem same
        apply differs entry.1 (List.mem_map_of_mem entry_mem)
        simpa using same
      rw [noneFound]
      rfl

/-- The partials of a name are those of a name of the set which it agrees with without regard to
case. A name of the set stands for itself. -/
theorem exists_spelling (described : set.partials name ≠ []) :
    ∃ spelled ∈ set.types.keys, Ascii.foldCase spelled = Ascii.foldCase name ∧
      set.partials name = set.partials spelled ∧ (name ∈ set.types.keys → spelled = name) := by
  cases exact : set.types.get? name with
  | some partials =>
      have name_mem : name ∈ set.types.keys := by
        rw [← OrderedMap.get?_isSome_iff, exact]
        rfl
      exact ⟨name, name_mem, rfl, rfl, fun _ => rfl⟩
  | none =>
      have name_not_mem : name ∉ set.types.keys := by
        rw [← OrderedMap.get?_isSome_iff, exact]
        exact Bool.false_ne_true
      cases found : set.types.entries.find? fun entry =>
          Ascii.foldCase entry.1 == Ascii.foldCase name with
      | none => simp [DescriptorSet.partials, exact, found] at described
      | some entry =>
          have entry_mem := List.mem_of_find?_eq_some found
          refine ⟨entry.1, List.mem_map_of_mem entry_mem, ?_, ?_, fun name_mem => ?_⟩
          · simpa using List.find?_some found
          · simp [DescriptorSet.partials, exact, found, OrderedMap.get?_of_mem_entries entry_mem]
          · exact absurd name_mem name_not_mem

end DescriptorSet

namespace TypeGraph

/-- What a lookup of a name can come to, and the graph after it. -/
inductive Finds (graph : TypeGraph World) (name : String) :
    Realized World → TypeGraph World → Prop
  | builtin {node : TypeNode World}
      (found : TypeNode.builtin? (Ascii.foldCase name) = some node) :
      Finds graph name (.ok node) graph
  | unknown
      (notBuiltin : (TypeNode.builtin? (Ascii.foldCase name) : Option (TypeNode World)) = none)
      (undescribed : graph.descriptors.partials name = []) :
      Finds graph name (.error (.unknownType name)) graph
  | kept {realized : Realized World}
      (notBuiltin : (TypeNode.builtin? (Ascii.foldCase name) : Option (TypeNode World)) = none)
      (described : graph.descriptors.partials name ≠ [])
      (found : graph.slots.get? (Ascii.foldCase name) = some realized) :
      Finds graph name realized graph
  | created
      (notBuiltin : (TypeNode.builtin? (Ascii.foldCase name) : Option (TypeNode World)) = none)
      (described : graph.descriptors.partials name ≠ [])
      (new : graph.slots.get? (Ascii.foldCase name) = none) :
      Finds graph name (graph.create name) (graph.keep (Ascii.foldCase name) (graph.create name))

theorem finds_lookUp (graph : TypeGraph World) (name : String) :
    graph.Finds name (graph.lookUp name).1 (graph.lookUp name).2 := by
  rw [lookUp]
  dsimp only
  split
  · next found => exact .builtin found
  · next notBuiltin =>
      split
      · next empty => exact .unknown notBuiltin (List.isEmpty_iff.mp empty)
      · next someThere =>
          have described : graph.descriptors.partials name ≠ [] := by
            simpa using someThere
          split
          · next found => exact .kept notBuiltin described found
          · next new => exact .created notBuiltin described new

namespace Finds

variable {graph after : TypeGraph World} {name : String} {realized : Realized World}

theorem bindings_eq (finds : graph.Finds name realized after) :
    after.bindings = graph.bindings := by
  cases finds <;> rfl

theorem descriptors_eq (finds : graph.Finds name realized after) :
    after.descriptors = graph.descriptors := by
  cases finds <;> rfl

theorem roots_eq (finds : graph.Finds name realized after) : after.roots = graph.roots := by
  cases finds <;> rfl

theorem registry_eq (finds : graph.Finds name realized after) :
    after.registry = graph.registry := by
  cases finds <;> rfl

theorem chains_eq (finds : graph.Finds name realized after) : after.chains = graph.chains := by
  cases finds <;> rfl

/-- What was kept for a name stays. -/
theorem slot_kept (finds : graph.Finds name realized after) {key : String} {held : Realized World}
    (found : graph.slots.get? key = some held) : after.slots.get? key = some held := by
  cases finds with
  | builtin | unknown | kept => exact found
  | created notBuiltin described new =>
      rw [keep, OrderedMap.get?_insert, if_neg]
      · exact found
      · rintro rfl
        simp [new] at found

end Finds

section Keep

variable (graph : TypeGraph World) (key : String) (realized : Realized World)

@[simp]
theorem slots_keep : (graph.keep key realized).slots = graph.slots.insert key realized := rfl

@[simp]
theorem descriptors_keep : (graph.keep key realized).descriptors = graph.descriptors := rfl

@[simp]
theorem bindings_keep : (graph.keep key realized).bindings = graph.bindings := rfl

theorem created_keep : (graph.keep key realized).created =
    if realized.isOk then graph.created + 1 else graph.created := rfl

end Keep

attribute [local irreducible] lookUp create keep TypeNode.builtin? Ascii.foldCase

/-- A lookup realizes the type: it is no built-in one, and nothing is kept for it so far. -/
def realizes (graph : TypeGraph World) (name : String) : Bool :=
  (TypeNode.builtin? (Ascii.foldCase name) : Option (TypeNode World)).isNone &&
    !(graph.descriptors.partials name).isEmpty && !graph.slots.contains (Ascii.foldCase name)

/-- The graph after looking up names, from first to last. -/
def lookUpAll (graph : TypeGraph World) : List String → TypeGraph World
  | [] => graph
  | name :: rest => lookUpAll (graph.lookUp name).2 rest

/-- The keys of the types that are realized when names are looked up, one for each realization. -/
def realizedKeys (graph : TypeGraph World) : List String → List String
  | [] => []
  | name :: rest =>
      (if graph.realizes name then [Ascii.foldCase name] else []) ++
        realizedKeys (graph.lookUp name).2 rest

/-- The nodes that have been made. -/
def nodes (graph : TypeGraph World) : List (TypeNode World) :=
  graph.slots.values.filterMap Except.toOption

section Lookup

variable (graph : TypeGraph World) (name : String)

theorem lookUp_of_realizes (realizes : graph.realizes name = true) :
    graph.lookUp name =
      (graph.create name, graph.keep (Ascii.foldCase name) (graph.create name)) := by
  have finds := graph.finds_lookUp name
  simp only [TypeGraph.realizes, OrderedMap.contains, Bool.and_eq_true, Bool.not_eq_true',
    Option.isNone_iff_eq_none, Option.isSome_eq_false_iff] at realizes
  generalize graph.lookUp name = outcome at finds ⊢
  rcases outcome with ⟨realized, after⟩
  cases finds <;> simp_all

/-- A lookup that realizes nothing leaves the graph as it is. -/
theorem lookUp_of_not_realizes (known : graph.realizes name = false) :
    (graph.lookUp name).2 = graph := by
  have finds := graph.finds_lookUp name
  generalize graph.lookUp name = outcome at finds ⊢
  rcases outcome with ⟨realized, after⟩
  cases finds with
  | builtin | unknown | kept => rfl
  | created notBuiltin described new =>
      simp [realizes, OrderedMap.contains, notBuiltin, described, new] at known

variable {graph name}

theorem lookUp_of_builtin {node : TypeNode World}
    (found : TypeNode.builtin? (Ascii.foldCase name) = some node) :
    (graph.lookUp name).1 = .ok node := by
  simp only [lookUp, found]

theorem lookUp_of_unknown
    (notBuiltin : (TypeNode.builtin? (Ascii.foldCase name) : Option (TypeNode World)) = none)
    (undescribed : graph.descriptors.partials name = []) :
    (graph.lookUp name).1 = .error (.unknownType name) := by
  simp [lookUp, notBuiltin, undescribed]

theorem lookUp_of_kept {realized : Realized World}
    (notBuiltin : (TypeNode.builtin? (Ascii.foldCase name) : Option (TypeNode World)) = none)
    (described : graph.descriptors.partials name ≠ [])
    (found : graph.slots.get? (Ascii.foldCase name) = some realized) :
    (graph.lookUp name).1 = realized := by
  simp [lookUp, notBuiltin, described, found]

/-- What a lookup comes to is kept, unless the name is unknown or that of a built-in scalar. -/
theorem slot_lookUp
    (notBuiltin : (TypeNode.builtin? (Ascii.foldCase name) : Option (TypeNode World)) = none)
    (described : graph.descriptors.partials name ≠ []) :
    (graph.lookUp name).2.slots.get? (Ascii.foldCase name) = some (graph.lookUp name).1 := by
  have finds := graph.finds_lookUp name
  generalize (graph.lookUp name).1 = realized at finds ⊢
  generalize (graph.lookUp name).2 = after at finds ⊢
  cases finds with
  | builtin found =>
      rw [notBuiltin] at found
      cases found
  | unknown _ undescribed => exact absurd undescribed described
  | kept _ _ found => exact found
  | created => simp

variable (graph name)

theorem keys_lookUp :
    (graph.lookUp name).2.slots.keys =
      graph.slots.keys ++ if graph.realizes name then [Ascii.foldCase name] else [] := by
  cases realized : graph.realizes name with
  | false => simp [lookUp_of_not_realizes graph name realized]
  | true =>
      have new : Ascii.foldCase name ∉ graph.slots.keys := by
        rw [← OrderedMap.get?_isSome_iff]
        simp only [realizes, OrderedMap.contains, Bool.and_eq_true, Bool.not_eq_true'] at realized
        simp [realized.2]
      rw [lookUp_of_realizes graph name realized, keep, OrderedMap.keys_insert, if_neg new]
      rfl

end Lookup

theorem lookUpAll_append (graph : TypeGraph World) (names later : List String) :
    graph.lookUpAll (names ++ later) = (graph.lookUpAll names).lookUpAll later := by
  induction names generalizing graph with
  | nil => rfl
  | cons name rest ih => simp only [List.cons_append, lookUpAll, ih]

theorem nodes_keep {graph : TypeGraph World} {key : String} (realized : Realized World)
    (new : graph.slots.get? key = none) :
    (graph.keep key realized).nodes = graph.nodes ++ realized.toOption.toList := by
  have absent : key ∉ graph.slots.keys := by
    rw [← OrderedMap.get?_isSome_iff]
    simp [new]
  simp only [nodes, slots_keep, OrderedMap.values, OrderedMap.entries_insert_of_not_mem absent]
  cases realized <;> simp [Except.toOption]

theorem mem_nodes_of_slot {graph : TypeGraph World} {key : String} {node : TypeNode World}
    (found : graph.slots.get? key = some (.ok node)) : node ∈ graph.nodes := by
  have entry_mem := OrderedMap.mem_entries_of_get? found
  apply List.mem_filterMap.mpr
  exact ⟨.ok node, List.mem_map_of_mem entry_mem, rfl⟩

/-- A node that is found is a built-in scalar or stands in the graph. -/
theorem mem_nodes_of_lookUp {graph : TypeGraph World} {name : String} {node : TypeNode World}
    (found : (graph.lookUp name).1 = .ok node) :
    TypeNode.builtin? (Ascii.foldCase name) = some node ∨ node ∈ (graph.lookUp name).2.nodes := by
  cases builtin : (TypeNode.builtin? (Ascii.foldCase name) : Option (TypeNode World)) with
  | some other =>
      rw [lookUp_of_builtin builtin] at found
      exact .inl (congrArg some (Except.ok.inj found))
  | none =>
      by_cases undescribed : graph.descriptors.partials name = []
      · rw [lookUp_of_unknown builtin undescribed] at found
        cases found
      · have slot := slot_lookUp builtin undescribed
        rw [found] at slot
        exact .inr (mem_nodes_of_slot slot)

/-- What no lookup changes stays. -/
theorem lookUpAll_keeps {Item : Type} {part : TypeGraph World → Item}
    (keeps : ∀ graph name, part (graph.lookUp name).2 = part graph) (graph : TypeGraph World)
    (names : List String) : part (graph.lookUpAll names) = part graph := by
  induction names generalizing graph with
  | nil => rfl
  | cons name rest ih => rw [lookUpAll, ih, keeps]

section LookUpAll

variable (graph : TypeGraph World) (names : List String)

theorem descriptors_lookUpAll : (graph.lookUpAll names).descriptors = graph.descriptors :=
  lookUpAll_keeps (fun graph name => (graph.finds_lookUp name).descriptors_eq) graph names

theorem bindings_lookUpAll : (graph.lookUpAll names).bindings = graph.bindings :=
  lookUpAll_keeps (fun graph name => (graph.finds_lookUp name).bindings_eq) graph names

theorem chains_lookUpAll : (graph.lookUpAll names).chains = graph.chains :=
  lookUpAll_keeps (fun graph name => (graph.finds_lookUp name).chains_eq) graph names

end LookUpAll

/-- Lookups keep the nodes that there are, and give new ones the next identities. -/
structure Grows (graph after : TypeGraph World) : Prop where
  nodes : graph.nodes ⊆ after.nodes
  new : ∀ node ∈ after.nodes, node ∈ graph.nodes ∨ graph.nextId ≤ node.id
  nextId : graph.nextId ≤ after.nextId

namespace Grows

variable {graph after last : TypeGraph World}

theorem refl (graph : TypeGraph World) : graph.Grows graph where
  nodes := List.Subset.refl _
  new := fun _ node_mem => .inl node_mem
  nextId := Nat.le_refl _

theorem trans (first : graph.Grows after) (second : after.Grows last) : graph.Grows last where
  nodes := List.Subset.trans first.nodes second.nodes
  new := by
    intro node node_mem
    rcases second.new node node_mem with before | late
    · exact first.new node before
    · exact .inr (first.nextId.trans late)
  nextId := first.nextId.trans second.nextId

end Grows

theorem grows_lookUp (graph : TypeGraph World) (name : String) :
    graph.Grows (graph.lookUp name).2 := by
  have finds := graph.finds_lookUp name
  generalize (graph.lookUp name).1 = realized at finds
  generalize (graph.lookUp name).2 = after at finds ⊢
  cases finds with
  | builtin | unknown | kept => exact .refl graph
  | created notBuiltin described new =>
      refine ⟨?nodes, ?new, ?nextId⟩
      case nodes =>
        rw [nodes_keep _ new]
        exact List.subset_append_left _ _
      case new =>
        intro node node_mem
        rw [nodes_keep _ new, List.mem_append] at node_mem
        rcases node_mem with before | now
        · exact .inl before
        · right
          cases created : graph.create name with
          | error error => simp [created, Except.toOption] at now
          | ok made =>
              rw [create] at created
              have numbered := TypeNode.id_of_ofPartials created
              simp_all [create, Except.toOption]
      case nextId =>
        simp only [TypeGraph.nextId, created_keep]
        split <;> omega

theorem grows_lookUpAll (graph : TypeGraph World) (names : List String) :
    graph.Grows (graph.lookUpAll names) := by
  induction names generalizing graph with
  | nil => exact .refl graph
  | cons name rest ih => exact (graph.grows_lookUp name).trans (ih _)

/-- Each realization adds a slot, and nothing else does. -/
theorem keys_lookUpAll (graph : TypeGraph World) (names : List String) :
    (graph.lookUpAll names).slots.keys = graph.slots.keys ++ graph.realizedKeys names := by
  induction names generalizing graph with
  | nil => simp [lookUpAll, realizedKeys]
  | cons name rest ih => simp only [lookUpAll, realizedKeys, ih, keys_lookUp, List.append_assoc]

theorem slots_lookUpAll {graph : TypeGraph World} (names : List String) {key : String}
    {held : Realized World} (found : graph.slots.get? key = some held) :
    (graph.lookUpAll names).slots.get? key = some held := by
  induction names generalizing graph with
  | nil => exact found
  | cons name rest ih => exact ih ((graph.finds_lookUp name).slot_kept found)

/-- The first described name of a key among names that were asked for. -/
def firstAsked (descriptors : DescriptorSet) (asked : List String) (key : String) :
    Option String :=
  asked.find? fun name => Ascii.foldCase name == key && !(descriptors.partials name).isEmpty

theorem foldCase_of_firstAsked {descriptors : DescriptorSet} {asked : List String}
    {key name : String} (first : firstAsked descriptors asked key = some name) :
    Ascii.foldCase name = key ∧ descriptors.partials name ≠ [] := by
  have accepted := List.find?_some first
  simpa using accepted

/-- The first name stays the first one. -/
theorem firstAsked_append {descriptors : DescriptorSet} {asked : List String} {key name : String}
    (first : firstAsked descriptors asked key = some name) (later : List String) :
    firstAsked descriptors (asked ++ later) key = some name := by
  rw [firstAsked, List.find?_append, ← firstAsked, first, Option.some_or]

/-- The names that were asked for have slots, if they are described. Every slot holds what came of
realizing the type of the first of its names, and the nodes in the slots are numbered in the order
in which they were made. -/
structure IsMemo (asked : List String) (graph : TypeGraph World) : Prop where
  kept : ∀ name ∈ asked,
    (TypeNode.builtin? (Ascii.foldCase name) : Option (TypeNode World)) = none →
      graph.descriptors.partials name ≠ [] → (graph.slots.get? (Ascii.foldCase name)).isSome
  held : ∀ key realized, graph.slots.get? key = some realized →
    (TypeNode.builtin? key : Option (TypeNode World)) = none ∧
      ∃ name, firstAsked graph.descriptors asked key = some name ∧
        ∃ id, TypeNode.ofPartials graph.bindings id name (graph.descriptors.partials name) =
          realized
  numbered : graph.nodes.map TypeNode.id =
    List.range' TypeNode.builtinNames.length graph.created

theorem isMemo_ofDescriptors (descriptors : DescriptorSet) (bindings : Bindings World)
    (registry : HandlerRegistry World) (roots : RootNames) :
    (ofDescriptors descriptors bindings registry roots).IsMemo [] where
  kept := by
    intro name name_mem
    nomatch name_mem
  held := by
    intro key realized found
    cases found
  numbered := rfl

namespace IsMemo

variable {graph : TypeGraph World} {asked : List String}

/-- Asking for a name that gets no slot now changes nothing. -/
theorem ask (memo : graph.IsMemo asked) {name : String}
    (settled : (TypeNode.builtin? (Ascii.foldCase name) : Option (TypeNode World)) = none →
      graph.descriptors.partials name ≠ [] → (graph.slots.get? (Ascii.foldCase name)).isSome) :
    graph.IsMemo (asked ++ [name]) where
  kept := by
    intro other other_mem
    rcases List.mem_append.mp other_mem with before | now
    · exact memo.kept other before
    · obtain rfl := List.mem_singleton.mp now
      exact settled
  held := by
    intro key realized found
    rcases memo.held key realized found with ⟨notBuiltin, first, isFirst, made⟩
    exact ⟨notBuiltin, first, firstAsked_append isFirst _, made⟩
  numbered := memo.numbered

theorem firstAsked_eq_none (memo : graph.IsMemo asked) {key : String}
    (notBuiltin : (TypeNode.builtin? key : Option (TypeNode World)) = none)
    (new : graph.slots.get? key = none) : firstAsked graph.descriptors asked key = none := by
  rw [firstAsked, List.find?_eq_none]
  intro name name_mem first
  simp only [Bool.and_eq_true, beq_iff_eq, Bool.not_eq_true', List.isEmpty_eq_false_iff] at first
  rcases first with ⟨rfl, described⟩
  have someThere := memo.kept name name_mem notBuiltin described
  rw [new] at someThere
  cases someThere

theorem create (memo : graph.IsMemo asked) {name : String}
    (notBuiltin : (TypeNode.builtin? (Ascii.foldCase name) : Option (TypeNode World)) = none)
    (described : graph.descriptors.partials name ≠ [])
    (new : graph.slots.get? (Ascii.foldCase name) = none) :
    (graph.keep (Ascii.foldCase name) (graph.create name)).IsMemo (asked ++ [name]) where
  kept := by
    intro other other_mem otherNotBuiltin otherDescribed
    rw [descriptors_keep] at otherDescribed
    rw [slots_keep, OrderedMap.get?_insert]
    split
    · rfl
    · next differs =>
        rcases List.mem_append.mp other_mem with before | now
        · exact memo.kept other before otherNotBuiltin otherDescribed
        · exact absurd (congrArg Ascii.foldCase (List.mem_singleton.mp now).symm) differs
  held := by
    intro key realized found
    rw [slots_keep, OrderedMap.get?_insert] at found
    rw [descriptors_keep, bindings_keep]
    split at found
    · next same =>
        subst same
        refine ⟨notBuiltin, name, ?_, graph.nextId, ?_⟩
        · rw [firstAsked, List.find?_append, ← firstAsked, memo.firstAsked_eq_none notBuiltin new]
          simp [described]
        · rw [← TypeGraph.create]
          exact Option.some.inj found
    · rcases memo.held key realized found with ⟨otherNotBuiltin, first, isFirst, made⟩
      exact ⟨otherNotBuiltin, first, firstAsked_append isFirst _, made⟩
  numbered := by
    rw [nodes_keep _ new, List.map_append, memo.numbered, created_keep]
    cases created : graph.create name with
    | error error => simp [Except.toOption, Except.isOk, Except.toBool]
    | ok node =>
        rw [TypeGraph.create] at created
        have made : node.id = graph.nextId := TypeNode.id_of_ofPartials created
        simp [Except.toOption, Except.isOk, Except.toBool, List.range'_1_concat, made, nextId]

theorem lookUp (memo : graph.IsMemo asked) (name : String) :
    (graph.lookUp name).2.IsMemo (asked ++ [name]) := by
  have finds := graph.finds_lookUp name
  generalize (graph.lookUp name).1 = realized at finds
  generalize (graph.lookUp name).2 = after at finds ⊢
  cases finds with
  | builtin found =>
      apply memo.ask
      intro notBuiltin
      simp [found] at notBuiltin
  | unknown notBuiltin undescribed =>
      apply memo.ask
      intro _ described
      exact absurd undescribed described
  | kept notBuiltin described found =>
      apply memo.ask
      simp [found]
  | created notBuiltin described new => exact memo.create notBuiltin described new

theorem lookUpAll (memo : graph.IsMemo asked) (names : List String) :
    (graph.lookUpAll names).IsMemo (asked ++ names) := by
  induction names generalizing graph asked with
  | nil =>
      rw [List.append_nil]
      exact memo
  | cons name rest ih =>
      have later := ih (memo.lookUp name)
      rwa [List.append_assoc] at later

theorem id_lt (memo : graph.IsMemo asked) {node : TypeNode World} (node_mem : node ∈ graph.nodes) :
    node.id < graph.nextId := by
  have id_mem : node.id ∈ graph.nodes.map TypeNode.id := List.mem_map_of_mem node_mem
  rw [memo.numbered, List.mem_range'_1] at id_mem
  exact id_mem.2

theorem nodup_ids (memo : graph.IsMemo asked) : (graph.nodes.map TypeNode.id).Nodup := by
  rw [memo.numbered]
  exact List.nodup_range'

theorem eq_of_id_eq (memo : graph.IsMemo asked) {node other : TypeNode World}
    (node_mem : node ∈ graph.nodes) (other_mem : other ∈ graph.nodes) (same : node.id = other.id) :
    node = other :=
  List.inj_on_of_nodup_map memo.nodup_ids node_mem other_mem same

end IsMemo

end TypeGraph

end WiredGraph
