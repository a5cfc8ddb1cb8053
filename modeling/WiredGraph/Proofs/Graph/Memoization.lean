import WiredGraph.Proofs.Graph.Request

/-!
# Types are realized once

In whatever order a graph is asked for things, it realizes each type at most once. What came of it,
a node or an error, is what every later lookup finds, in whatever case the name is written then.
-/

namespace WiredGraph

variable {World : Type}

namespace AssemblyError

/-- The error with another spelling of the name, if it says that nothing is known about a name. -/
def quoting (name : String) : AssemblyError → AssemblyError
  | .unknownType _ => .unknownType name
  | error => error

end AssemblyError

namespace TypeGraph

/-- Neither a built-in scalar nor a described type has the name, whatever its case is. -/
def IsUnknown (descriptors : DescriptorSet) (name : String) : Prop :=
  (∀ builtin ∈ TypeNode.builtinNames, Ascii.foldCase builtin ≠ Ascii.foldCase name) ∧
    ∀ other ∈ descriptors.types.keys, Ascii.foldCase other ≠ Ascii.foldCase name

/-- What holds of the types of a graph at any time. -/
structure Memoizes (descriptors : DescriptorSet) (graph : TypeGraph World) : Prop where
  /-- No key has two slots. -/
  distinct : graph.slots.keys.Nodup
  /-- Only described types have slots, and built-in ones have none. -/
  keys : ∀ key ∈ graph.slots.keys,
    (∃ name ∈ descriptors.types.keys, Ascii.foldCase name = key) ∧
      ∀ builtin ∈ TypeNode.builtinNames, Ascii.foldCase builtin ≠ key
  /-- The counter counts the nodes in the slots. -/
  created : graph.created = graph.nodes.length
  /-- The identity of a node is its own. -/
  identities : (graph.nodes.map TypeNode.id).Nodup
  builtinIdentities : ∀ node ∈ graph.nodes, ∀ name, ∀ builtin : TypeNode World,
    TypeNode.builtin? name = some builtin → node.id ≠ builtin.id
  /-- Exactly unknown names are refused as such. -/
  unknown : ∀ name, (∃ quoted, (graph.lookUp name).1 = .error (.unknownType quoted)) ↔
    IsUnknown descriptors name

/-- The keys of the types that are realized to serve requests, one for each realization. -/
def realizations (graph : TypeGraph World) : List (GraphRequest World) → World → List String
  | [], _ => []
  | request :: rest, world =>
      graph.realizedKeys (graph.namesFor world request) ++
        realizations (graph.step request world).1 rest (graph.step request world).2

attribute [local irreducible] lookUp create keep TypeNode.builtin? Ascii.foldCase

variable {graph : TypeGraph World} {asked : List String}

theorem SameTypes.isMemo {other : TypeGraph World} (same : graph.SameTypes other)
    (memo : other.IsMemo asked) : graph.IsMemo asked where
  kept := by
    rw [same.slots, same.descriptors]
    exact memo.kept
  held := by
    rw [same.slots, same.descriptors, same.bindings]
    exact memo.held
  numbered := by
    rw [nodes, same.slots, same.created]
    exact memo.numbered

theorem IsMemo.run (memo : graph.IsMemo asked) (requests : List (GraphRequest World))
    (world : World) :
    (graph.run requests world).1.IsMemo (asked ++ graph.namesForAll requests world) :=
  (graph.run_sameTypes requests world).isMemo (memo.lookUpAll _)

theorem descriptors_run (graph : TypeGraph World) (requests : List (GraphRequest World))
    (world : World) : (graph.run requests world).1.descriptors = graph.descriptors := by
  rw [(graph.run_sameTypes requests world).descriptors, descriptors_lookUpAll]

theorem bindings_run (graph : TypeGraph World) (requests : List (GraphRequest World))
    (world : World) : (graph.run requests world).1.bindings = graph.bindings := by
  rw [(graph.run_sameTypes requests world).bindings, bindings_lookUpAll]

/-- What came of a type is never replaced. -/
theorem slots_run {key : String} {held : Realized World} (found : graph.slots.get? key = some held)
    (requests : List (GraphRequest World)) (world : World) :
    (graph.run requests world).1.slots.get? key = some held := by
  rw [(graph.run_sameTypes requests world).slots]
  exact slots_lookUpAll _ found

/-- Every realization adds a slot, and no other slots are added. -/
theorem keys_run (graph : TypeGraph World) (requests : List (GraphRequest World)) (world : World) :
    (graph.run requests world).1.slots.keys =
      graph.slots.keys ++ graph.realizations requests world := by
  induction requests generalizing graph world with
  | nil => simp [TypeGraph.run, realizations]
  | cons request rest ih =>
      rw [TypeGraph.run, realizations, ih, (graph.step_sameTypes request world).slots,
        keys_lookUpAll, List.append_assoc]

section Described

variable (described : ∀ entry ∈ graph.descriptors.types.entries, entry.2 ≠ [])

include described

theorem lookUp_eq_unknownType_iff (memo : graph.IsMemo asked) (name : String) :
    (∃ quoted, (graph.lookUp name).1 = .error (.unknownType quoted)) ↔
      IsUnknown graph.descriptors name := by
  have finds := graph.finds_lookUp name
  generalize (graph.lookUp name).1 = realized at finds ⊢
  generalize (graph.lookUp name).2 = after at finds
  rw [IsUnknown, ← DescriptorSet.partials_eq_nil_iff described]
  cases finds with
  | builtin found =>
      constructor
      · intro refused
        simp at refused
      · intro unknown
        rw [TypeNode.builtin?_eq_none unknown.1] at found
        cases found
  | unknown notBuiltin undescribed =>
      rw [TypeNode.builtin?_eq_none_iff, Ascii.foldCase_foldCase] at notBuiltin
      simpa [undescribed] using notBuiltin
  | kept notBuiltin someThere found =>
      rcases (memo.held _ _ found).2 with ⟨first, isFirst, id, rfl⟩
      have partials := (foldCase_of_firstAsked isFirst).2
      simp [someThere, TypeNode.ofPartials_ne_unknownType partials]
  | created notBuiltin someThere new =>
      simp [someThere, create, TypeNode.ofPartials_ne_unknownType someThere]

theorem IsMemo.memoizes (memo : graph.IsMemo asked) : graph.Memoizes graph.descriptors where
  distinct := graph.slots.distinct
  keys := by
    intro key key_mem
    rcases Option.isSome_iff_exists.mp ((graph.slots.get?_isSome_iff key).mpr key_mem) with
      ⟨realized, found⟩
    rcases memo.held key realized found with ⟨notBuiltin, name, isFirst, -⟩
    obtain ⟨rfl, someThere⟩ := foldCase_of_firstAsked isFirst
    constructor
    · by_contra none
      apply someThere
      rw [DescriptorSet.partials_eq_nil_iff described]
      simpa using none
    · rw [TypeNode.builtin?_eq_none_iff, Ascii.foldCase_foldCase] at notBuiltin
      exact notBuiltin
  created := by
    rw [← List.length_map TypeNode.id, memo.numbered, List.length_range']
  identities := memo.nodup_ids
  builtinIdentities := by
    intro node node_mem name builtin found
    have id_mem : node.id ∈ graph.nodes.map TypeNode.id := List.mem_map_of_mem node_mem
    rw [memo.numbered, List.mem_range'_1] at id_mem
    have builtin_lt := TypeNode.id_lt_of_builtin? found
    omega
  unknown := lookUp_eq_unknownType_iff described memo

end Described

theorem IsMemo.mapError_quoting (memo : graph.IsMemo asked) {key : String} {held : Realized World}
    (found : graph.slots.get? key = some held) (name : String) :
    held.mapError (AssemblyError.quoting name) = held := by
  rcases (memo.held key held found).2 with ⟨first, isFirst, id, rfl⟩
  have someThere := (foldCase_of_firstAsked isFirst).2
  cases made : TypeNode.ofPartials graph.bindings id first
      (graph.descriptors.partials first) with
  | ok node => rfl
  | error error =>
      have known : ∀ unknown, error ≠ .unknownType unknown := by
        rintro unknown rfl
        exact TypeNode.ofPartials_ne_unknownType someThere made
      cases error with
      | unknownType unknown => exact absurd rfl (known unknown)
      | _ => rfl

section Again

variable {later : TypeGraph World} {first second : String}
  (described : ∀ entry ∈ graph.descriptors.types.entries, entry.2 ≠ [])
  (same : Ascii.foldCase first = Ascii.foldCase second)

include described same

theorem partials_eq_nil_congr :
    graph.descriptors.partials first = [] ↔ graph.descriptors.partials second = [] := by
  rw [DescriptorSet.partials_eq_nil_iff described, DescriptorSet.partials_eq_nil_iff described,
    same]

/-- The answer to a lookup stands: later on, in any case of the name, it is the same. -/
theorem lookUp_again (memo : later.IsMemo asked)
    (descriptors : later.descriptors = graph.descriptors)
    (kept : ∀ key held, (graph.lookUp first).2.slots.get? key = some held →
      later.slots.get? key = some held) :
    (later.lookUp second).1 = (graph.lookUp first).1.mapError (AssemblyError.quoting second) := by
  have nothing := partials_eq_nil_congr described same
  rw [← descriptors] at nothing
  cases builtin : (TypeNode.builtin? (Ascii.foldCase first) : Option (TypeNode World)) with
  | some node =>
      rw [lookUp_of_builtin builtin]
      rw [same] at builtin
      exact lookUp_of_builtin builtin
  | none =>
      by_cases unknown : graph.descriptors.partials first = []
      · rw [lookUp_of_unknown builtin unknown]
        rw [same] at builtin
        rw [← descriptors] at unknown
        exact lookUp_of_unknown builtin (nothing.mp unknown)
      · have found := kept _ _ (slot_lookUp builtin unknown)
        rw [memo.mapError_quoting found]
        rw [same] at builtin found
        rw [← descriptors] at unknown
        exact lookUp_of_kept builtin (mt nothing.mpr unknown) found

end Again

/-- After any requests, the types of a graph are those that were realized, each once. What came of
them stays, and so do the answers to lookups, whatever is asked for in between. -/
theorem memoizes_run {descriptors : DescriptorSet}
    (described : ∀ entry ∈ descriptors.types.entries, entry.2 ≠ []) (bindings : Bindings World)
    (registry : HandlerRegistry World) (roots : RootNames) (requests : List (GraphRequest World))
    (world : World) :
    let start := ofDescriptors descriptors bindings registry roots
    let now := (start.run requests world).1
    now.Memoizes descriptors ∧
      start.realizations requests world = now.slots.keys ∧
      (∀ key held, now.slots.get? key = some held → ∀ later there,
        (now.run later there).1.slots.get? key = some held) ∧
      ∀ first second, Ascii.foldCase first = Ascii.foldCase second → ∀ later there,
        ((((now.lookUp first).2.run later there).1).lookUp second).1 =
          (now.lookUp first).1.mapError (AssemblyError.quoting second) := by
  intro start now
  have ofStart : now.descriptors = descriptors := descriptors_run start requests world
  have memo : now.IsMemo ([] ++ start.namesForAll requests world) :=
    (isMemo_ofDescriptors descriptors bindings registry roots).run requests world
  rw [← ofStart] at described
  refine ⟨?memoizes, ?realizations, ?slots, ?again⟩
  case memoizes =>
    rw [← ofStart]
    exact memo.memoizes described
  case realizations => exact (keys_run start requests world).symm
  case slots =>
    intro key held found later there
    exact slots_run found later there
  case again =>
    intro first second same later there
    apply lookUp_again described same
    · exact (memo.lookUp first).run later there
    · rw [descriptors_run, (now.finds_lookUp first).descriptors_eq]
    · intro key held found
      exact slots_run found later there

/-- An enum without values. -/
def emptyEnum (name : String) : TypeDescriptor := ⟨name, none, "status", [], .enum .empty⟩

/-- Two types whose names differ in case only. -/
def twoCases : DescriptorSet :=
  .ofTables [((DescriptorTable.empty "status").push (emptyEnum "Status")).push (emptyEnum "STATUS")]

theorem memoizes_run_twoCases :
    let start := ofDescriptors twoCases (.empty : Bindings Unit) (.ofCatalog .empty) .standard
    let now := (start.run [.type "status", .serialize "STATUS" .null, .type "string"] ()).1
    twoCases.types.keys = ["Status", "STATUS"] ∧
      (∀ entry ∈ twoCases.types.entries, entry.2 ≠ []) ∧
      now.slots.keys = ["status"] ∧
      now.Memoizes twoCases ∧
      ∀ later there, ((((now.lookUp "STATUS").2.run later there).1).lookUp "Status").1 =
        (now.lookUp "STATUS").1.mapError (AssemblyError.quoting "Status") := by
  have described : ∀ entry ∈ twoCases.types.entries, entry.2 ≠ [] := by
    have all : (twoCases.types.entries.all fun entry => !entry.2.isEmpty) = true := by
      decide +kernel
    simpa using all
  intro start now
  have memoized := memoizes_run described (.empty : Bindings Unit) (.ofCatalog .empty) .standard
    [.type "status", .serialize "STATUS" .null, .type "string"] ()
  refine ⟨by decide +kernel, described, by decide +kernel, memoized.1, ?_⟩
  exact memoized.2.2.2 "STATUS" "Status" (by decide +kernel)

end TypeGraph

end WiredGraph
