import WiredGraph.Proofs.Graph.Building
import WiredGraph.Proofs.Graph.Memoization

/-!
# Accesses to fields

A request for the value of a field that the type has is an access. What happens when its resolver
is asked for is written down, for all accesses in the order in which a graph serves them. The chains
of the graph hold what these notes say, so each access can be told from the ones before it.
-/

namespace WiredGraph

variable {World : Type}

/-- What happened when the value of a field was asked for. -/
structure Access (World : Type) where
  node : TypeNode World
  field : FieldDescriptor
  parent : Json
  arguments : FieldArguments
  context : RequestContext
  /-- The handlers that were registered then. -/
  registry : HandlerRegistry World
  /-- The host's state at the beginning. -/
  start : World
  /-- The resolver map that the producer of the node made, if it ran. -/
  made : Option (ResolverMap World)
  /-- The resolver that came of it, or why there is none. -/
  outcome : Except AssemblyError (FieldResolver World)
  /-- The host's state before the resolver ran. -/
  ready : World
  answer : Except ResolveError Json
  /-- The host's state at the end. -/
  finish : World

namespace Access

/-- What the resolver gives, or the error if there is none. -/
def resolved (access : Access World) : Except ResolveError Json × World :=
  match access.outcome with
  | .ok resolver =>
      resolver access.parent access.arguments access.context
        (TypeGraph.infoFor access.node access.field) access.ready
  | .error error => (.error (.assembly error), access.ready)

end Access

namespace TypeNode

theorem fields_of_builtin? {name : String} {node : TypeNode World}
    (found : builtin? name = some node) : node.fields = .ok .empty := by
  rcases Option.map_eq_some_iff.mp found with ⟨entry, -, rfl⟩
  rfl

end TypeNode

namespace FieldDescriptor

/-- Fields are merged under their own names. -/
theorem name_of_mergeInto {typeName : String} {fields : List FieldDescriptor}
    {merged result : OrderedMap String FieldDescriptor}
    (merges : mergeInto typeName merged fields = .ok result)
    (named : ∀ name field, merged.get? name = some field → field.name = name)
    {name : String} {field : FieldDescriptor} (found : result.get? name = some field) :
    field.name = name := by
  induction fields generalizing merged with
  | nil =>
      cases merges
      exact named name field found
  | cons first rest ih =>
      rw [mergeInto] at merges
      split at merges
      · cases merges
      · apply ih merges
        intro other held here
        rw [OrderedMap.get?_insert] at here
        split at here
        · next same => exact Option.some.inj here ▸ same
        · exact named other held here

end FieldDescriptor

namespace TypeGraph

theorem fieldOf_eq_ok_iff {node : TypeNode World} {name : String} {field : FieldDescriptor} :
    fieldOf node name = .ok field ↔
      ∃ fields, node.fields = .ok fields ∧ fields.get? name = some field := by
  rw [fieldOf, TypeNode.field?]
  cases node.fields with
  | error error => simp [Except.map, bind, Except.bind]
  | ok fields =>
      cases found : fields.get? name <;>
        simp [Except.map, bind, Except.bind, found, pure, Except.pure, throw, throwThe,
          MonadExceptOf.throw]

theorem name_of_fieldOf {node : TypeNode World} {name : String} {field : FieldDescriptor}
    (present : fieldOf node name = .ok field) : field.name = name := by
  rcases fieldOf_eq_ok_iff.mp present with ⟨fields, merges, found⟩
  apply FieldDescriptor.name_of_mergeInto merges _ found
  intro other held none
  simp [OrderedMap.get?, OrderedMap.empty] at none

attribute [local irreducible] lookUp TypeNode.builtin? Ascii.foldCase

/-- A node that has a field stands in the graph. -/
theorem mem_nodes_of_fieldOf {graph : TypeGraph World} {typeName name : String}
    {node : TypeNode World} {field : FieldDescriptor} (found : (graph.lookUp typeName).1 = .ok node)
    (present : fieldOf node name = .ok field) : node ∈ (graph.lookUp typeName).2.nodes := by
  rcases mem_nodes_of_lookUp found with builtin | node_mem
  · rcases fieldOf_eq_ok_iff.mp present with ⟨fields, merged, held⟩
    rw [TypeNode.fields_of_builtin? builtin] at merged
    cases merged
    simp [OrderedMap.get?, OrderedMap.empty] at held
  · exact node_mem

/-- What a request makes happen at a field, if it asks for the value of one. -/
def access? (graph : TypeGraph World) (request : GraphRequest World) (world : World) :
    Option (Access World) :=
  match request with
  | .resolveField typeName name parent arguments context =>
      match (graph.lookUp typeName).1 with
      | .error _ => none
      | .ok node =>
          match fieldOf node name with
          | .error _ => none
          | .ok field =>
              let chain := graph.chains.chainOf node
              let built := chain.resolver graph.bindings graph.registry node.name field world
              let served := graph.resolveField typeName name parent arguments context world
              some {
                node := node
                field := field
                parent := parent
                arguments := arguments
                context := context
                registry := graph.registry
                start := world
                made := (chain.runs field).map fun produce => (produce world).1
                outcome := built.1.1
                ready := built.2
                answer := served.1.1
                finish := served.2 }
  | _ => none

/-- What happens at fields when a graph serves requests, from first to last. -/
def accesses (graph : TypeGraph World) : List (GraphRequest World) → World → List (Access World)
  | [], _ => []
  | request :: rest, world =>
      (graph.access? request world).toList ++
        accesses (graph.step request world).1 rest (graph.step request world).2

/-- How a graph comes to an access, and what becomes of it. -/
structure Accesses (graph : TypeGraph World) (typeName : String) (access : Access World)
    (after : TypeGraph World) : Prop where
  found : (graph.lookUp typeName).1 = .ok access.node
  present : fieldOf access.node access.field.name = .ok access.field
  registry : access.registry = graph.registry
  resolved : (access.answer, access.finish) = access.resolved
  builds : ∃ chain, (graph.chains.chainOf access.node).Builds graph.bindings graph.registry
    access.node.name access.field access.start access.outcome access.made chain access.ready ∧
      after = { (graph.lookUp typeName).2 with chains := graph.chains.put access.node chain }

/-- Looking up the type first makes no difference to how the resolver is built. -/
theorem resolverOf_of_builds {graph : TypeGraph World} {node : TypeNode World}
    {field : FieldDescriptor} {world there : World} {made : Option (ResolverMap World)}
    {outcome : Except AssemblyError (FieldResolver World)} {chain : ResolverChain World}
    (builds : (graph.chains.chainOf node).Builds graph.bindings graph.registry node.name field world
      outcome made chain there) (typeName : String) :
    (graph.lookUp typeName).2.resolverOf node field world =
      ((outcome, { (graph.lookUp typeName).2 with chains := graph.chains.put node chain }),
        there) := by
  have finds := graph.finds_lookUp typeName
  simp only [resolverOf_eq, finds.chains_eq, finds.bindings_eq, finds.registry_eq,
    builds.resolver_eq]

theorem accesses_of_access? {graph : TypeGraph World} {request : GraphRequest World} {world : World}
    {access : Access World} (isAccess : graph.access? request world = some access) :
    ∃ typeName, graph.namesFor world request = [typeName] ∧ access.start = world ∧
      graph.Accesses typeName access (graph.step request world).1 ∧
      (graph.step request world).2 = access.finish := by
  cases request with
  | resolveField typeName name parent arguments context =>
      simp only [access?] at isAccess
      cases found : (graph.lookUp typeName).1 with
      | error error => simp [found] at isAccess
      | ok node =>
          cases present : fieldOf node name with
          | error error => simp [found, present] at isAccess
          | ok field =>
              simp only [found, present, Option.some.injEq] at isAccess
              have known : graph.lookUp typeName = (.ok node, (graph.lookUp typeName).2) :=
                Prod.ext found rfl
              rcases ResolverChain.exists_builds (graph.chains.chainOf node) graph.bindings
                graph.registry node.name field world with ⟨outcome, made, chain, ready, builds⟩
              have resolved := resolverOf_of_builds builds typeName
              rw [builds.resolver_eq, ← builds.made_eq] at isAccess
              subst isAccess
              obtain rfl := name_of_fieldOf present
              refine ⟨typeName, rfl, rfl, ⟨found, present, rfl, ?_, ?_⟩, rfl⟩
              · cases outcome with
                | error error =>
                    rw [resolveField_of_unbuilt known present resolved]
                    rfl
                | ok resolver =>
                    rw [resolveField_of_built known present resolved]
                    rfl
              · refine ⟨chain, builds, ?_⟩
                change
                  (graph.resolveField typeName field.name parent arguments context world).1.2 = _
                cases outcome with
                | error error => rw [resolveField_of_unbuilt known present resolved]
                | ok resolver => rw [resolveField_of_built known present resolved]
  | _ => cases isAccess

/-- Requests that are no accesses leave all chains as they are. -/
theorem chains_step_of_no_access {graph : TypeGraph World} {request : GraphRequest World}
    {world : World} (noAccess : graph.access? request world = none) :
    (graph.step request world).1.chains = graph.chains := by
  by_cases onlyLooksUp : request.OnlyLooksUp
  · rw [step_of_onlyLooksUp onlyLooksUp, chains_lookUpAll]
  · cases request with
    | register name source =>
        change (graph.register name source world).1.2.chains = graph.chains
        rw [register_eq]
        rcases graph.registry.register name source world with ⟨error | registry, there⟩ <;> rfl
    | resolveField typeName name parent arguments context =>
        change (graph.resolveField typeName name parent arguments context world).1.2.chains = _
        simp only [access?] at noAccess
        have kept := (graph.finds_lookUp typeName).chains_eq
        rcases found : graph.lookUp typeName with ⟨error | node, after⟩
        · rw [found] at kept
          rw [resolveField_of_error found]
          exact kept
        · cases present : fieldOf node name with
          | error error =>
              rw [found] at kept
              rw [resolveField_of_fieldless found present]
              exact kept
          | ok field => simp [found, present] at noAccess
    | _ => exact absurd trivial onlyLooksUp

/-- Where no field is accessed, asking for the value of one runs nothing of the host. -/
theorem world_of_no_access {graph : TypeGraph World} {typeName field : String} {parent : Json}
    {arguments : FieldArguments} {context : RequestContext} {world : World}
    (noAccess :
      graph.access? (.resolveField typeName field parent arguments context) world = none) :
    (graph.resolveField typeName field parent arguments context world).2 = world := by
  simp only [access?] at noAccess
  rcases found : graph.lookUp typeName with ⟨error | node, after⟩
  · rw [resolveField_of_error found]
  · cases present : fieldOf node field with
    | error error => rw [resolveField_of_fieldless found present]
    | ok descriptor => simp [found, present] at noAccess

end TypeGraph

end WiredGraph
