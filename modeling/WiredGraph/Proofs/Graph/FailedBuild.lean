import WiredGraph.Proofs.Graph.BuiltOnce

/-!
# Failed builds leave no trace

An access that gets no resolver looks up the type, and may have made its resolver map. A graph that
has done no more than that gives the same answers to all later requests. To show this, two graphs
are run side by side that have the same types and handlers and chains that are alike.
-/

namespace WiredGraph

variable {World : Type}

namespace TypeGraph

attribute [local irreducible] lookUp TypeNode.builtin? Ascii.foldCase

/-- The answers to requests, from first to last, and the host's state after them. -/
def answers (graph : TypeGraph World) :
    List (GraphRequest World) → World → List (GraphAnswer World) × World
  | [], world => ([], world)
  | request :: rest, world =>
      let later := answers (graph.step request world).1 rest (graph.step request world).2
      ((graph.serve request world).1.1 :: later.1, later.2)

namespace SameTypes

variable {graph other : TypeGraph World}

theorem exists_lookUp (same : graph.SameTypes other) (name : String) :
    ∃ realized after otherAfter, graph.lookUp name = (realized, after) ∧
      other.lookUp name = (realized, otherAfter) ∧ after.SameTypes otherAfter := by
  rcases same.lookUp name with ⟨sameAnswer, sameAfter⟩
  exact ⟨(graph.lookUp name).1, (graph.lookUp name).2, (other.lookUp name).2, rfl,
    Prod.ext sameAnswer.symm rfl, sameAfter⟩

theorem namesFor_eq (same : graph.SameTypes other) (world : World) (request : GraphRequest World) :
    graph.namesFor world request = other.namesFor world request := by
  cases request <;>
    simp only [namesFor, same.roots, same.descriptors, (same.lookUp _).1]

theorem rootTypes_fst (same : graph.SameTypes other) : graph.rootTypes.1 = other.rootTypes.1 := by
  rcases same.exists_lookUp graph.roots.query with
    ⟨error | query, after, otherAfter, found, otherFound, sameAfter⟩
  · rw [rootTypes, rootTypes, ← same.roots, found, otherFound]
  · rw [rootTypes, rootTypes, ← same.roots, found, otherFound]
    simp only [← sameAfter.roots, ← sameAfter.descriptors]
    cases after.roots.mutation.filter fun name => !(after.descriptors.partials name).isEmpty with
    | none => rfl
    | some name =>
        rcases sameAfter.exists_lookUp name with
          ⟨error | mutation, last, otherLast, found, otherFound, -⟩ <;>
          simp only [found, otherFound]

theorem resolveType_eq (same : graph.SameTypes other) (typeName : String) (value : Json)
    (context : RequestContext) (world : World) :
    (graph.resolveType typeName value context world).1.1 =
        (other.resolveType typeName value context world).1.1 ∧
      (graph.resolveType typeName value context world).2 =
        (other.resolveType typeName value context world).2 := by
  rcases same.exists_lookUp typeName with
    ⟨error | node, after, otherAfter, found, otherFound, sameAfter⟩
  · rw [resolveType_of_error found, resolveType_of_error otherFound]
    exact ⟨rfl, rfl⟩
  · rw [resolveType_of_ok found, resolveType_of_ok otherFound]
    rcases (node.concreteType value context world).1 with _ | name
    · exact ⟨rfl, rfl⟩
    · exact ⟨congrArg (Except.map some) (sameAfter.lookUp name).1, rfl⟩

theorem convert_eq (same : graph.SameTypes other) (typeName : String)
    (conversion : TypeNode World → Attempt World Json) (world : World) :
    (graph.convert typeName conversion world).1.1 = (other.convert typeName conversion world).1.1 ∧
      (graph.convert typeName conversion world).2 =
        (other.convert typeName conversion world).2 := by
  rw [TypeGraph.convert_eq, TypeGraph.convert_eq]
  rcases same.exists_lookUp typeName with
    ⟨error | node, after, otherAfter, found, otherFound, -⟩ <;>
    rw [found, otherFound] <;> exact ⟨rfl, rfl⟩

/-- Types are enough to answer requests that only look them up. -/
theorem serve_eq (same : graph.SameTypes other) {request : GraphRequest World}
    (onlyLooksUp : request.OnlyLooksUp) (world : World) :
    (graph.serve request world).1.1 = (other.serve request world).1.1 ∧
      (graph.serve request world).2 = (other.serve request world).2 := by
  cases request with
  | type name => exact ⟨congrArg GraphAnswer.type (same.lookUp name).1, rfl⟩
  | rootTypes => exact ⟨congrArg GraphAnswer.rootTypes same.rootTypes_fst, rfl⟩
  | resolveField typeName field parent arguments context => cases onlyLooksUp
  | resolveType typeName value context =>
      have answered := same.resolveType_eq typeName value context world
      exact ⟨congrArg GraphAnswer.concreteType answered.1, answered.2⟩
  | serialize typeName value =>
      have answered := same.convert_eq typeName (·.serialize value) world
      exact ⟨congrArg GraphAnswer.value answered.1, answered.2⟩
  | parseValue typeName value =>
      have answered := same.convert_eq typeName (·.parseValue value) world
      exact ⟨congrArg GraphAnswer.value answered.1, answered.2⟩
  | parseLiteral typeName value =>
      have answered := same.convert_eq typeName (·.parseLiteral value) world
      exact ⟨congrArg GraphAnswer.value answered.1, answered.2⟩
  | enumValue typeName name =>
      have answered : (graph.enumValue typeName name).1 = (other.enumValue typeName name).1 := by
        rw [enumValue, enumValue]
        exact congrArg (Except.map fun node => node.enumValue? name) (same.lookUp typeName).1
      exact ⟨congrArg GraphAnswer.enumValue answered, rfl⟩
  | register name source => cases onlyLooksUp

end SameTypes

/-- Two graphs that cannot be told apart, by the chains of the nodes which they have or may still
make. -/
structure Alike (graph other : TypeGraph World) : Prop where
  types : graph.SameTypes other
  registry : graph.registry = other.registry
  chains : ∀ node, node ∈ graph.nodes ∨ graph.nextId ≤ node.id →
    (graph.chains.chainOf node).Alike (other.chains.chainOf node)

namespace Alike

variable {graph other : TypeGraph World}

@[refl]
theorem refl (graph : TypeGraph World) : graph.Alike graph where
  types := .refl graph
  registry := rfl
  chains := fun _ _ => .refl _

theorem lookUp (alike : graph.Alike other) (name : String) :
    (graph.lookUp name).2.Alike (other.lookUp name).2 where
  types := (alike.types.lookUp name).2
  registry := by
    rw [(graph.finds_lookUp name).registry_eq, (other.finds_lookUp name).registry_eq]
    exact alike.registry
  chains := by
    intro node known
    rw [(graph.finds_lookUp name).chains_eq, (other.finds_lookUp name).chains_eq]
    apply alike.chains
    rcases known with node_mem | late
    · exact (graph.grows_lookUp name).new node node_mem
    · exact .inr ((graph.grows_lookUp name).nextId.trans late)

theorem lookUpAll (alike : graph.Alike other) (names : List String) :
    (graph.lookUpAll names).Alike (other.lookUpAll names) := by
  induction names generalizing graph other with
  | nil => exact alike
  | cons name rest ih =>
      rw [TypeGraph.lookUpAll, TypeGraph.lookUpAll]
      exact ih (alike.lookUp name)

theorem put (alike : graph.Alike other) (node : TypeNode World)
    {chain otherChain : ResolverChain World} (alikeChain : chain.Alike otherChain) :
    { graph with chains := graph.chains.put node chain }.Alike
      { other with chains := other.chains.put node otherChain } where
  types := ⟨alike.types.descriptors, alike.types.bindings, alike.types.roots, alike.types.slots,
    alike.types.created⟩
  registry := alike.registry
  chains := by
    intro given known
    simp only [ResolverChains.chainOf, ResolverChains.put, OrderedMap.get?_insert]
    split
    · exact alikeChain
    · exact alike.chains given known

/-- The value of a field is the same in graphs that are alike, and they stay alike. -/
theorem resolveField (alike : graph.Alike other) (typeName field : String) (parent : Json)
    (arguments : FieldArguments) (context : RequestContext) (world : World) :
    let served := graph.resolveField typeName field parent arguments context world
    let otherServed := other.resolveField typeName field parent arguments context world
    served.1.1 = otherServed.1.1 ∧ served.2 = otherServed.2 ∧ served.1.2.Alike otherServed.1.2 := by
  have alikeAfter := alike.lookUp typeName
  rcases alike.types.exists_lookUp typeName with
    ⟨error | node, after, otherAfter, found, otherFound, -⟩
  · rw [found, otherFound] at alikeAfter
    rw [resolveField_of_error found, resolveField_of_error otherFound]
    exact ⟨rfl, rfl, alikeAfter⟩
  · cases present : fieldOf node field with
    | error error =>
        rw [found, otherFound] at alikeAfter
        rw [resolveField_of_fieldless found present, resolveField_of_fieldless otherFound present]
        exact ⟨rfl, rfl, alikeAfter⟩
    | ok descriptor =>
        have node_mem := mem_nodes_of_fieldOf (by rw [found]) present
        have alikeChain := alike.chains node ((graph.grows_lookUp typeName).new node node_mem)
        rcases ResolverChain.exists_builds (graph.chains.chainOf node) graph.bindings graph.registry
          node.name descriptor world with ⟨outcome, made, chain, ready, builds⟩
        rcases alikeChain.exists_builds builds with ⟨otherChain, otherBuilds, alikeChain⟩
        have resolved := resolverOf_of_builds builds typeName
        rw [alike.types.bindings, alike.registry] at otherBuilds
        have otherResolved := resolverOf_of_builds otherBuilds typeName
        have alikeLast := alikeAfter.put node alikeChain
        rw [(graph.finds_lookUp typeName).chains_eq, (other.finds_lookUp typeName).chains_eq]
          at alikeLast
        rw [found] at resolved alikeLast
        rw [otherFound] at otherResolved alikeLast
        cases outcome with
        | error error =>
            rw [resolveField_of_unbuilt found present resolved,
              resolveField_of_unbuilt otherFound present otherResolved]
            exact ⟨rfl, rfl, alikeLast⟩
        | ok resolver =>
            rw [resolveField_of_built found present resolved,
              resolveField_of_built otherFound present otherResolved]
            exact ⟨rfl, rfl, alikeLast⟩

theorem register (alike : graph.Alike other) (name : String) (source : HandlerSource World)
    (world : World) :
    let served := graph.register name source world
    let otherServed := other.register name source world
    served.1.1 = otherServed.1.1 ∧ served.2 = otherServed.2 ∧ served.1.2.Alike otherServed.1.2 := by
  rw [register_eq, register_eq, ← alike.registry]
  rcases graph.registry.register name source world with ⟨error | registry, there⟩
  · exact ⟨rfl, rfl, alike⟩
  · have types := alike.types
    exact ⟨rfl, rfl, ⟨types.descriptors, types.bindings, types.roots, types.slots, types.created⟩,
      rfl, alike.chains⟩

/-- Graphs that are alike answer a request in the same way, and stay alike. -/
theorem serve (alike : graph.Alike other) (request : GraphRequest World) (world : World) :
    let served := graph.serve request world
    let otherServed := other.serve request world
    served.1.1 = otherServed.1.1 ∧ served.2 = otherServed.2 ∧ served.1.2.Alike otherServed.1.2 := by
  by_cases onlyLooksUp : request.OnlyLooksUp
  · rcases alike.types.serve_eq onlyLooksUp world with ⟨answered, there⟩
    refine ⟨answered, there, ?_⟩
    change (graph.step request world).1.Alike (other.step request world).1
    rw [step_of_onlyLooksUp onlyLooksUp, step_of_onlyLooksUp onlyLooksUp,
      ← alike.types.namesFor_eq]
    exact alike.lookUpAll _
  · cases request with
    | resolveField typeName field parent arguments context =>
        rcases alike.resolveField typeName field parent arguments context world with
          ⟨answered, there, after⟩
        exact ⟨congrArg GraphAnswer.value answered, there, after⟩
    | register name source =>
        rcases alike.register name source world with ⟨answered, there, after⟩
        exact ⟨congrArg GraphAnswer.registered answered, there, after⟩
    | _ => exact absurd trivial onlyLooksUp

theorem answers_eq (alike : graph.Alike other) (requests : List (GraphRequest World))
    (world : World) : graph.answers requests world = other.answers requests world := by
  induction requests generalizing graph other world with
  | nil => rfl
  | cons request rest ih =>
      rcases alike.serve request world with ⟨answered, there, after⟩
      have there : (graph.step request world).2 = (other.step request world).2 := there
      have after : (graph.step request world).1.Alike (other.step request world).1 := after
      rw [answers, answers, answered, ih after, there]

end Alike

/-- The graph that has looked up what a request needs and, if a resolver map was made for the field
that it accesses, keeps that. -/
def prepared (graph : TypeGraph World) (request : GraphRequest World) (world : World)
    (access : Access World) : TypeGraph World :=
  let known := graph.lookUpAll (graph.namesFor world request)
  match access.made with
  | none => known
  | some map =>
      { known with chains :=
          graph.chains.put access.node ((graph.chains.chainOf access.node).withBase map) }

/-- A chain in place of one that is alike makes no difference. -/
theorem Recorded.alike_put {graph : TypeGraph World} {log : List (Access World)}
    (recorded : graph.Recorded log) {node : TypeNode World} (node_mem : node ∈ graph.nodes)
    {chain : ResolverChain World} (alike : chain.Alike (graph.chains.chainOf node)) :
    { graph with chains := graph.chains.put node chain }.Alike graph where
  types := ⟨rfl, rfl, rfl, rfl, rfl⟩
  registry := rfl
  chains := by
    intro given known
    simp only [ResolverChains.chainOf, ResolverChains.put, OrderedMap.get?_insert]
    split
    · next same =>
        rcases known with given_mem | late
        · obtain rfl := recorded.eq_of_id_eq node_mem given_mem same
          exact alike
        · have early := recorded.id_lt node_mem
          simp only [nextId] at late early
          omega
    · exact .refl _

/-- An access without a resolver has done no more than to prepare for it. -/
theorem Recorded.alike_of_failed {graph : TypeGraph World} {log : List (Access World)}
    (recorded : graph.Recorded log) {request : GraphRequest World} {world : World}
    {access : Access World} (isAccess : graph.access? request world = some access)
    {error : AssemblyError} (failed : access.outcome = .error error) :
    (graph.step request world).1.Alike (graph.prepared request world access) := by
  rcases accesses_of_access? isAccess with ⟨typeName, names, -, accesses, -⟩
  rcases accesses.builds with ⟨chain, builds, after⟩
  have chains := (graph.finds_lookUp typeName).chains_eq
  rw [failed] at builds
  have alike := builds.alike_of_error
  rw [after, prepared, names]
  simp only [lookUpAll]
  cases made : access.made with
  | none =>
      rw [made, ← chains] at alike
      rw [← chains]
      apply (recorded.lookUp typeName).alike_put _ alike
      exact mem_nodes_of_fieldOf accesses.found accesses.present
  | some map =>
      rw [made] at alike
      rw [← chains] at alike ⊢
      exact (Alike.refl _).put access.node alike

/-- Resolvers are built once, and builds that fail leave no trace. Each access to a field, among all
requests that a graph serves, comes out as it has to after the accesses before it: it runs the
resolver that was first built for the field, or builds one with the handlers that are registered by
then. It gets one if nothing but handlers was missing before and they are registered now. After an
access that gets none, all later requests are answered as if it had only been prepared for. Where
the value of a field is asked for that is not there, nothing of the host runs. -/
theorem builtOnce_run (descriptors : DescriptorSet) (bindings : Bindings World)
    (registry : HandlerRegistry World) (roots : RootNames) (requests : List (GraphRequest World))
    (world : World) :
    let start := ofDescriptors descriptors bindings registry roots
    (∀ before access after, start.accesses requests world = before ++ access :: after →
      access.Follows bindings before ∧
        ∀ earlier ∈ before, earlier.node = access.node → earlier.field = access.field →
          ∀ name, earlier.outcome = .error (.unknownDirective name) →
            (∀ directive ∈ access.field.directives,
              access.registry.contains directive.name = true) →
              ∃ resolver, access.outcome = .ok resolver) ∧
      let now := (start.run requests world).1
      let there := (start.run requests world).2
      (∀ request access error,
        now.access? request there = some access → access.outcome = .error error →
          ∀ later elsewhere, (now.step request there).1.answers later elsewhere =
            (now.prepared request there access).answers later elsewhere) ∧
      ∀ typeName field parent arguments context,
        let request := .resolveField typeName field parent arguments context
        now.access? request there = none → (now.step request there).2 = there := by
  intro start
  have recorded : start.Recorded [] := recorded_ofDescriptors descriptors bindings registry roots
  have orderly : Access.Orderly bindings (start.accesses requests world) :=
    recorded.orderly .nil requests world
  refine ⟨?follows, ?failed, ?missing⟩
  case follows =>
    intro before access after split
    refine ⟨orderly.follows split, ?_⟩
    intro earlier earlier_mem forNode ofField name unregistered registered
    exact orderly.recovers split earlier_mem forNode ofField unregistered registered
  case failed =>
    intro request access error isAccess failed later elsewhere
    exact ((recorded.run requests world).alike_of_failed isAccess failed).answers_eq later elsewhere
  case missing =>
    intro typeName field parent arguments context request noAccess
    exact world_of_no_access noAccess

/-- A type with a field that is for those who are let in. -/
def guardedUser : DescriptorSet :=
  .ofTables [(DescriptorTable.empty "users").push
    ⟨"User", none, "users", [], .object
      [⟨"id", .named "ID", none, none, none, [⟨"auth", .empty⟩], []⟩]
      (some (.constructor "Users")) []⟩]

/-- Bindings whose resolver map counts how often it is made. -/
def countedUsers : Bindings Nat :=
  Bindings.empty.bindConstructor "Users" (.resolverMap fun count =>
    (OrderedMap.empty.insert "id" (FieldResolver.constant (.string "1")), count + 1))

/-- A field is asked for before its handler is registered, after that, and once more when the
handler has been replaced. -/
def askThreeTimes : List (GraphRequest Nat) :=
  let ask := .resolveField "User" "id" .null .empty .empty
  [ask, .register "auth" (.callable fun _ _ next => next), ask,
    .register "auth" (.callable fun _ _ _ => pure .null), ask]

theorem builtOnce_run_askThreeTimes :
    let start := ofDescriptors guardedUser countedUsers (.ofCatalog .empty) .standard
    let log := start.accesses askThreeTimes 0
    log.map (fun access => access.outcome.isOk) = [false, true, true] ∧
      log.map (fun access => access.made.isSome) = [true, false, false] ∧
      (start.run askThreeTimes 0).2 = 1 ∧
      ∀ before access after, log = before ++ access :: after →
        access.Follows countedUsers before := by
  have outcomes : ((ofDescriptors guardedUser countedUsers (.ofCatalog .empty) .standard).accesses
      askThreeTimes 0).map (fun access => access.outcome.isOk) = [false, true, true] := by
    decide +kernel
  have made : ((ofDescriptors guardedUser countedUsers (.ofCatalog .empty) .standard).accesses
      askThreeTimes 0).map (fun access => access.made.isSome) = [true, false, false] := by
    decide +kernel
  intro start log
  have built := builtOnce_run guardedUser countedUsers (.ofCatalog .empty) .standard askThreeTimes 0
  refine ⟨outcomes, made, by decide +kernel, ?_⟩
  intro before access after split
  exact (built.1 before access after split).1

end TypeGraph

end WiredGraph
