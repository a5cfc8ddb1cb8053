import WiredGraph.Proofs.Graph.Lookup

/-!
# Requests to a graph

A graph serves requests one after another. Serving one may realize types, build resolvers and
register handlers, but what becomes of the types depends only on the names that are looked up
meanwhile. Facts about the types are therefore shown for lookups, and hold after all requests.
-/

namespace WiredGraph

/-- What a graph can be asked for. -/
inductive GraphRequest (World : Type) where
  | type (name : String)
  | rootTypes
  | resolveField (typeName field : String) (parent : Json) (arguments : FieldArguments)
      (context : RequestContext)
  | resolveType (typeName : String) (value : Json) (context : RequestContext)
  | serialize (typeName : String) (value : Json)
  | parseValue (typeName : String) (value : Json)
  | parseLiteral (typeName : String) (value : Json)
  | enumValue (typeName name : String)
  | register (name : String) (source : HandlerSource World)

/-- A request that neither needs the resolver of a field nor registers a handler. -/
def GraphRequest.OnlyLooksUp {World : Type} : GraphRequest World → Prop
  | .resolveField .. => False
  | .register .. => False
  | _ => True

/-- What a graph answers to a request, by the kind of the request. -/
inductive GraphAnswer (World : Type) where
  | type (realized : Realized World)
  | rootTypes (types : Except AssemblyError (RootTypes World))
  | value (value : Except ResolveError Json)
  | concreteType (node : Except AssemblyError (Option (TypeNode World)))
  | enumValue (value : Except AssemblyError (Option String))
  | registered (outcome : Except AssemblyError Unit)

namespace TypeGraph

variable {World : Type}

attribute [local irreducible] lookUp

/-- What an operation of the graph yields, as the answer to a request. -/
def answerBy {Part : Type} (answer : Part → GraphAnswer World) (outcome : Part × TypeGraph World) :
    GraphAnswer World × TypeGraph World :=
  (answer outcome.1, outcome.2)

/-- The answer to a request, and the graph that has given it. -/
def serve (graph : TypeGraph World) :
    GraphRequest World → HostRun World (GraphAnswer World × TypeGraph World)
  | .type name => return answerBy .type (graph.lookUp name)
  | .rootTypes => return answerBy .rootTypes graph.rootTypes
  | .resolveField typeName field parent arguments context =>
      answerBy .value <$> graph.resolveField typeName field parent arguments context
  | .resolveType typeName value context =>
      answerBy .concreteType <$> graph.resolveType typeName value context
  | .serialize typeName value => answerBy .value <$> graph.serialize typeName value
  | .parseValue typeName value => answerBy .value <$> graph.parseValue typeName value
  | .parseLiteral typeName value => answerBy .value <$> graph.parseLiteral typeName value
  | .enumValue typeName name => return answerBy .enumValue (graph.enumValue typeName name)
  | .register name source => answerBy .registered <$> graph.register name source

/-- The graph that has served a request. -/
def step (graph : TypeGraph World) (request : GraphRequest World) (world : World) :
    TypeGraph World × World :=
  ((graph.serve request world).1.2, (graph.serve request world).2)

/-- The graph that has served some requests, from first to last. -/
def run (graph : TypeGraph World) :
    List (GraphRequest World) → World → TypeGraph World × World
  | [], world => (graph, world)
  | request :: rest, world =>
      run (graph.step request world).1 rest (graph.step request world).2

/-- The names that are looked up to serve a request. -/
def namesFor (graph : TypeGraph World) (world : World) : GraphRequest World → List String
  | .type name => [name]
  | .rootTypes =>
      match (graph.lookUp graph.roots.query).1 with
      | .error _ => [graph.roots.query]
      | .ok _ => graph.roots.query ::
          (graph.roots.mutation.filter fun name =>
            !(graph.descriptors.partials name).isEmpty).toList
  | .resolveField typeName .. => [typeName]
  | .resolveType typeName value context =>
      match (graph.lookUp typeName).1 with
      | .error _ => [typeName]
      | .ok node => typeName :: (node.concreteType value context world).1.toList
  | .serialize typeName _ => [typeName]
  | .parseValue typeName _ => [typeName]
  | .parseLiteral typeName _ => [typeName]
  | .enumValue typeName _ => [typeName]
  | .register .. => []

/-- The names that are looked up for requests served one after another. -/
def namesForAll (graph : TypeGraph World) : List (GraphRequest World) → World → List String
  | [], _ => []
  | request :: rest, world =>
      graph.namesFor world request ++
        namesForAll (graph.step request world).1 rest (graph.step request world).2

/-- Two graphs have the same types, realized and not yet realized. They may differ in their
handlers and in the resolvers they have built. -/
structure SameTypes (graph other : TypeGraph World) : Prop where
  descriptors : graph.descriptors = other.descriptors
  bindings : graph.bindings = other.bindings
  roots : graph.roots = other.roots
  slots : graph.slots = other.slots
  created : graph.created = other.created

namespace SameTypes

variable {graph other third : TypeGraph World}

@[simp, refl]
theorem refl (graph : TypeGraph World) : graph.SameTypes graph := ⟨rfl, rfl, rfl, rfl, rfl⟩

theorem trans (first : graph.SameTypes other) (second : other.SameTypes third) :
    graph.SameTypes third :=
  ⟨first.descriptors.trans second.descriptors, first.bindings.trans second.bindings,
    first.roots.trans second.roots, first.slots.trans second.slots,
    first.created.trans second.created⟩

theorem create_eq (same : graph.SameTypes other) (name : String) :
    graph.create name = other.create name := by
  simp only [create, nextId, same.descriptors, same.bindings, same.created]

/-- Graphs with the same types answer a lookup in the same way, and have the same types after it. -/
theorem lookUp (same : graph.SameTypes other) (name : String) :
    (graph.lookUp name).1 = (other.lookUp name).1 ∧
      (graph.lookUp name).2.SameTypes (other.lookUp name).2 := by
  simp only [TypeGraph.lookUp, same.descriptors, same.slots, same.create_eq]
  split
  · exact ⟨rfl, same⟩
  · split
    · exact ⟨rfl, same⟩
    · split
      · exact ⟨rfl, same⟩
      · refine ⟨rfl, same.descriptors, same.bindings, same.roots, ?_, ?_⟩
        · simp only [keep, same.slots]
        · simp only [keep, same.created]

theorem lookUpAll (same : graph.SameTypes other) (names : List String) :
    (graph.lookUpAll names).SameTypes (other.lookUpAll names) := by
  induction names generalizing graph other with
  | nil => exact same
  | cons name rest ih =>
      rw [TypeGraph.lookUpAll, TypeGraph.lookUpAll]
      exact ih (same.lookUp name).2

end SameTypes

section Spec

variable {graph after : TypeGraph World} {typeName : String} {world : World}

theorem resolverOf_eq (graph : TypeGraph World) (node : TypeNode World)
    (field : FieldDescriptor) (world : World) :
    graph.resolverOf node field world =
      let built := (graph.chains.chainOf node).resolver graph.bindings graph.registry node.name
        field world
      ((built.1.1, { graph with chains := graph.chains.put node built.1.2 }), built.2) := by
  unfold resolverOf
  generalize (graph.chains.chainOf node).resolver graph.bindings graph.registry node.name field =
    resolver
  rfl

section ResolveField

variable {field : String} {parent : Json} {arguments : FieldArguments} {context : RequestContext}

theorem resolveField_of_error {error : AssemblyError}
    (found : graph.lookUp typeName = (.error error, after)) :
    graph.resolveField typeName field parent arguments context world =
      ((.error (.assembly error), after), world) := by
  rw [resolveField, found]
  rfl

theorem resolveField_of_fieldless {error : AssemblyError} {node : TypeNode World}
    (found : graph.lookUp typeName = (.ok node, after))
    (missing : fieldOf node field = .error error) :
    graph.resolveField typeName field parent arguments context world =
      ((.error (.assembly error), after), world) := by
  rw [resolveField, found]
  simp only [missing]
  rfl

theorem resolveField_of_unbuilt {error : AssemblyError} {node : TypeNode World}
    {descriptor : FieldDescriptor} {built : TypeGraph World} {there : World}
    (found : graph.lookUp typeName = (.ok node, after))
    (present : fieldOf node field = .ok descriptor)
    (failed : after.resolverOf node descriptor world = ((.error error, built), there)) :
    graph.resolveField typeName field parent arguments context world =
      ((.error (.assembly error), built), there) := by
  rw [resolveField, found]
  simp only [present, bind, StateT.bind, failed]
  rfl

theorem resolveField_of_built {resolver : FieldResolver World} {node : TypeNode World}
    {descriptor : FieldDescriptor} {built : TypeGraph World} {there : World}
    (found : graph.lookUp typeName = (.ok node, after))
    (present : fieldOf node field = .ok descriptor)
    (resolved : after.resolverOf node descriptor world = ((.ok resolver, built), there)) :
    graph.resolveField typeName field parent arguments context world =
      (((resolver parent arguments context (infoFor node descriptor) there).1, built),
        (resolver parent arguments context (infoFor node descriptor) there).2) := by
  rw [resolveField, found]
  simp only [present, bind, StateT.bind, resolved]
  rfl

end ResolveField

theorem resolveType_of_error {error : AssemblyError} {value : Json} {context : RequestContext}
    (found : graph.lookUp typeName = (.error error, after)) :
    graph.resolveType typeName value context world = ((.error error, after), world) := by
  rw [resolveType, found]
  rfl

theorem resolveType_of_ok {node : TypeNode World} {value : Json} {context : RequestContext}
    (found : graph.lookUp typeName = (.ok node, after)) :
    graph.resolveType typeName value context world =
      (match (node.concreteType value context world).1 with
        | none => (.ok none, after)
        | some name => ((after.lookUp name).1.map some, (after.lookUp name).2),
        (node.concreteType value context world).2) := by
  rw [resolveType, found]
  simp only [bind, StateT.bind]
  rcases node.concreteType value context world with ⟨name | name, there⟩ <;> rfl

theorem convert_eq (graph : TypeGraph World) (typeName : String)
    (conversion : TypeNode World → Attempt World Json) (world : World) :
    graph.convert typeName conversion world =
      match graph.lookUp typeName with
      | (.error error, after) => ((.error (.assembly error), after), world)
      | (.ok node, after) => (((conversion node world).1, after), (conversion node world).2) := by
  rw [convert]
  rcases graph.lookUp typeName with ⟨error | node, after⟩ <;> rfl

theorem register_eq (graph : TypeGraph World) (name : String) (source : HandlerSource World)
    (world : World) :
    graph.register name source world =
      match graph.registry.register name source world with
      | (.ok registry, there) => ((.ok (), { graph with registry := registry }), there)
      | (.error error, there) => ((.error error, graph), there) := by
  simp only [register, bind, StateT.bind]
  rcases graph.registry.register name source world with ⟨error | registry, there⟩ <;> rfl

end Spec

theorem convert_snd (graph : TypeGraph World) (typeName : String)
    (conversion : TypeNode World → Attempt World Json) (world : World) :
    (graph.convert typeName conversion world).1.2 = (graph.lookUp typeName).2 := by
  rw [convert_eq]
  rcases graph.lookUp typeName with ⟨error | node, after⟩ <;> rfl

theorem resolveField_sameTypes (graph : TypeGraph World) (typeName field : String) (parent : Json)
    (arguments : FieldArguments) (context : RequestContext) (world : World) :
    (graph.resolveField typeName field parent arguments context world).1.2.SameTypes
      (graph.lookUp typeName).2 := by
  rcases found : graph.lookUp typeName with ⟨error | node, after⟩
  · rw [resolveField_of_error found]
  · cases present : fieldOf node field with
    | error error => rw [resolveField_of_fieldless found present]
    | ok descriptor =>
        have same : (after.resolverOf node descriptor world).1.2.SameTypes after := by
          rw [resolverOf_eq]
          exact ⟨rfl, rfl, rfl, rfl, rfl⟩
        rcases built : after.resolverOf node descriptor world with
          ⟨⟨error | resolver, other⟩, there⟩
        · rw [resolveField_of_unbuilt found present built]
          simpa only [built] using same
        · rw [resolveField_of_built found present built]
          simpa only [built] using same

theorem rootTypes_snd (graph : TypeGraph World) (world : World) :
    graph.rootTypes.2 = graph.lookUpAll (graph.namesFor world .rootTypes) := by
  rw [rootTypes, namesFor]
  rcases found : graph.lookUp graph.roots.query with ⟨error | query, after⟩
  · simp [lookUpAll, found]
  · have described : after.roots = graph.roots ∧ after.descriptors = graph.descriptors := by
      have finds := graph.finds_lookUp graph.roots.query
      rw [found] at finds
      exact ⟨finds.roots_eq, finds.descriptors_eq⟩
    simp only [described.1, described.2, lookUpAll, found]
    cases graph.roots.mutation.filter fun name => !(graph.descriptors.partials name).isEmpty with
    | none => rfl
    | some name =>
        simp only [Option.toList_some, lookUpAll]
        rcases after.lookUp name with ⟨error | mutation, last⟩ <;> rfl

theorem resolveType_snd (graph : TypeGraph World) (typeName : String) (value : Json)
    (context : RequestContext) (world : World) :
    (graph.resolveType typeName value context world).1.2 =
      graph.lookUpAll (graph.namesFor world (.resolveType typeName value context)) := by
  rcases found : graph.lookUp typeName with ⟨error | node, after⟩
  · simp [resolveType_of_error found, namesFor, lookUpAll, found]
  · rw [resolveType_of_ok found]
    simp only [namesFor, found]
    cases (node.concreteType value context world).1 <;> simp [lookUpAll, found]

/-- Requests that neither need a resolver nor register a handler change a graph only by looking up
types. -/
theorem step_of_onlyLooksUp {request : GraphRequest World} (onlyLooksUp : request.OnlyLooksUp)
    (graph : TypeGraph World) (world : World) :
    (graph.step request world).1 = graph.lookUpAll (graph.namesFor world request) := by
  cases request with
  | type name => rfl
  | rootTypes => exact graph.rootTypes_snd world
  | resolveField typeName field parent arguments context => cases onlyLooksUp
  | resolveType typeName value context => exact graph.resolveType_snd typeName value context world
  | serialize typeName value => exact graph.convert_snd typeName _ world
  | parseValue typeName value => exact graph.convert_snd typeName _ world
  | parseLiteral typeName value => exact graph.convert_snd typeName _ world
  | enumValue typeName name => rfl
  | register name source => cases onlyLooksUp

/-- To the types, a request does what looking up its names does. -/
theorem step_sameTypes (graph : TypeGraph World) (request : GraphRequest World) (world : World) :
    (graph.step request world).1.SameTypes (graph.lookUpAll (graph.namesFor world request)) := by
  by_cases onlyLooksUp : request.OnlyLooksUp
  · rw [step_of_onlyLooksUp onlyLooksUp]
  · cases request with
    | resolveField typeName field parent arguments context =>
        exact graph.resolveField_sameTypes typeName field parent arguments context world
    | register name source =>
        change (graph.register name source world).1.2.SameTypes graph
        rw [register_eq]
        rcases graph.registry.register name source world with ⟨error | registry, there⟩
        · exact .refl _
        · exact ⟨rfl, rfl, rfl, rfl, rfl⟩
    | _ => exact absurd trivial onlyLooksUp

/-- To the types, requests do what looking up all of their names does. -/
theorem run_sameTypes (graph : TypeGraph World) (requests : List (GraphRequest World))
    (world : World) :
    (graph.run requests world).1.SameTypes
      (graph.lookUpAll (graph.namesForAll requests world)) := by
  induction requests generalizing graph world with
  | nil => exact .refl _
  | cons request rest ih =>
      rw [namesForAll, lookUpAll_append]
      apply (ih _ _).trans
      exact (graph.step_sameTypes request world).lookUpAll _

end TypeGraph

end WiredGraph
