import WiredGraph.Graph.Chain

/-!
# The type graph

The graph realizes a type when it is first asked for, from the partials of its name, and keeps what
came of it, a node or an error, under the name without regard to case. Names that nothing is known
about are refused each time and not kept. Realizing a type never realizes another one: references
between types are names, and are followed when values are.
-/

namespace WiredGraph

/-- The names of the types that answer operations. -/
structure RootNames where
  query : String
  /-- Without a name there are no mutations. -/
  mutation : Option String
deriving DecidableEq, Repr

namespace RootNames

/-- The names that are used when none are given. -/
def standard : RootNames := ⟨"Query", some "Mutation"⟩

/-- The names that a value gives, and the standard ones for those it leaves out. -/
def ofJson? (value : Json) : Option RootNames := do
  match ← Json.fields? ["query_type", "mutation_type"] value with
  | [query, mutation] =>
      return ⟨← Json.defaulted? Json.asString? standard.query query,
        ← Json.defaulted? (Json.asOption? Json.asString?) standard.mutation mutation⟩
  | _ => none

end RootNames

/-- What came of realizing a type. -/
abbrev Realized (World : Type) := Except AssemblyError (TypeNode World)

/-- The types that answer operations. -/
structure RootTypes (World : Type) where
  query : TypeNode World
  mutation : Option (TypeNode World)

/-- The descriptors and callables of a schema, and what has been made of them so far. -/
structure TypeGraph (World : Type) where
  descriptors : DescriptorSet
  bindings : Bindings World
  registry : HandlerRegistry World
  roots : RootNames
  /-- What came of the types that were asked for, by name in small letters. -/
  slots : OrderedMap String (Realized World)
  /-- Number of nodes that were made. -/
  created : Nat
  chains : ResolverChains World

namespace TypeGraph

variable {World : Type}

/-- The graph in which no type has been realized. -/
def ofDescriptors (descriptors : DescriptorSet) (bindings : Bindings World)
    (registry : HandlerRegistry World) (roots : RootNames) : TypeGraph World where
  descriptors := descriptors
  bindings := bindings
  registry := registry
  roots := roots
  slots := .empty
  created := 0
  chains := .empty

/-- The identity of the next node that is made: those of built-in scalars come first. -/
def nextId (graph : TypeGraph World) : Nat := TypeNode.builtinNames.length + graph.created

/-- Realizes the type of a name. -/
def create (graph : TypeGraph World) (name : String) : Realized World :=
  TypeNode.ofPartials graph.bindings graph.nextId name (graph.descriptors.partials name)

/-- The graph that keeps what came of realizing a type. -/
def keep (graph : TypeGraph World) (key : String) (realized : Realized World) :
    TypeGraph World :=
  { graph with
    slots := graph.slots.insert key realized
    created := if realized.isOk then graph.created + 1 else graph.created }

/-- The type of a name, and the graph in which it is realized. -/
def lookUp (graph : TypeGraph World) (name : String) : Realized World × TypeGraph World :=
  let key := Ascii.foldCase name
  match TypeNode.builtin? key with
  | some node => (.ok node, graph)
  | none =>
      if (graph.descriptors.partials name).isEmpty then
        (.error (.unknownType name), graph)
      else
        match graph.slots.get? key with
        | some realized => (realized, graph)
        | none =>
            let realized := graph.create name
            (realized, graph.keep key realized)

/-- The types that answer operations; a mutation type is not needed. -/
def rootTypes (graph : TypeGraph World) :
    Except AssemblyError (RootTypes World) × TypeGraph World :=
  match graph.lookUp graph.roots.query with
  | (.error error, graph) => (.error error, graph)
  | (.ok query, graph) =>
      match graph.roots.mutation.filter fun name =>
          !(graph.descriptors.partials name).isEmpty with
      | none => (.ok ⟨query, none⟩, graph)
      | some name =>
          match graph.lookUp name with
          | (.error error, graph) => (.error error, graph)
          | (.ok mutation, graph) => (.ok ⟨query, some mutation⟩, graph)

/-- What a resolver is told about a field of a node. -/
def infoFor (node : TypeNode World) (field : FieldDescriptor) : ResolveInfo :=
  ⟨field.name, node.name, field.type.text, field.directives⟩

/-- The field of a name, which the node must have. -/
def fieldOf (node : TypeNode World) (name : String) : Except AssemblyError FieldDescriptor := do
  let some field ← node.field? name | throw (.missingFieldResolver node.name name)
  return field

/-- The resolver of a field of a node, and the graph that keeps it. -/
def resolverOf (graph : TypeGraph World) (node : TypeNode World) (field : FieldDescriptor) :
    HostRun World (Except AssemblyError (FieldResolver World) × TypeGraph World) := do
  let (resolver, chain) ← (graph.chains.chainOf node).resolver graph.bindings graph.registry
    node.name field
  return (resolver, { graph with chains := graph.chains.put node chain })

/-- The value of a field of a type. -/
def resolveField (graph : TypeGraph World) (typeName field : String) (parent : Json)
    (arguments : FieldArguments) (context : RequestContext) :
    HostRun World (Except ResolveError Json × TypeGraph World) := do
  match graph.lookUp typeName with
  | (.error error, graph) => return (.error (.assembly error), graph)
  | (.ok node, graph) =>
      match fieldOf node field with
      | .error error => return (.error (.assembly error), graph)
      | .ok descriptor =>
          match ← graph.resolverOf node descriptor with
          | (.error error, graph) => return (.error (.assembly error), graph)
          | (.ok resolver, graph) =>
              let value ← (resolver parent arguments context (infoFor node descriptor)).run
              return (value, graph)

/-- The concrete type of a value of an interface or a union, if it has one. -/
def resolveType (graph : TypeGraph World) (typeName : String) (value : Json)
    (context : RequestContext) :
    HostRun World (Except AssemblyError (Option (TypeNode World)) × TypeGraph World) := do
  match graph.lookUp typeName with
  | (.error error, graph) => return (.error error, graph)
  | (.ok node, graph) =>
      match ← node.concreteType value context with
      | none => return (.ok none, graph)
      | some name =>
          let (concrete, graph) := graph.lookUp name
          return (concrete.map some, graph)

/-- A value converted by the type of a name. -/
def convert (graph : TypeGraph World) (typeName : String)
    (conversion : TypeNode World → Attempt World Json) :
    HostRun World (Except ResolveError Json × TypeGraph World) := do
  match graph.lookUp typeName with
  | (.error error, graph) => return (.error (.assembly error), graph)
  | (.ok node, graph) => return (← (conversion node).run, graph)

/-- A value of a type on its way out. -/
def serialize (graph : TypeGraph World) (typeName : String) (value : Json) :
    HostRun World (Except ResolveError Json × TypeGraph World) :=
  graph.convert typeName fun node => node.serialize value

/-- A value of a type on its way in, as a variable. -/
def parseValue (graph : TypeGraph World) (typeName : String) (value : Json) :
    HostRun World (Except ResolveError Json × TypeGraph World) :=
  graph.convert typeName fun node => node.parseValue value

/-- A value of a type on its way in, as a literal. -/
def parseLiteral (graph : TypeGraph World) (typeName : String) (value : Json) :
    HostRun World (Except ResolveError Json × TypeGraph World) :=
  graph.convert typeName fun node => node.parseLiteral value

/-- The value that a name stands for in an enum. -/
def enumValue (graph : TypeGraph World) (typeName name : String) :
    Except AssemblyError (Option String) × TypeGraph World :=
  let (node, graph) := graph.lookUp typeName
  (node.map fun node => node.enumValue? name, graph)

/-- Registers a handler with the graph. -/
def register (graph : TypeGraph World) (name : String) (source : HandlerSource World) :
    HostRun World (Except AssemblyError Unit × TypeGraph World) := do
  match ← graph.registry.register name source with
  | .ok registry => return (.ok (), { graph with registry := registry })
  | .error error => return (.error error, graph)

end TypeGraph

end WiredGraph
