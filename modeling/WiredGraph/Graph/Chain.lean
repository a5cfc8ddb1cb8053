import WiredGraph.Graph.Handlers
import WiredGraph.Graph.Node

/-!
# Resolver chains

The chain of an object type keeps the resolvers of its fields once they have been built. A field
with a reference of its own is resolved by that; the others are resolved by the type's resolver
map, which is made when it is first needed and then kept. Handlers of directives are put around a
resolver when it is built, and stay as they were then. Whatever cannot be built is not kept.
-/

namespace WiredGraph

/-- The resolvers of the fields of one type. -/
structure ResolverChain (World : Type) where
  producer : Option (ResolverMapProducer World)
  /-- The resolver map, once it has been made. -/
  base : Option (ResolverMap World)
  /-- The resolvers that have been built, by field. -/
  built : OrderedMap String (FieldResolver World)

namespace ResolverChain

variable {World : Type}

/-- The chain in which nothing has been built. -/
def ofProducer (producer : Option (ResolverMapProducer World)) : ResolverChain World :=
  ⟨producer, none, .empty⟩

/-- The resolver map, and the chain that keeps it. -/
def baseMap (chain : ResolverChain World) :
    HostRun World (ResolverMap World × ResolverChain World) :=
  match chain.base with
  | some map => return (map, chain)
  | none => do
      let map : ResolverMap World ← match chain.producer with
        | some produce => produce
        | none => pure .empty
      return (map, { chain with base := some map })

/-- The resolver of a field without the handlers of its directives. -/
def innermost (chain : ResolverChain World) (bindings : Bindings World) (typeName : String)
    (field : FieldDescriptor) :
    HostRun World (Except AssemblyError (FieldResolver World) × ResolverChain World) :=
  match field.resolver with
  | some reference => return (bindings.fieldResolver reference, chain)
  | none => do
      let (map, chain) ← chain.baseMap
      match map.get? field.name with
      | some resolver => return (.ok resolver, chain)
      | none => return (.error (.missingFieldResolver typeName field.name), chain)

/-- The resolver of a field, and the chain that keeps it if it could be built. -/
def resolver (chain : ResolverChain World) (bindings : Bindings World)
    (registry : HandlerRegistry World) (typeName : String) (field : FieldDescriptor) :
    HostRun World (Except AssemblyError (FieldResolver World) × ResolverChain World) :=
  match chain.built.get? field.name with
  | some resolver => return (.ok resolver, chain)
  | none => do
      let (innermost, chain) ← chain.innermost bindings typeName field
      match innermost.bind (registry.wrapAll field.directives) with
      | .ok resolver =>
          return (.ok resolver, { chain with built := chain.built.insert field.name resolver })
      | .error error => return (.error error, chain)

end ResolverChain

/-- The chains of the nodes that have one, by node. -/
structure ResolverChains (World : Type) where
  byNode : OrderedMap Nat (ResolverChain World)

namespace ResolverChains

variable {World : Type}

/-- No chains. -/
def empty : ResolverChains World := ⟨.empty⟩

/-- Number of nodes that have a chain. -/
def size (chains : ResolverChains World) : Nat := chains.byNode.size

/-- The chain of a node, a new one if it has none. -/
def chainOf (chains : ResolverChains World) (node : TypeNode World) : ResolverChain World :=
  (chains.byNode.get? node.id).getD (.ofProducer node.producer?)

/-- The chains with one given to a node. -/
def put (chains : ResolverChains World) (node : TypeNode World) (chain : ResolverChain World) :
    ResolverChains World :=
  ⟨chains.byNode.insert node.id chain⟩

end ResolverChains

end WiredGraph
