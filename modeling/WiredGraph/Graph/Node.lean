import WiredGraph.Descriptor.Table
import WiredGraph.Graph.Bindings

/-!
# Type nodes

A node is a type of the graph with the callables that are bound to it. It is made from all partials
of a name, which must agree on the kind of type. Where they disagree on something else the last
partial that says anything decides, except that fields, enum values and union members of all
partials are taken together.
-/

namespace WiredGraph

namespace TypeDescriptor.Body

/-- The resolvers of the fields of an object type. -/
def fieldResolver? : Body → Option CallableRef
  | .object _ fieldResolver _ => fieldResolver
  | _ => none

/-- The function that values of an input type pass through. -/
def parseValue? : Body → Option CallableRef
  | .input _ parseValue => parseValue
  | _ => none

/-- The type resolver of an interface. -/
def typeResolver? : Body → Option CallableRef
  | .interface _ typeResolver => typeResolver
  | _ => none

/-- The interfaces of an object type, if there are any. -/
def interfaces? : Body → Option (List String)
  | .object _ _ (first :: rest) => some (first :: rest)
  | _ => none

/-- The values of an enum. -/
def values : Body → List (String × String)
  | .enum values => values.entries
  | _ => []

/-- The members of a union. -/
def members : Body → List String
  | .union members _ => members
  | _ => []

end TypeDescriptor.Body

/-- A type of the graph, by kind. -/
inductive NodeKind (World : Type) where
  /-- A scalar that every graph has. -/
  | builtin
  | scalar (serialize parseValue parseLiteral : ValueFunction World)
  | object (fields : List FieldDescriptor) (producer : Option (ResolverMapProducer World))
      (interfaces : List String)
  | input (fields : List FieldDescriptor) (parseValue : Option (ValueFunction World))
  | enum (values : OrderedMap String String)
  | interface (fields : List FieldDescriptor) (typeResolver : Option (TypeResolver World))
  | union (members : List String) (typeResolver : TypeResolver World)

/-- A type of the graph. -/
structure TypeNode (World : Type) where
  /-- Tells the node from all others of the graph. -/
  id : Nat
  name : String
  description : Option String
  directives : List DirectiveInvocation
  kind : NodeKind World

namespace FieldDescriptor

/-- Fields put into a map by name, after those that are there; no name may come twice. -/
def mergeInto (typeName : String) (merged : OrderedMap String FieldDescriptor) :
    List FieldDescriptor → Except AssemblyError (OrderedMap String FieldDescriptor)
  | [] => .ok merged
  | field :: rest =>
      if merged.contains field.name then .error (.duplicateField typeName field.name)
      else mergeInto typeName (merged.insert field.name field) rest

end FieldDescriptor

namespace NodeKind

variable {World : Type}

/-- The kind of type in descriptors. -/
def typeKind : NodeKind World → TypeKind
  | .builtin => .scalar
  | .scalar .. => .scalar
  | .object .. => .object
  | .input .. => .input
  | .enum _ => .enum
  | .interface .. => .interface
  | .union .. => .union

/-- The fields that all partials contribute, in order. -/
def contributedFields : NodeKind World → List FieldDescriptor
  | .object fields .. => fields
  | .input fields _ => fields
  | .interface fields _ => fields
  | _ => []

/-- What the last partial that says anything refers to. -/
def lastReference (partials : List TypeDescriptor)
    (pick : TypeDescriptor.Body → Option CallableRef) : Option CallableRef :=
  partials.reverse.findSome? fun descriptor => pick descriptor.body

/-- What is bound to a reference, if there is one. -/
def bindOptional {Item : Type} (find : CallableRef → Except AssemblyError Item) :
    Option CallableRef → Except AssemblyError (Option Item)
  | none => .ok none
  | some reference => (find reference).map some

/-- The kind of node that partials make, the last of which is given as well. -/
def ofPartials (bindings : Bindings World) (partials : List TypeDescriptor)
    (last : TypeDescriptor) : Except AssemblyError (NodeKind World) := do
  let fields := partials.flatMap (·.body.fields)
  match last.body with
  | .scalar serialize parseValue parseLiteral =>
      return .scalar (← bindings.valueFunction serialize) (← bindings.valueFunction parseValue)
        (← bindings.valueFunction parseLiteral)
  | .object .. =>
      let producer ← bindOptional bindings.resolverMap
        (lastReference partials TypeDescriptor.Body.fieldResolver?)
      let interfaces := partials.reverse.findSome? fun descriptor => descriptor.body.interfaces?
      return .object fields producer (interfaces.getD [])
  | .input .. =>
      let parseValue ← bindOptional bindings.valueFunction
        (lastReference partials TypeDescriptor.Body.parseValue?)
      return .input fields parseValue
  | .enum _ => return .enum (.ofList (partials.flatMap (·.body.values)))
  | .interface .. =>
      let typeResolver ← bindOptional bindings.typeResolver
        (lastReference partials TypeDescriptor.Body.typeResolver?)
      return .interface fields typeResolver
  | .union _ typeResolver =>
      let resolver ← bindings.typeResolver typeResolver
      return .union (partials.flatMap (·.body.members)).eraseDups resolver

end NodeKind

namespace TypeNode

variable {World : Type}

/-- The node with an identity that partials of a name make. -/
def ofPartials (bindings : Bindings World) (id : Nat) (name : String)
    (partials : List TypeDescriptor) : Except AssemblyError (TypeNode World) := do
  let some first := partials.head? | throw (.unknownType name)
  if let some other := partials.find? fun descriptor => descriptor.kind ≠ first.kind then
    throw (.kindMismatch first.name first.kind other.kind)
  let kind ← NodeKind.ofPartials bindings partials (partials.getLast?.getD first)
  return {
    id := id
    name := first.name
    description := partials.reverse.findSome? TypeDescriptor.description
    directives :=
      ((partials.reverse.map TypeDescriptor.directives).find? (!·.isEmpty)).getD []
    kind := kind }

/-- The fields of the node in the order of contribution; no two may have the same name. -/
def fields (node : TypeNode World) : Except AssemblyError (OrderedMap String FieldDescriptor) :=
  FieldDescriptor.mergeInto node.name .empty node.kind.contributedFields

/-- The field of a name, if the node has it. -/
def field? (node : TypeNode World) (name : String) :
    Except AssemblyError (Option FieldDescriptor) :=
  node.fields.map (·.get? name)

/-- The interfaces of an object type. -/
def interfaces (node : TypeNode World) : List String :=
  match node.kind with
  | .object _ _ interfaces => interfaces
  | _ => []

/-- The members of a union. -/
def members (node : TypeNode World) : List String :=
  match node.kind with
  | .union members _ => members
  | _ => []

/-- The value that a name stands for in an enum. -/
def enumValue? (node : TypeNode World) (name : String) : Option String :=
  match node.kind with
  | .enum values => values.get? name
  | _ => none

/-- What makes the resolvers of the fields of an object type. -/
def producer? (node : TypeNode World) : Option (ResolverMapProducer World) :=
  match node.kind with
  | .object _ producer _ => producer
  | _ => none

/-- The name of the concrete type of a value of an interface or a union. -/
def concreteType (node : TypeNode World) (value : Json) (context : RequestContext) :
    HostRun World (Option String) :=
  match node.kind with
  | .interface _ (some typeResolver) => typeResolver value context
  | .union _ typeResolver => typeResolver value context
  | _ => return none

/-- A value on its way out: scalars convert it. -/
def serialize (node : TypeNode World) (value : Json) : Attempt World Json :=
  match node.kind with
  | .scalar serialize _ _ => serialize value
  | _ => pure value

/-- A value on its way in, as a variable: scalars convert it, and input types may. -/
def parseValue (node : TypeNode World) (value : Json) : Attempt World Json :=
  match node.kind with
  | .scalar _ parseValue _ => parseValue value
  | .input _ (some parseValue) => parseValue value
  | _ => pure value

/-- A value on its way in, as a literal: scalars convert it. -/
def parseLiteral (node : TypeNode World) (value : Json) : Attempt World Json :=
  match node.kind with
  | .scalar _ _ parseLiteral => parseLiteral value
  | _ => pure value

/-- The names of the scalars that every graph has. -/
def builtinNames : List String := ["Boolean", "Float", "ID", "Int", "String"]

/-- The scalar that every graph has under a name, without regard to case. -/
def builtin? (name : String) : Option (TypeNode World) :=
  (builtinNames.zipIdx.find? fun (builtin, _) =>
    Ascii.foldCase builtin == Ascii.foldCase name).map fun (builtin, id) =>
      { id := id, name := builtin, description := none, directives := [], kind := .builtin }

end TypeNode

end WiredGraph
