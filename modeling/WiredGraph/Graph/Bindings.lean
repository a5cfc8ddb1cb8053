import WiredGraph.Graph.Resolver

/-!
# Bindings

Bindings give references their meaning: each class, static method and service of the host that may
be referred to is bound to a callable of one of four shapes. A use of a reference asks for one
shape and refuses the others.
-/

namespace WiredGraph

/-- What a reference may be bound to. -/
inductive Binding (World : Type) where
  | resolver (resolver : FieldResolver World)
  | resolverMap (producer : ResolverMapProducer World)
  | typeResolver (resolver : TypeResolver World)
  | value (function : ValueFunction World)

namespace Binding

variable {World : Type}

/-- The shape of what is bound. -/
def shape : Binding World → BindingShape
  | .resolver _ => .resolver
  | .resolverMap _ => .resolverMap
  | .typeResolver _ => .typeResolver
  | .value _ => .value

end Binding

/-- Everything that references may refer to. -/
structure Bindings (World : Type) where
  constructors : OrderedMap String (Binding World)
  /-- Static methods by class and method. -/
  methods : OrderedMap (String × String) (Binding World)
  /-- The members of the service locator, if there is one. -/
  locator : Option (String → Option (Binding World))

namespace Bindings

variable {World : Type}

/-- Bindings of nothing. -/
def empty : Bindings World := ⟨.empty, .empty, none⟩

/-- The bindings with a class whose instances are called. -/
def bindConstructor (bindings : Bindings World) (className : String)
    (binding : Binding World) : Bindings World :=
  { bindings with constructors := bindings.constructors.insert className binding }

/-- The bindings with a static method. -/
def bindStatic (bindings : Bindings World) (className method : String)
    (binding : Binding World) : Bindings World :=
  { bindings with methods := bindings.methods.insert (className, method) binding }

/-- The bindings with the three conversions that the class behind a scalar provides. -/
def bindScalar (bindings : Bindings World) (className : String)
    (serialize parseValue parseLiteral : ValueFunction World) : Bindings World :=
  ((bindings.bindStatic className "serialize" (.value serialize)).bindStatic
    className "parseValue" (.value parseValue)).bindStatic
    className "parseLiteral" (.value parseLiteral)

/-- The bindings with a service locator whose members are given by name. -/
def withServices (bindings : Bindings World) (services : OrderedMap String (Binding World)) :
    Bindings World :=
  { bindings with locator := some services.get? }

/-- What a reference is bound to, if it is bound. -/
def find? (bindings : Bindings World) : CallableRef → Option (Binding World)
  | .service name => bindings.locator.bind (· name)
  | .constructor className => bindings.constructors.get? className
  | .staticMethod className method => bindings.methods.get? (className, method)

/-- What a reference is bound to. -/
def resolve (bindings : Bindings World) (reference : CallableRef) :
    Except AssemblyError (Binding World) :=
  match bindings.find? reference with
  | some binding => .ok binding
  | none => .error (.unresolvedBinding reference)

/-- The field resolver that a reference is bound to. -/
def fieldResolver (bindings : Bindings World) (reference : CallableRef) :
    Except AssemblyError (FieldResolver World) := do
  match ← bindings.resolve reference with
  | .resolver resolver => return resolver
  | other => throw (.bindingMismatch reference .resolver other.shape)

/-- The resolver map that a reference is bound to. -/
def resolverMap (bindings : Bindings World) (reference : CallableRef) :
    Except AssemblyError (ResolverMapProducer World) := do
  match ← bindings.resolve reference with
  | .resolverMap producer => return producer
  | other => throw (.bindingMismatch reference .resolverMap other.shape)

/-- The type resolver that a reference is bound to. -/
def typeResolver (bindings : Bindings World) (reference : CallableRef) :
    Except AssemblyError (TypeResolver World) := do
  match ← bindings.resolve reference with
  | .typeResolver resolver => return resolver
  | other => throw (.bindingMismatch reference .typeResolver other.shape)

/-- The value function that a reference is bound to. -/
def valueFunction (bindings : Bindings World) (reference : CallableRef) :
    Except AssemblyError (ValueFunction World) := do
  match ← bindings.resolve reference with
  | .value function => return function
  | other => throw (.bindingMismatch reference .value other.shape)

end Bindings

end WiredGraph
