import WiredGraph.Graph.Resolver

/-!
# Directive handlers

A directive on a field runs a handler around the field's resolver. The handler is given the
arguments that stand in the schema, the request, and the run of what it surrounds; it may run that
any number of times. Of several directives the first is the outermost.

Handlers are registered by directive name, directly or as a class of a catalog that is instantiated
once, on registration.
-/

namespace WiredGraph

/-- Runs around the resolver of a field. -/
abbrev Handler (World : Type) :=
  OrderedMap String SortedJson → RequestContext → Attempt World Json → Attempt World Json

/-- The classes of handlers that the host offers, each with how it is instantiated. -/
abbrev HandlerCatalog (World : Type) := OrderedMap String (HostRun World (Handler World))

/-- What can be registered. -/
inductive HandlerSource (World : Type) where
  | callable (handler : Handler World)
  | className (name : String)

/-- The registered handlers, by directive name. -/
structure HandlerRegistry (World : Type) where
  handlers : OrderedMap String (Handler World)
  catalog : HandlerCatalog World

namespace HandlerRegistry

variable {World : Type}

/-- The registry over a catalog with nothing registered. -/
def ofCatalog (catalog : HandlerCatalog World) : HandlerRegistry World := ⟨.empty, catalog⟩

/-- Whether a handler is registered for a directive. -/
def contains (registry : HandlerRegistry World) (name : String) : Bool :=
  registry.handlers.contains name

/-- The handler that a source stands for, to be registered under a name. -/
def instantiate (registry : HandlerRegistry World) (name : String) :
    HandlerSource World → HostRun World (Except AssemblyError (Handler World))
  | .callable handler => return .ok handler
  | .className className =>
      match registry.catalog.get? className with
      | some create => do return .ok (← create)
      | none => return .error (.invalidDirectiveSetup name (.unknownClass className))

/-- Registers a handler under a name, in place of an earlier one. -/
def register (registry : HandlerRegistry World) (name : String) (source : HandlerSource World) :
    HostRun World (Except AssemblyError (HandlerRegistry World)) := do
  if name.isEmpty then
    return .error (.invalidDirectiveSetup name .emptyName)
  let instance? ← registry.instantiate name source
  return instance?.map fun handler =>
    { registry with handlers := registry.handlers.insert name handler }

/-- The handler of a directive. -/
def handler (registry : HandlerRegistry World) (name : String) :
    Except AssemblyError (Handler World) :=
  match registry.handlers.get? name with
  | some handler => .ok handler
  | none => .error (.unknownDirective name)

/-- A resolver with a handler around it. -/
def layer (handler : Handler World) (arguments : OrderedMap String SortedJson)
    (inner : FieldResolver World) : FieldResolver World :=
  fun parent fieldArguments context info =>
    handler arguments context (inner parent fieldArguments context info)

/-- A resolver with the handler of one directive around it. -/
def wrapSingle (registry : HandlerRegistry World) (directive : DirectiveInvocation)
    (base : FieldResolver World) : Except AssemblyError (FieldResolver World) := do
  return layer (← registry.handler directive.name) directive.arguments base

/-- A resolver with the handlers of directives around it, the first one outermost. All handlers are
looked up, in order, before any is put around the resolver. -/
def wrapAll (registry : HandlerRegistry World) (directives : List DirectiveInvocation)
    (base : FieldResolver World) : Except AssemblyError (FieldResolver World) := do
  let handlers ← directives.mapM fun directive => do
    return (← registry.handler directive.name, directive.arguments)
  return handlers.foldr (fun (handler, arguments) inner => layer handler arguments inner) base

end HandlerRegistry

end WiredGraph
