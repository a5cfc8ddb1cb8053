import WiredGraph.Graph.Context

/-!
# Resolvers

The graph runs code of the host program, which may read and change the host's state. That state is
a parameter of everything in the graph, so that callables are functions which thread it. A callable
that fails keeps the changes it has made.
-/

namespace WiredGraph

/-- A run of host code with a result. -/
abbrev HostRun (World Item : Type) := StateM World Item

/-- A run of host code that may fail. -/
abbrev Attempt (World Item : Type) := ExceptT ResolveError (StateM World) Item

/-- What a resolver is told about the field. -/
structure ResolveInfo where
  fieldName : String
  parentType : String
  /-- The type of the field as it is printed. -/
  returnType : String
  /-- The directives on the field that are left to the runtime. -/
  directives : List DirectiveInvocation

/-- Gives the value of a field from the value of its parent. -/
abbrev FieldResolver (World : Type) :=
  Json → FieldArguments → RequestContext → ResolveInfo → Attempt World Json

/-- The resolvers of the fields of one type. -/
abbrev ResolverMap (World : Type) := OrderedMap String (FieldResolver World)

/-- Makes the resolvers of the fields of one type. -/
abbrev ResolverMapProducer (World : Type) := HostRun World (ResolverMap World)

/-- Tells the name of the concrete type of a value. -/
abbrev TypeResolver (World : Type) := Json → RequestContext → HostRun World (Option String)

/-- Converts the value of a scalar or an input type. -/
abbrev ValueFunction (World : Type) := Json → Attempt World Json

namespace FieldResolver

variable {World : Type}

/-- Always gives the same value. -/
def constant (value : Json) : FieldResolver World := fun _ _ _ _ => pure value

/-- Reads the member of the parent that has the field's name; without one the value is null. -/
def property : FieldResolver World := fun parent _ _ info =>
  pure ((parent.member? info.fieldName).getD .null)

end FieldResolver

end WiredGraph
