import WiredGraph.Descriptor.Basic

/-!
# Errors of the type graph

Assembling a part of the graph fails for a cause that lies in the descriptors, the bindings or the
registered handlers. Resolving a field may fail for such a cause as well, because of its arguments,
or with a message of the host's own. The wording and the short name of each cause are given here
and nowhere else.
-/

namespace WiredGraph

/-- What sort of callable is bound to a reference. -/
inductive BindingShape where
  | resolver
  | resolverMap
  | typeResolver
  | value
deriving DecidableEq, Repr

namespace BindingShape

/-- How messages name a shape. -/
def text : BindingShape → String
  | .resolver => "field resolver"
  | .resolverMap => "resolver map"
  | .typeResolver => "type resolver"
  | .value => "value function"

end BindingShape

/-- Why a handler cannot be registered. -/
inductive HandlerFault where
  | emptyName
  | unknownClass (className : String)
deriving DecidableEq, Repr

namespace HandlerFault

/-- The wording of the reason. -/
def reason : HandlerFault → String
  | .emptyName => "directive name is empty"
  | .unknownClass className => s!"unknown handler class `{className}`"

end HandlerFault

/-- Why a part of the graph cannot be assembled. -/
inductive AssemblyError where
  | unknownType (name : String)
  | missingFieldResolver (typeName field : String)
  | unknownDirective (name : String)
  | invalidDirectiveSetup (name : String) (fault : HandlerFault)
  | unresolvedBinding (reference : CallableRef)
  | bindingMismatch (reference : CallableRef) (expected found : BindingShape)
  | duplicateField (typeName field : String)
  | kindMismatch (typeName : String) (first second : TypeKind)
deriving DecidableEq, Repr

namespace AssemblyError

/-- The short name of the cause. -/
def kind : AssemblyError → String
  | .unknownType _ => "unknown_type"
  | .missingFieldResolver .. => "missing_field_resolver"
  | .unknownDirective _ => "unknown_directive"
  | .invalidDirectiveSetup .. => "invalid_directive_setup"
  | .unresolvedBinding _ => "unresolved_binding"
  | .bindingMismatch .. => "binding_mismatch"
  | .duplicateField .. => "duplicate_field"
  | .kindMismatch .. => "kind_mismatch"

/-- What the cause says. -/
def message : AssemblyError → String
  | .unknownType name => s!"unknown type `{name}`"
  | .missingFieldResolver typeName field => s!"no resolver for field `{typeName}.{field}`"
  | .unknownDirective name => s!"unknown directive `@{name}`"
  | .invalidDirectiveSetup name fault =>
      s!"invalid setup for directive `@{name}`: {fault.reason}"
  | .unresolvedBinding reference => s!"nothing is bound to {reference.text}"
  | .bindingMismatch reference expected found =>
      s!"{reference.text} is bound to a {found.text}, expected a {expected.text}"
  | .duplicateField typeName field =>
      s!"field `{field}` of `{typeName}` is contributed by more than one module"
  | .kindMismatch typeName first second =>
      s!"partial descriptors of `{typeName}` disagree on kind ({first.text} and {second.text})"

end AssemblyError

/-- Why a field cannot be resolved. -/
inductive ResolveError where
  | assembly (error : AssemblyError)
  | missingArgument (name : String)
  | badArgument (name : String)
  | custom (message : String)
deriving DecidableEq, Repr

namespace ResolveError

/-- The short name of the cause. -/
def kind : ResolveError → String
  | .assembly error => error.kind
  | .missingArgument _ => "missing_argument"
  | .badArgument _ => "argument_parse"
  | .custom _ => "custom"

/-- What the cause says. -/
def message : ResolveError → String
  | .assembly error => error.message
  | .missingArgument name => s!"missing required argument `{name}`"
  | .badArgument name => s!"failed to parse argument `{name}`"
  | .custom message => message

end ResolveError

end WiredGraph
