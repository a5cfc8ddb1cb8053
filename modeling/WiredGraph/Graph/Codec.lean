import WiredGraph.Descriptor.Codec
import WiredGraph.Graph.TypeGraph

/-!
# What the graph answers, as JSON

Errors are written with their short name and what they say, an argument that could not be decoded
with its name only. Nodes are written with everything about them that is data.
-/

namespace WiredGraph

namespace AssemblyError

/-- The written form. -/
def toJson (error : AssemblyError) : Json :=
  .object [("error", .string error.kind), ("message", .string error.message)]

end AssemblyError

namespace ResolveError

/-- The written form. -/
def toJson (error : ResolveError) : Json :=
  match error with
  | .badArgument name => .object [("error", .string error.kind), ("argument", .string name)]
  | _ => .object [("error", .string error.kind), ("message", .string error.message)]

end ResolveError

namespace DirectiveInvocation

/-- Invocations, each as one text. -/
def texts (invocations : List DirectiveInvocation) : Json :=
  .ofStrings (invocations.map fun invocation => invocation.toJson.compactText)

end DirectiveInvocation

namespace ResolveInfo

/-- The written form. -/
def toJson (info : ResolveInfo) : Json :=
  .object [("field", .string info.fieldName), ("parent", .string info.parentType),
    ("type", .string info.returnType), ("directives", DirectiveInvocation.texts info.directives)]

end ResolveInfo

namespace TypeNode

variable {World : Type}

/-- Whether the node is a scalar that every graph has. -/
def isBuiltin (node : TypeNode World) : Bool :=
  match node.kind with
  | .builtin => true
  | _ => false

/-- The values of an enum with their names. -/
def enumValues? (node : TypeNode World) : Option (List (String × String)) :=
  match node.kind with
  | .enum values => some values.entries
  | _ => none

/-- The written form. -/
def toJson (node : TypeNode World) : Json :=
  let pairs (values : List (String × String)) : Json :=
    .array (values.map fun (name, value) => .ofStrings [name, value])
  .object [("id", .ofNat node.id), ("name", .string node.name),
    ("kind", .string node.kind.typeKind.text), ("builtin", .bool node.isBuiltin),
    ("description", .ofOption .string node.description),
    ("directives", DirectiveInvocation.texts node.directives),
    ("interfaces", .ofStrings node.interfaces), ("members", .ofStrings node.members),
    ("values", .ofOption pairs node.enumValues?)]

end TypeNode

end WiredGraph
