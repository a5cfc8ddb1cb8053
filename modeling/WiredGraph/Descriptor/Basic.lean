import WiredGraph.Descriptor.Callable
import WiredGraph.Document.Definition
import WiredGraph.Json.Sorted
import WiredGraph.OrderedMap

/-!
# Type descriptors

A descriptor says what one module contributes to a type: its fields or values, the callables that
are wired to it, and the directives that the runtime applies. Types are referred to by name only.
The contributions of several modules to one type are its partials.
-/

namespace WiredGraph

/-- A type as descriptors refer to it. -/
inductive TypeRef where
  | named (name : String)
  | list (item : TypeRef)
  | nonNull (inner : TypeRef)
deriving DecidableEq, Repr

namespace TypeRef

/-- The name inside all lists. -/
def baseName : TypeRef → String
  | .named name => name
  | .list item => item.baseName
  | .nonNull inner => inner.baseName

/-- The type as it is printed. -/
def text : TypeRef → String
  | .named name => name
  | .list item => "[" ++ item.text ++ "]"
  | .nonNull inner => inner.text ++ "!"

/-- The reference to a type as it is written in a document. -/
def ofTypeExpr : TypeExpr → TypeRef
  | .named name => .named name.text
  | .list item _ => .list (ofTypeExpr item)
  | .nonNull inner _ => .nonNull (ofTypeExpr inner)

end TypeRef

/-- A literal that stands for a missing argument or input field. -/
inductive DefaultValue where
  | string (value : String)
  | int (value : Int64)
  | float (value : ExtendedBinary64)
  | boolean (value : Bool)
  | null
  | list (items : List DefaultValue)
  | enum (name : String)

/-- The use of a directive that the runtime applies. -/
structure DirectiveInvocation where
  name : String
  arguments : OrderedMap String SortedJson

/-- An argument of a field. -/
structure ArgumentDescriptor where
  name : String
  type : TypeRef
  description : Option String
  default : Option DefaultValue

/-- A field of an object type, an interface or an input type. -/
structure FieldDescriptor where
  name : String
  type : TypeRef
  description : Option String
  default : Option DefaultValue
  resolver : Option CallableRef
  directives : List DirectiveInvocation
  arguments : List ArgumentDescriptor

namespace TypeKind

/-- The word for a kind of type. -/
def text : TypeKind → String
  | .scalar => "scalar"
  | .object => "object"
  | .input => "input"
  | .enum => "enum"
  | .interface => "interface"
  | .union => "union"

end TypeKind

/-- What a descriptor says about a type of its kind. -/
inductive TypeDescriptor.Body where
  | scalar (serialize parseValue parseLiteral : CallableRef)
  | object (fields : List FieldDescriptor) (fieldResolver : Option CallableRef)
      (interfaces : List String)
  | input (fields : List FieldDescriptor) (parseValue : Option CallableRef)
  | enum (values : OrderedMap String String)
  | interface (fields : List FieldDescriptor) (typeResolver : Option CallableRef)
  | union (members : List String) (typeResolver : CallableRef)

namespace TypeDescriptor.Body

/-- The kind of type that is described. -/
def kind : Body → TypeKind
  | .scalar .. => .scalar
  | .object .. => .object
  | .input .. => .input
  | .enum .. => .enum
  | .interface .. => .interface
  | .union .. => .union

/-- The fields, if the kind of type has fields. -/
def fields : Body → List FieldDescriptor
  | .object fields .. => fields
  | .input fields .. => fields
  | .interface fields .. => fields
  | _ => []

end TypeDescriptor.Body

/-- What one module contributes to a type. -/
structure TypeDescriptor where
  name : String
  description : Option String
  /-- The module that contributes. -/
  sourceModule : String
  directives : List DirectiveInvocation
  body : TypeDescriptor.Body

namespace TypeDescriptor

/-- The kind of type that is described. -/
def kind (descriptor : TypeDescriptor) : TypeKind := descriptor.body.kind

end TypeDescriptor

end WiredGraph
