import WiredGraph.Document.Selection
import WiredGraph.Token.Location

/-!
# Documents

A document is a list of definitions. Type-system definitions describe types and directives, and
executable ones are operations and the fragments they use. An extension adds to a type that is
defined elsewhere and is written like a definition without a description.
-/

namespace WiredGraph

/-- What an operation does. -/
inductive OperationType where
  | query
  | mutation
  | subscription
deriving DecidableEq, Repr

namespace OperationType

/-- The keyword of an operation type. -/
def text : OperationType → String
  | .query => "query"
  | .mutation => "mutation"
  | .subscription => "subscription"

end OperationType

/-- The type that answers operations of one type. -/
structure RootOperation where
  operation : OperationType
  typeName : Name
  span : Span

/-- The root types of a schema. -/
structure SchemaDefinition where
  description : Option Description
  directives : List Directive
  operations : List RootOperation
  span : Span

/-- An argument or a field of an input type. -/
structure InputValueDefinition where
  description : Option Description
  name : Name
  type : TypeExpr
  default : Option Value
  directives : List Directive
  span : Span

/-- A field of an object type or an interface. -/
structure FieldDefinition where
  description : Option Description
  name : Name
  arguments : List InputValueDefinition
  type : TypeExpr
  directives : List Directive
  span : Span

/-- A value of an enum. -/
structure EnumValueDefinition where
  description : Option Description
  name : Name
  directives : List Directive
  span : Span

/-- The six kinds of types. -/
inductive TypeKind where
  | scalar
  | object
  | input
  | enum
  | interface
  | union
deriving DecidableEq, Repr

namespace TypeKind

/-- The keyword that starts a definition of this kind. -/
def keyword : TypeKind → String
  | .scalar => "scalar"
  | .object => "type"
  | .input => "input"
  | .enum => "enum"
  | .interface => "interface"
  | .union => "union"

end TypeKind

/-- What a definition says about a type of its kind. -/
inductive TypeDefinition.Body where
  | object (interfaces : List Name) (fields : List FieldDefinition)
  | interface (interfaces : List Name) (fields : List FieldDefinition)
  | union (members : List Name)
  | enum (values : List EnumValueDefinition)
  | input (fields : List InputValueDefinition)
  | scalar

namespace TypeDefinition.Body

/-- The interfaces that an object type or an interface implements. -/
def interfaces : Body → List Name
  | .object interfaces _ | .interface interfaces _ => interfaces
  | _ => []

/-- The fields of an object type or an interface. -/
def fields : Body → List FieldDefinition
  | .object _ fields | .interface _ fields => fields
  | _ => []

/-- The fields of an input type. -/
def inputFields : Body → List InputValueDefinition
  | .input fields => fields
  | _ => []

/-- The values of an enum. -/
def values : Body → List EnumValueDefinition
  | .enum values => values
  | _ => []

/-- The members of a union. -/
def members : Body → List Name
  | .union members => members
  | _ => []

end TypeDefinition.Body

/-- A type, or what an extension adds to one. -/
structure TypeDefinition where
  description : Option Description
  name : Name
  directives : List Directive
  body : TypeDefinition.Body
  span : Span

namespace TypeDefinition

/-- The kind of type that is defined. -/
def kind (definition : TypeDefinition) : TypeKind :=
  match definition.body with
  | .object .. => .object
  | .interface .. => .interface
  | .union .. => .union
  | .enum .. => .enum
  | .input .. => .input
  | .scalar => .scalar

end TypeDefinition

/-- A directive and where it may stand. -/
structure DirectiveDefinition where
  description : Option Description
  name : Name
  arguments : List InputValueDefinition
  repeatable : Bool
  locations : List DirectiveLocation
  span : Span

/-- A variable of an operation. -/
structure VariableDefinition where
  name : Name
  type : TypeExpr
  default : Option Value
  directives : List Directive
  span : Span

/-- A query, a mutation or a subscription. -/
structure OperationDefinition where
  operation : OperationType
  name : Option Name
  variableDefinitions : List VariableDefinition
  directives : List Directive
  set : SelectionSet
  span : Span

/-- Selections with a name, for values of one type. -/
structure FragmentDefinition where
  name : Name
  condition : Name
  directives : List Directive
  set : SelectionSet
  span : Span

/-- One definition of a document. -/
inductive Definition where
  | schema (definition : SchemaDefinition)
  | type (definition : TypeDefinition)
  | extension (addition : TypeDefinition)
  | directive (definition : DirectiveDefinition)
  | operation (definition : OperationDefinition)
  | fragment (definition : FragmentDefinition)

namespace Definition

/-- Where the definition stands. -/
def span : Definition → Span
  | .schema definition => definition.span
  | .type definition => definition.span
  | .extension addition => addition.span
  | .directive definition => definition.span
  | .operation definition => definition.span
  | .fragment definition => definition.span

/-- The type that a definition defines, if it defines one. -/
def type? : Definition → Option TypeDefinition
  | .type definition => some definition
  | _ => none

/-- The extension that a definition is, if it is one. -/
def extension? : Definition → Option TypeDefinition
  | .extension addition => some addition
  | _ => none

/-- The operation that a definition is, if it is one. -/
def operation? : Definition → Option OperationDefinition
  | .operation definition => some definition
  | _ => none

/-- The fragment that a definition is, if it is one. -/
def fragment? : Definition → Option FragmentDefinition
  | .fragment definition => some definition
  | _ => none

end Definition

/-- A list of definitions. -/
structure Document where
  definitions : List Definition
  span : Span

namespace Document

/-- The types that a document defines. -/
def types (document : Document) : List TypeDefinition :=
  document.definitions.filterMap Definition.type?

/-- The extensions in a document. -/
def extensions (document : Document) : List TypeDefinition :=
  document.definitions.filterMap Definition.extension?

/-- The operations of a document. -/
def operations (document : Document) : List OperationDefinition :=
  document.definitions.filterMap Definition.operation?

/-- The fragments of a document. -/
def fragments (document : Document) : List FragmentDefinition :=
  document.definitions.filterMap Definition.fragment?

end Document

end WiredGraph
