import WiredGraph.Graph.Error
import WiredGraph.Json.Decode

/-!
# Requests

A request carries data of the host, such as who is asking, and the variables of the operation it
executes. A field is resolved with the arguments it was given. All of these are free-form values by
name, and are decoded when they are asked for.
-/

namespace WiredGraph

/-- What is known about the request that is being served. -/
structure RequestContext where
  data : OrderedMap String Json
  variableValues : OrderedMap String Json

namespace RequestContext

/-- The context of a request about which nothing is known. -/
def empty : RequestContext := ⟨.empty, .empty⟩

/-- The context with one value more or changed. -/
def set (context : RequestContext) (key : String) (value : Json) : RequestContext :=
  { context with data := context.data.insert key value }

/-- The decoded value of a key, if there is one and it can be decoded. -/
def get? {Item : Type} (context : RequestContext) (decode? : Json → Option Item) (key : String) :
    Option Item :=
  (context.data.get? key).bind decode?

/-- The value of a variable of the operation. -/
def variableNamed? (context : RequestContext) (name : String) : Option Json :=
  context.variableValues.get? name

end RequestContext

/-- The arguments that a field was given. -/
structure FieldArguments where
  values : OrderedMap String Json

namespace FieldArguments

/-- No arguments. -/
def empty : FieldArguments := ⟨.empty⟩

/-- Whether there are none. -/
def isEmpty (arguments : FieldArguments) : Bool := arguments.values.size == 0

/-- The arguments with one more or changed. -/
def set (arguments : FieldArguments) (name : String) (value : Json) : FieldArguments :=
  ⟨arguments.values.insert name value⟩

/-- The value of an argument. -/
def get? (arguments : FieldArguments) (name : String) : Option Json := arguments.values.get? name

/-- The decoded value of an argument, if it was given and can be decoded. -/
def getAs? {Item : Type} (arguments : FieldArguments) (decode? : Json → Option Item)
    (name : String) : Option Item :=
  (arguments.get? name).bind decode?

/-- The decoded value of an argument that must have been given and must be fit to be decoded. -/
def require {Item : Type} (arguments : FieldArguments) (decode? : Json → Option Item)
    (name : String) : Except ResolveError Item :=
  match arguments.get? name with
  | none => .error (.missingArgument name)
  | some value =>
      match decode? value with
      | some item => .ok item
      | none => .error (.badArgument name)

end FieldArguments

end WiredGraph
