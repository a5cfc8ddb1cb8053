import WiredGraph.Graph.Codec
import WiredGraph.Host.ValueType

/-!
# Scripted hosts

A schema can be tried out without a host program: its callables are then scripts, which read what
they are given, answer fixed values, fail, or surround other callables. The state of a scripted
host is its log, to which callables add their labels when they run.
-/

namespace WiredGraph

/-- The labels of the callables that have run. -/
abbrev HostLog := List String

namespace HostLog

/-- Adds a label to the log, if there is one. -/
def note (label : Option String) : HostRun HostLog Unit := modify (· ++ label.toList)

end HostLog

/-- A scripted resolver of a field. -/
inductive ResolverScript where
  /-- The member of the parent that has the field's name. -/
  | property
  /-- What the resolver is told about the field. -/
  | info
  | constant (value : Json)
  | logged (label : String) (inner : ResolverScript)
  /-- An argument that must be given and have a type. -/
  | required (name : String) (type : ValueType)
  | argument (name : String)
  | data (key : String)
  | var (name : String)
  | failing (message : String)

namespace ResolverScript

/-- The resolver that a script describes. -/
def run : ResolverScript → FieldResolver HostLog
  | .property => .property
  | .info => fun _ _ _ info => pure info.toJson
  | .constant value => .constant value
  | .logged label inner => fun parent arguments context info => do
      HostLog.note (some label)
      inner.run parent arguments context info
  | .required name type => fun _ arguments _ _ =>
      ExceptT.mk (pure (arguments.require type.decode? name))
  | .argument name => fun _ arguments _ _ => pure ((arguments.get? name).getD .null)
  | .data key => fun _ _ context _ => pure ((context.data.get? key).getD .null)
  | .var name => fun _ _ context _ => pure ((context.variableNamed? name).getD .null)
  | .failing message => fun _ _ _ _ => throw (.custom message)

end ResolverScript

/-- A scripted resolver of concrete types. -/
inductive TypeResolverScript where
  /-- A string member of the value. -/
  | member (key : String)
  /-- A string among the data of the request. -/
  | data (key : String)
  | constant (name : String)
  | nothing
deriving DecidableEq, Repr

namespace TypeResolverScript

/-- The type resolver that a script describes. -/
def run : TypeResolverScript → TypeResolver HostLog
  | .member key => fun value _ => pure ((value.member? key).bind Json.asString?)
  | .data key => fun _ context => pure (context.get? Json.asString? key)
  | .constant name => fun _ _ => pure (some name)
  | .nothing => fun _ _ => pure none

end TypeResolverScript

/-- A scripted conversion of values. -/
inductive ValueScript where
  | identity
  | constant (value : Json)
  /-- The value in a list after a mark. -/
  | tagged (tag : String)
  | failing (message : String)

namespace ValueScript

/-- The value function that a script describes. -/
def run : ValueScript → ValueFunction HostLog
  | .identity => fun value => pure value
  | .constant value => fun _ => pure value
  | .tagged tag => fun value => pure (.array [.string tag, value])
  | .failing message => fun _ => throw (.custom message)

end ValueScript

/-- What a scripted handler does around what it surrounds. -/
inductive HandlerTask where
  /-- Nothing but to run it. -/
  | pass
  /-- Answers an argument instead. -/
  | deny
  /-- Fails with an argument as the message. -/
  | fail
  /-- Turns a string into capitals. -/
  | upper
  /-- Adds an argument to the end of a string. -/
  | append
  /-- Answers its own arguments along with the value. -/
  | wrap
  /-- Runs it twice. -/
  | twice
  /-- Turns an error into a value. -/
  | recover
  /-- Runs it only if the data of the request say so. -/
  | gate
deriving DecidableEq, Repr

/-- A scripted handler. -/
structure HandlerScript where
  task : HandlerTask
  label : Option String
deriving DecidableEq, Repr

namespace HandlerScript

/-- An argument that is a string. -/
def textArgument? (arguments : OrderedMap String SortedJson) (key : String) : Option String :=
  (arguments.get? key).bind fun value => value.tree.asString?

/-- The handler that a task describes. -/
def perform : HandlerTask → Handler HostLog
  | .pass => fun _ _ next => next
  | .deny => fun arguments _ _ =>
      pure (((arguments.get? "value").map SortedJson.tree).getD .null)
  | .fail => fun arguments _ _ =>
      throw (.custom ((textArgument? arguments "message").getD "failed"))
  | .upper => fun _ _ next => do
      match ← next with
      | .string text => return .string (Ascii.capitalize text)
      | other => return other
  | .append => fun arguments _ next => do
      let value ← next
      return .string (value.asString?.getD "" ++ (textArgument? arguments "suffix").getD "")
  | .wrap => fun arguments _ next => do
      let value ← next
      let given := arguments.entries.map fun (name, argument) =>
        Json.array [.string name, argument.tree]
      return .object [("args", .array given), ("value", value)]
  | .twice => fun _ _ next => do
      let first ← next
      let second ← next
      return .array [first, second]
  | .recover => fun _ _ next =>
      tryCatch next fun error => pure (.object [("recovered", error.toJson)])
  | .gate => fun arguments context next =>
      match context.data.get? ((textArgument? arguments "key").getD "viewer") with
      | some (.bool true) => next
      | _ => throw (.custom "denied")

/-- The handler that a script describes. -/
def run (script : HandlerScript) : Handler HostLog := fun arguments context next => do
  HostLog.note script.label
  perform script.task arguments context next

end HandlerScript

end WiredGraph
