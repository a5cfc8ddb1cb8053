import WiredGraph.Host.Script
import WiredGraph.Text.Cut

/-!
# Scripted hosts as JSON

A scripted host is written as one object: what its classes, static methods, scalars and services
are bound to, each by name. Scripts are objects with one telling member, or a word.
-/

namespace WiredGraph

namespace Json

/-- A string member of an object. -/
def textMember? (value : Json) (key : String) : Option String :=
  (value.member? key).bind asString?

/-- The members of an object that is a member of an object; none if it is missing or null. -/
def entriesOf (value : Json) (key : String) : List (String × Json) :=
  match value.member? key with
  | some (.object members) => members
  | _ => []

end Json

namespace ResolverScript

/-- The script without parts that an object describes. -/
def simple? (value : Json) : Option ResolverScript :=
  match value.member? "const", value.textMember? "require", value.textMember? "as" with
  | some held, _, _ => some (.constant held)
  | none, some name, some type => (ValueType.ofText? type).map (.required name)
  | none, _, _ =>
      ((value.textMember? "arg").map argument).or <|
      ((value.textMember? "ctx").map data).or <|
      ((value.textMember? "var").map var).or <|
      (value.textMember? "fail").map failing

mutual

/-- The script that a value describes. -/
def ofJson? : Json → Option ResolverScript
  | .string "property" => some .property
  | .string "info" => some .info
  | .object members =>
      match Json.textMember? (.object members) "log" with
      | some label => (thenOf? members).map (.logged label)
      | none => simple? (.object members)
  | _ => none

/-- The script that the member for what follows a label describes. -/
def thenOf? : List (String × Json) → Option ResolverScript
  | [] => none
  | (key, value) :: rest => if key = "then" then ofJson? value else thenOf? rest

end

end ResolverScript

namespace TypeResolverScript

/-- The script that an object describes; one that says nothing describes no answer. -/
def ofJson (value : Json) : TypeResolverScript :=
  let script :=
    ((value.textMember? "key").map member).or <|
    ((value.textMember? "ctx").map data).or <|
    (value.textMember? "const").map constant
  script.getD .nothing

end TypeResolverScript

namespace ValueScript

/-- The script that an object describes; one that says nothing describes the identity. -/
def ofJson (value : Json) : ValueScript :=
  let script :=
    ((value.member? "const").map constant).or <|
    ((value.textMember? "tag").map tagged).or <|
    (value.textMember? "fail").map failing
  script.getD .identity

/-- The script that a member describes. -/
def ofMember (value : Json) (key : String) : ValueScript :=
  ((value.member? key).map ofJson).getD .identity

end ValueScript

namespace HandlerTask

/-- The task of a name. -/
def ofText? : String → Option HandlerTask
  | "pass" => some .pass
  | "deny" => some .deny
  | "fail" => some .fail
  | "upper" => some .upper
  | "append" => some .append
  | "wrap" => some .wrap
  | "twice" => some .twice
  | "recover" => some .recover
  | "gate" => some .gate
  | _ => none

end HandlerTask

namespace HandlerScript

/-- The script that an object describes. -/
def ofJson? (value : Json) : Option HandlerScript := do
  let task ← (value.textMember? "do").bind HandlerTask.ofText?
  some ⟨task, value.textMember? "label"⟩

/-- The catalog of classes that an object describes; a class says that it is instantiated. -/
def catalog? (value : Json) : Option (HandlerCatalog HostLog) := do
  let classes ← Json.asMap? ofJson? value
  some (.ofList (classes.entries.map fun (className, script) =>
    (className, do
      HostLog.note (some ("new " ++ className))
      return script.run)))

/-- The source of a handler that an object describes: a class by name, or a script. -/
def source? (value : Json) : Option (HandlerSource HostLog) :=
  match value.textMember? "class" with
  | some className => some (.className className)
  | none => (ofJson? value).map fun script => .callable script.run

end HandlerScript

namespace ResolverMapProducer

/-- What makes the resolvers that an object describes by field; it says so each time. -/
def ofJson? (label : Option String) (value : Json) : Option (ResolverMapProducer HostLog) := do
  let scripts ← Json.asMap? ResolverScript.ofJson? value
  let produce : HostRun HostLog (ResolverMap HostLog) := do
    HostLog.note (some ("produce " ++ label.getD "map"))
    return .ofList (scripts.entries.map fun (field, script) => (field, script.run))
  some produce

end ResolverMapProducer

namespace Binding

/-- The binding that an object describes. -/
def ofJson? (value : Json) : Option (Binding HostLog) :=
  match value.member? "resolver", value.member? "map", value.member? "type" with
  | some script, _, _ => (ResolverScript.ofJson? script).map fun script => .resolver script.run
  | none, some scripts, _ =>
      (ResolverMapProducer.ofJson? (value.textMember? "label") scripts).map .resolverMap
  | none, none, some script => some (.typeResolver (TypeResolverScript.ofJson script).run)
  | none, none, none => some (.value (ValueScript.ofMember value "value").run)

end Binding

namespace Bindings

/-- The class and the method of a name in which two colons stand between them. -/
def classAndMethod? (name : String) : Option (String × String) :=
  (Text.splitAroundLast? [':', ':'] name.toList).map fun (className, method) =>
    (String.ofList className, String.ofList method)

/-- Each entry of an object that is a member of an object, with its name and binding read. -/
def readEntries? {Key : Type} (value : Json) (member : String) (key? : String → Option Key) :
    Option (List (Key × Binding HostLog)) :=
  (value.entriesOf member).mapM fun (name, entry) => do
    return (← key? name, ← Binding.ofJson? entry)

/-- The bindings that an object describes. -/
def ofJson? (value : Json) : Option (Bindings HostLog) := do
  let constructors ← readEntries? value "constructors" some
  let statics ← readEntries? value "statics" classAndMethod?
  let services ← readEntries? value "services" some
  let bound : Bindings HostLog :=
    constructors.foldl (fun bindings entry => bindings.bindConstructor entry.1 entry.2) .empty
  let bound := statics.foldl
    (fun bindings entry => bindings.bindStatic entry.1.1 entry.1.2 entry.2) bound
  let bound := (value.entriesOf "scalars").foldl (fun bindings entry =>
    let script (key : String) : ValueFunction HostLog := (ValueScript.ofMember entry.2 key).run
    bindings.bindScalar entry.1 (script "serialize") (script "parse_value")
      (script "parse_literal")) bound
  match value.member? "services" with
  | some (.object _) => return bound.withServices (.ofList services)
  | _ => return bound

end Bindings

end WiredGraph
