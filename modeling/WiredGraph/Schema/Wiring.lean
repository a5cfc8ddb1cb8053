import WiredGraph.Schema.Literal
import WiredGraph.Wiring.Settings

/-!
# Wiring directives in schemas

A wiring directive names, as its first argument, the callable that is wired to a type or to a
field. Of several with one name the first one counts. All other directives are kept for the
runtime, in the order in which they were written.
-/

namespace WiredGraph

/-- What an error about a type or a field is reported for. -/
structure Subject where
  name : String
  location : Location

namespace Settings

/-- The tokens that give references their meaning. -/
def referenceTokens (settings : Settings) : ReferenceTokens :=
  ⟨settings.locatorToken, settings.constructorMarker⟩

end Settings

namespace Subject

/-- The error about a reference on the subject. -/
def malformed (subject : Subject) (reference : String) (fault : WiringFault) : CompileError :=
  .malformedReference subject.location subject.name reference fault

/-- The error about a directive that the subject needs. -/
def missing (subject : Subject) (directive : String) : CompileError :=
  .missingDirective subject.location subject.name directive

/-- The first argument of the first directive of a name, which must be a string. -/
def wiringText? (subject : Subject) (name : String) (directives : List Directive) :
    Except CompileError (Option String) :=
  match directives.find? (·.name.text = name) with
  | none => .ok none
  | some directive =>
      match directive.arguments.head?.bind (·.value.string?) with
      | some text => .ok (some text)
      | none => .error (subject.malformed ("@" ++ name) .notAString)

/-- The callable that the first directive of a name refers to. -/
def wiring? (subject : Subject) (tokens : ReferenceTokens) (name : String)
    (directives : List Directive) : Except CompileError (Option CallableRef) := do
  let some text ← subject.wiringText? name directives | return none
  match Reference.parse tokens text with
  | .ok callable => return some callable
  | .error fault => throw (subject.malformed text (.badReference fault))

/-- The default value that an optional literal of a field or an argument stands for. -/
def default? (subject : Subject) (field : String) :
    Option Value → Except CompileError (Option DefaultValue)
  | none => .ok none
  | some value =>
      match DefaultValue.ofValue value with
      | .ok default => .ok (some default)
      | .error fault =>
          .error (.unsupportedDefault subject.location subject.name field fault)

end Subject

namespace WiringDirectives

/-- The invocations of all directives that are not consumed by the compiler. -/
def remaining (wiring : WiringDirectives) (directives : List Directive) :
    List DirectiveInvocation :=
  (directives.filter fun directive => directive.name.text ∉ wiring.names).map
    DirectiveInvocation.ofDirective

end WiringDirectives

end WiredGraph
