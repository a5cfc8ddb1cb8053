import WiredGraph.Module.Layout
import WiredGraph.Operation.Record
import WiredGraph.Source.File
import WiredGraph.Wiring.Reference

/-!
# Compile errors

The causes for which a compilation is refused. Each names the type or the operation it is about and
where it was found. The wording and the short name of each cause are given here and nowhere else.
-/

namespace WiredGraph

/-- Why a reference in a directive cannot be used. -/
inductive WiringFault where
  | badReference (fault : ReferenceFault)
  | notAString
  | wrongStart (start : String)
  | notAClass
deriving DecidableEq, Repr

namespace WiringFault

/-- The wording of the reason. -/
def reason : WiringFault → String
  | .badReference fault => fault.reason
  | .notAString => "expected a string argument"
  | .wrongStart start => s!"scalar implementations must start with `{start}`"
  | .notAClass => "expected a class name"

end WiringFault

/-- Why a literal cannot be a default value. -/
inductive DefaultFault where
  | integerRange
  | badFloat
  | object
  | var
deriving DecidableEq, Repr

namespace DefaultFault

/-- The wording of the reason. -/
def reason : DefaultFault → String
  | .integerRange => "integer literal is out of range"
  | .badFloat => "invalid float literal"
  | .object => "object literals are not supported"
  | .var => "variables are not allowed here"

end DefaultFault

/-- Why a compilation is refused. -/
inductive CompileError where
  | malformed (location : Location) (message : String)
  | misalignedBlock (location : Location)
  | malformedReference (location : Location) (typeName reference : String) (fault : WiringFault)
  | missingDirective (location : Location) (typeName directive : String)
  | duplicateType (location previous : Location) (typeName : String)
  | unknownExtensionTarget (location : Location) (typeName keyword : String)
  | duplicateField (location : Location) (typeName field otherModule : String)
  | duplicateOperation (location previous : Location) (kind : OperationKind) (name : String)
  | unknownFragment (location : Location) (fragment operation : String)
  | anonymousOperation (location : Location)
  | missingMetadata (location : Location) (kind name : String)
  | unsupportedDefault (location : Location) (typeName field : String) (fault : DefaultFault)
  | invalidModulePath (error : ModulePathError)
deriving DecidableEq, Repr

namespace CompileError

/-- The short name of the cause. -/
def kind : CompileError → String
  | .malformed .. => "syntax"
  | .misalignedBlock .. => "misaligned_block"
  | .malformedReference .. => "malformed_reference"
  | .missingDirective .. => "missing_directive"
  | .duplicateType .. => "duplicate_type"
  | .unknownExtensionTarget .. => "unknown_extension_target"
  | .duplicateField .. => "duplicate_field"
  | .duplicateOperation .. => "duplicate_operation"
  | .unknownFragment .. => "unknown_fragment"
  | .anonymousOperation .. => "anonymous_operation"
  | .missingMetadata .. => "missing_metadata"
  | .unsupportedDefault .. => "unsupported_default"
  | .invalidModulePath .. => "invalid_module_path"

/-- What the cause says, after the location if it has one. -/
def message : CompileError → String
  | .malformed location message => s!"{location.text}: {message}"
  | .misalignedBlock location =>
      s!"{location.text}: a blank lies across the edge of the block string's indentation"
  | .malformedReference location typeName reference fault =>
      s!"{location.text}: malformed reference `{reference}` on `{typeName}`: {fault.reason}"
  | .missingDirective location typeName directive =>
      s!"{location.text}: `{typeName}` requires the @{directive} directive"
  | .duplicateType location previous typeName =>
      s!"{location.text}: type `{typeName}` is already defined at {previous.text}"
  | .unknownExtensionTarget location typeName keyword =>
      s!"{location.text}: cannot extend `{typeName}`: no {keyword} with that name is defined"
  | .duplicateField location typeName field otherModule =>
      s!"{location.text}: field `{typeName}.{field}` is also defined by module `{otherModule}`"
  | .duplicateOperation location previous kind name =>
      s!"{location.text}: {kind.text} `{name}` is not unique, " ++
        s!"it is already defined at {previous.text}"
  | .unknownFragment location fragment operation =>
      s!"{location.text}: unknown fragment `{fragment}` used in operation `{operation}`"
  | .anonymousOperation location =>
      s!"{location.text}: operations without a name are not supported"
  | .missingMetadata location kind name =>
      s!"{location.text}: no metadata entry matches {kind} `{name}` in this file"
  | .unsupportedDefault location typeName field fault =>
      s!"{location.text}: unsupported default value for `{typeName}.{field}`: {fault.reason}"
  | .invalidModulePath error => s!"invalid module path `{error.path}`: {error.fault.reason}"

/-- How to mend the cause, if there is something to say. -/
def help? : CompileError → Option String
  | .malformedReference .. =>
      some "use `Class::method`, `Class->method()`, `Class::class` or `Di->service`"
  | _ => none

end CompileError

end WiredGraph
