import WiredGraph.Source.Span

/-!
# Diagnostics

A diagnostic is one finding about a source: how bad it is, a code, a title, and labels that point
at spans. Its message is that of its first label, and its title when it has no label. Reports keep
findings in the order in which they were made.
-/

namespace WiredGraph

/-- How bad a finding is. -/
inductive Severity where
  | error
  | warning
deriving DecidableEq, Repr

namespace Severity

/-- The word for a severity. -/
def text : Severity → String
  | .error => "error"
  | .warning => "warning"

end Severity

/-- What kind of fault a finding is about. -/
inductive DiagnosticCode where
  | unexpectedToken
  | unexpectedEnd
  | invalidSyntax
  | unterminatedString
deriving DecidableEq, Repr

namespace DiagnosticCode

/-- The code as it is printed. -/
def text : DiagnosticCode → String
  | .unexpectedToken => "E0001"
  | .unexpectedEnd => "E0002"
  | .invalidSyntax => "E0003"
  | .unterminatedString => "E0004"

end DiagnosticCode

/-- A message about one span. -/
structure Label where
  span : Span
  message : String
deriving DecidableEq, Repr

/-- One finding about a source. -/
structure Diagnostic where
  severity : Severity
  code : DiagnosticCode
  title : String
  labels : List Label
deriving DecidableEq, Repr

namespace Diagnostic

/-- The span of the first label. -/
def primarySpan? (diagnostic : Diagnostic) : Option Span :=
  diagnostic.labels.head?.map Label.span

/-- The message of the first label, or else the title. -/
def message (diagnostic : Diagnostic) : String :=
  (diagnostic.labels.head?.map Label.message).getD diagnostic.title

/-- Whether the finding is an error. -/
def isError (diagnostic : Diagnostic) : Bool := diagnostic.severity == .error

end Diagnostic

/-- The findings about one source, in the order in which they were made. -/
structure Report where
  findings : List Diagnostic := []
deriving DecidableEq, Repr

namespace Report

/-- The report with one more finding at its end. -/
def add (report : Report) (diagnostic : Diagnostic) : Report :=
  ⟨report.findings ++ [diagnostic]⟩

/-- The findings that are errors. -/
def errors (report : Report) : List Diagnostic := report.findings.filter Diagnostic.isError

/-- Whether some finding is an error. -/
def hasErrors (report : Report) : Bool := report.findings.any Diagnostic.isError

end Report

end WiredGraph
