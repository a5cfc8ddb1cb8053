import WiredGraph.Module.Layout
import WiredGraph.Text.LowerCase

/-!
# Module labels

The label of an operation tells people which part of the client it comes from. It is the path of
its host file in lower case, below the last source directory, without the customary file name, and
with the first slash turned into a hyphen.
-/

namespace WiredGraph

namespace ModuleLabel

/-- What stands below the last source directory of a path. -/
def belowSources (path : List Char) : List Char :=
  match Text.splitAroundLast? "/src/".toList path with
  | some (_, below) => below
  | none => (Text.dropStart? "src/".toList path).getD path

/-- A text with its first slash turned into a hyphen. -/
def hyphenateFirst (path : List Char) : List Char :=
  match Text.splitAround? ['/'] path with
  | some (before, after) => before ++ '-' :: after
  | none => path

/-- The label of the operations in a host file. -/
def ofPath (path : String) : String :=
  let lowered := LowerCase.text (ModulePath.withSlashes path.toList)
  let below := belowSources lowered
  let label := hyphenateFirst ((Text.dropEnd? "/gql.ts".toList below).getD below)
  String.ofList ((Text.dropStart? "components-".toList label).getD label)

end ModuleLabel

end WiredGraph
