import WiredGraph.Text.Cut

/-!
# Module layouts

A layout tells from the path of a schema document which module it belongs to. Either the module is
the file's name without its extension, or documents lie in `<root>/<module>/<module>.graphql` and
the path has to show it. In the second case both slashes separate directories.
-/

namespace WiredGraph

/-- How paths give modules. -/
inductive ModuleLayout where
  | fileStem
  | nested (root : String)
deriving DecidableEq, Repr

/-- Why a path gives no module. -/
inductive ModulePathFault where
  | noFileName
  | noRoot (root : String)
  | notNested (root : String)
deriving DecidableEq, Repr

namespace ModulePathFault

/-- The wording of the reason. -/
def reason : ModulePathFault → String
  | .noFileName => "path has no file name"
  | .noRoot root => s!"expected a `{root}/` directory in the path"
  | .notNested root => s!"expected `{root}/<module>/<module>.graphql`"

end ModulePathFault

/-- A path that gives no module; it is shown with slashes. -/
structure ModulePathError where
  path : String
  fault : ModulePathFault
deriving DecidableEq, Repr

namespace ModulePath

/-- A path with backslashes turned into slashes. -/
def withSlashes (path : List Char) : List Char := Text.replaceChar '\\' '/' path

/-- The last part of a path that names something. Empty parts and points are passed over, except
for a point at the very start, and two points name nothing. -/
def fileName? (path : List Char) : Option (List Char) :=
  let parts := Text.splitOn '/' path
  let named := (parts.drop 1).filter fun part => part != [] && part != ['.']
  match named.getLast? with
  | some ['.', '.'] => none
  | some name => some name
  | none =>
      match parts with
      | [] => none
      | first :: _ => if first = [] ∨ first = ['.'] ∨ first = ['.', '.'] then none else some first

/-- A file name without its last point and what follows, unless the point starts the name. -/
def stem (name : List Char) : List Char :=
  match Text.splitAroundLast? ['.'] name with
  | none => name
  | some ([], _) => name
  | some (before, _) => before

/-- What stands after the root directory in a path: after its name at the start, or else after its
first occurrence between slashes. -/
def afterRoot? (root path : List Char) : Option (List Char) :=
  match Text.dropStart? (root ++ ['/']) path with
  | some rest => some rest
  | none => (Text.splitAround? ('/' :: root ++ ['/']) path).map Prod.snd

/-- The module of a path below the root directory. -/
def nestedModule? (rest : List Char) : Option (List Char) :=
  let place := (Text.dropEnd? ".graphql".toList rest).getD rest
  match Text.splitOn '/' place with
  | [directory, file] => if directory ≠ [] ∧ directory = file then some directory else none
  | _ => none

end ModulePath

namespace ModuleLayout

/-- The module that a document at a path belongs to. -/
def moduleFor (layout : ModuleLayout) (path : String) : Except ModulePathError String :=
  let slashed := ModulePath.withSlashes path.toList
  let refuse (fault : ModulePathFault) : Except ModulePathError String :=
    .error ⟨String.ofList slashed, fault⟩
  match layout with
  | .fileStem =>
      match ModulePath.fileName? path.toList with
      | some name => .ok (String.ofList (ModulePath.stem name))
      | none => refuse .noFileName
  | .nested root =>
      match ModulePath.afterRoot? root.toList slashed with
      | none => refuse (.noRoot root)
      | some rest =>
          match ModulePath.nestedModule? rest with
          | some module => .ok (String.ofList module)
          | none => refuse (.notNested root)

end ModuleLayout

end WiredGraph
