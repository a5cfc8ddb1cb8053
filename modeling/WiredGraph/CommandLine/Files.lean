import WiredGraph.OrderedMap
import WiredGraph.Text.Cut

/-!
# Files

Commands reach files through three operations: reading a text, making a directory with all that
lead to it, and writing a text. Besides the files of the machine these operations are given here
for a tree of files that is a value, so that a run can be looked at as a function. A tree lies in
the working directory, and nothing outside of it is known.
-/

namespace WiredGraph

/-- Why a file operation fails. -/
inductive FileFault where
  | notFound
  | alreadyExists
  | notADirectory
  | isADirectory
  | other (message : String)
deriving DecidableEq, Repr

namespace FileFault

/-- The wording of the fault, as systems word it. -/
def message : FileFault → String
  | .notFound => "No such file or directory (os error 2)"
  | .alreadyExists => "File exists (os error 17)"
  | .notADirectory => "Not a directory (os error 20)"
  | .isADirectory => "Is a directory (os error 21)"
  | .other message => message

end FileFault

/-- The operations on files that commands need. -/
structure FileAccess (Effect : Type → Type) where
  read : String → Effect (Except FileFault String)
  /-- Makes a directory and those that lead to it, as far as they are missing. -/
  makeDirectories : String → Effect (Except FileFault Unit)
  write : String → String → Effect (Except FileFault Unit)

namespace FilePath

/-- A name below a directory; a name that starts with a slash stands for itself. -/
def join (directory name : String) : String :=
  match name.toList.head?, directory.toList.getLast? with
  | some '/', _ => name
  | _, none => name
  | _, some '/' => directory ++ name
  | _, some _ => directory ++ "/" ++ name

/-- The steps of a path, or nothing if it does not start at the working directory. -/
def steps? (path : String) : Option (List String) :=
  match path.toList with
  | '/' :: _ => none
  | chars =>
      some (((Text.splitOn '/' chars).filter fun step => step != [] && step != ['.']).map
        String.ofList)

/-- Whether a path can only be that of a directory. -/
def namesDirectory (path : String) : Bool :=
  match (Text.splitOn '/' path.toList).getLast? with
  | some [] | some ['.'] | some ['.', '.'] => true
  | _ => false

end FilePath

/-- A file with its text, or a directory. -/
inductive FileNode where
  | file (text : String)
  | directory
deriving DecidableEq, Repr

/-- Files and directories, by the names on the way to them. -/
structure FileTree where
  nodes : OrderedMap (List String) FileNode

namespace FileTree

/-- The tree in which there is nothing but the working directory. -/
def empty : FileTree := ⟨.empty⟩

/-- What stands at a place. -/
def node? (tree : FileTree) : List String → Option FileNode
  | [] => some .directory
  | place => tree.nodes.get? place

/-- The tree with a node put at a place. -/
def put (tree : FileTree) (place : List String) (node : FileNode) : FileTree :=
  ⟨tree.nodes.insert place node⟩

/-- The text of the file at a place. -/
def text? (tree : FileTree) (place : List String) : Option String :=
  match tree.node? place with
  | some (.file text) => some text
  | _ => none

/-- The place that steps from a directory lead to; each has to lead to a directory. -/
def walk (tree : FileTree) (place : List String) : List String → Except FileFault (List String)
  | [] => .ok place
  | ".." :: rest => if place = [] then .error .notFound else tree.walk place.dropLast rest
  | name :: rest =>
      match tree.node? (place ++ [name]) with
      | some .directory => tree.walk (place ++ [name]) rest
      | some (.file _) => .error .notADirectory
      | none => .error .notFound

/-- The place of a path whose last step need not lead anywhere yet. -/
def placeOf (tree : FileTree) (steps : List String) : Except FileFault (List String) :=
  match steps.getLast? with
  | none => .ok []
  | some ".." => tree.walk [] steps
  | some name => do return (← tree.walk [] steps.dropLast) ++ [name]

/-- The place of the file of a path, which need not exist. -/
def filePlace (tree : FileTree) (path : String) : Except FileFault (List String) := do
  let some steps := FilePath.steps? path | throw .notFound
  let place ← tree.placeOf steps
  match tree.node? place with
  | some .directory => throw .isADirectory
  | some (.file _) => if FilePath.namesDirectory path then throw .notADirectory else return place
  | none => if FilePath.namesDirectory path then throw .notFound else return place

/-- The text of the file of a path. -/
def read (tree : FileTree) (path : String) : Except FileFault String := do
  match tree.text? (← tree.filePlace path) with
  | some text => return text
  | none => throw .notFound

/-- The tree with the text written to the file of a path. -/
def write (tree : FileTree) (path text : String) : Except FileFault FileTree := do
  return tree.put (← tree.filePlace path) (.file text)

/-- The tree with one more directory, which must not exist. -/
def makeDirectory (tree : FileTree) (steps : List String) : Except FileFault FileTree := do
  let place ← tree.placeOf steps
  if (tree.node? place).isSome then
    throw .alreadyExists
  return tree.put place .directory

/-- Whether steps lead to a directory. -/
def hasDirectory (tree : FileTree) (steps : List String) : Bool :=
  match tree.placeOf steps with
  | .ok place => tree.node? place = some .directory
  | .error _ => false

/-- Makes a directory if it does not exist. -/
def ensureDirectory (tree : FileTree) (steps : List String) : Except FileFault FileTree :=
  match tree.makeDirectory steps with
  | .ok grown => .ok grown
  | .error fault => if tree.hasDirectory steps then .ok tree else .error fault

/-- Makes a directory, given the steps to it from the last one to the first one, and before it those
that lead to it if they are missing. Those that were made stay even if a later one cannot be. -/
def makeDirectoriesUp (tree : FileTree) : List String → Except FileFault Unit × FileTree
  | [] => (.ok (), tree)
  | last :: before =>
      let steps := (last :: before).reverse
      match tree.makeDirectory steps with
      | .ok grown => (.ok (), grown)
      | .error .notFound =>
          match tree.makeDirectoriesUp before with
          | (.error fault, grown) => (.error fault, grown)
          | (.ok _, grown) =>
              match grown.ensureDirectory steps with
              | .ok further => (.ok (), further)
              | .error fault => (.error fault, grown)
      | .error fault =>
          if tree.hasDirectory steps then (.ok (), tree) else (.error fault, tree)

/-- The operations on a tree. -/
def access : FileAccess (StateM FileTree) where
  read path := fun tree => (tree.read path, tree)
  makeDirectories path := fun tree =>
    match FilePath.steps? path with
    | some steps => tree.makeDirectoriesUp steps.reverse
    | none => (.error .notFound, tree)
  write path text := fun tree =>
    match tree.write path text with
    | .ok grown => (.ok (), grown)
    | .error fault => (.error fault, tree)

/-- The tree of some files, with the directories that lead to them. -/
def ofFiles (files : List (String × String)) : FileTree :=
  files.foldl (fun tree (path, text) =>
    let steps := (FilePath.steps? path).getD []
    let tree := (tree.makeDirectoriesUp steps.reverse.tail).2
    tree.put steps (.file text)) empty

/-- The texts of all files, by path. -/
def files (tree : FileTree) : List (String × String) :=
  tree.nodes.entries.filterMap fun (place, node) =>
    match node with
    | .file text => some (String.intercalate "/" place, text)
    | .directory => none

/-- The texts of the files that are new or changed since an earlier tree. -/
def changesSince (tree earlier : FileTree) : List (String × String) :=
  tree.files.filter fun entry => entry ∉ earlier.files

end FileTree

end WiredGraph
