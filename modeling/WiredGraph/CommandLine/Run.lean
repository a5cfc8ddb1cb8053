import WiredGraph.CommandLine.Files
import WiredGraph.CommandLine.Invocation
import WiredGraph.Descriptor.Codec
import WiredGraph.Operation.Codec
import WiredGraph.Operation.Compiler
import WiredGraph.Schema.Compiler

/-!
# Running commands

Two commands compile files and write one artifact for each result into a directory, which is only
made once the compilation has succeeded. The third one reads files and reports the faults in them.
A run has an exit code, or fails because of a file operation or its configuration; what was printed
and written before that stays.
-/

namespace WiredGraph

namespace CommandLine

/-- A configuration file that gives no settings. -/
structure ConfigFault where
  path : String
  reason : SettingsFault
deriving DecidableEq, Repr

/-- Why a run has no exit code. -/
inductive RunFailure where
  | invalidConfig (fault : ConfigFault)
  | file (fault : FileFault)
  | misalignedBlock
deriving DecidableEq, Repr

/-- The lines that a run has printed. -/
structure Transcript where
  out : List String := []
  err : List String := []
deriving DecidableEq, Repr

namespace Transcript

/-- Lines as one text. -/
def textOf (lines : List String) : String := String.join (lines.map (· ++ "\n"))

end Transcript

/-- A run that prints lines and may fail. -/
abbrev CommandRun (Effect : Type → Type) := ExceptT RunFailure (StateT Transcript Effect)

variable {Effect : Type → Type} [Monad Effect]

/-- Prints a line. -/
def say (line : String) : CommandRun Effect Unit :=
  modify fun (transcript : Transcript) => { transcript with out := transcript.out ++ [line] }

/-- Prints a line if there is an occasion for it. -/
def sayIf (occasion : Bool) (line : String) : CommandRun Effect Unit :=
  if occasion then say line else pure ()

/-- Prints a line as a warning. -/
def warn (line : String) : CommandRun Effect Unit :=
  modify fun (transcript : Transcript) => { transcript with err := transcript.err ++ [line] }

/-- Carries out a file operation. -/
def perform {Item : Type} (operation : Effect (Except FileFault Item)) :
    CommandRun Effect Item := do
  match ← (operation : CommandRun Effect (Except FileFault Item)) with
  | .ok item => return item
  | .error fault => throw (.file fault)

/-- The settings in a configuration file, or the standard ones without one. -/
def loadSettings (files : FileAccess Effect) : Option String → CommandRun Effect Settings
  | none => return .standard
  | some path => do
      match Settings.read (← perform (files.read path)) with
      | .ok settings => return settings
      | .error reason => throw (.invalidConfig ⟨path, reason⟩)

/-- The source of a path. -/
def readSource (files : FileAccess Effect) (path : String) : CommandRun Effect SourceFile := do
  return ⟨path, ← perform (files.read path), 1⟩

/-- The ending of a path's last part, without the point before it. -/
def extension? (path : String) : Option String := do
  let name ← ModulePath.fileName? path.toList
  match Text.splitAroundLast? ['.'] name with
  | some (_ :: _, ending) => some (String.ofList ending)
  | _ => none

/-- Whether a file is client code in which operations may be embedded. -/
def isHostFile (path : String) : Bool :=
  match extension? path with
  | some ending => ["ts", "tsx", "js", "jsx"].contains ending
  | none => false

/-- The operation documents embedded in a host file. -/
def embeddedIn (path text : String) : CommandRun Effect EmbeddedDocuments :=
  match EmbeddedDocuments.ofHostFile path text with
  | .ok found => return found
  | .error _ => throw .misalignedBlock

/-- Writes artifacts into a directory, one file for each name. -/
def writeArtifacts (files : FileAccess Effect) (verbose : Bool) (output : String)
    (artifacts : List (String × String)) : CommandRun Effect Unit := do
  perform (files.makeDirectories output)
  artifacts.forM fun (name, text) => do
    let path := FilePath.join output (name ++ ".json")
    perform (files.write path text)
    sayIf verbose s!"Wrote {path}"

/-- Reports why a compilation was refused, and gives the exit code. -/
def report (error : CompileError) : CommandRun Effect Nat :=
  match error with
  | .misalignedBlock _ => throw .misalignedBlock
  | _ => do
      warn s!"error: {error.message}"
      return 1

/-- Compiles schema documents to one artifact for each module. -/
def runSchema (files : FileAccess Effect) (invocation : Invocation) (settings : Settings)
    (paths : List String) (output : String) : CommandRun Effect Nat := do
  let sources ← paths.mapM (readSource files)
  match SchemaCompiler.compile settings sources with
  | .error error => report error
  | .ok tables =>
      writeArtifacts files invocation.verbose output
        (tables.map fun table => (table.module, table.artifact))
      sayIf (!invocation.quiet)
        s!"Success: {tables.length} module(s) compiled from {paths.length} file(s)"
      return 0

/-- The operations of a file; a host file without any is passed over. -/
def readOperations (files : FileAccess Effect) (invocation : Invocation) (path : String) :
    CommandRun Effect (Option OperationInput) := do
  let source ← readSource files path
  if isHostFile path then
    let found ← embeddedIn path source.text
    if found.documents.isEmpty then
      sayIf invocation.verbose s!"Skipped {path}"
      return none
    return some (.embedded found)
  return some (.plain source)

/-- The hashes of operation names, by destination; both sorted. -/
def hashesByDestination (registries : List OperationRegistry) : Json :=
  (Json.object (registries.map fun registry =>
    (registry.destination,
      .object (registry.hashes.entries.map fun (name, hash) => (name, .string hash))))).canonical

/-- Compiles operations to one artifact for each destination. -/
def runOperations (files : FileAccess Effect) (invocation : Invocation) (settings : Settings)
    (paths : List String) (output : String) : CommandRun Effect Nat := do
  let inputs ← paths.mapM (readOperations files invocation)
  match OperationCompiler.compile settings (inputs.filterMap id) with
  | .error error => report error
  | .ok registries =>
      writeArtifacts files invocation.verbose output
        (registries.map fun registry => (registry.destination, registry.artifact))
      sayIf (!invocation.quiet) (hashesByDestination registries).prettyText
      return 0

/-- The lines that report a fault in a document. -/
def faultLines (source : SourceFile) (fault : Diagnostic) : List String :=
  let location := source.locate (fault.primarySpan?.getD (.empty 0))
  [s!"{fault.severity.text}[{fault.code.text}] {fault.title}", s!"  --> {location.text}"] ++
    if fault.message = fault.title then [] else [s!"      {fault.message}"]

/-- Reports the fault in a document, and tells whether there is none. -/
def checkDocument (source : SourceFile) : CommandRun Effect Bool := do
  match Document.parse source.chars with
  | .error _ => throw .misalignedBlock
  | .ok parsed =>
      match parsed.fault with
      | none => return true
      | some fault =>
          (faultLines source fault).forM warn
          return false

/-- Reports the faults in a file, and tells whether there are none. -/
def checkFile (files : FileAccess Effect) (invocation : Invocation) (path : String) :
    CommandRun Effect Bool := do
  sayIf invocation.verbose s!"Checking {path}"
  let source ← readSource files path
  let documents ←
    if isHostFile path then
      pure (← embeddedIn path source.text).documents
    else
      pure [source]
  let sound := (← documents.mapM checkDocument).all id
  sayIf (sound && invocation.verbose) s!"OK {path}"
  return sound

/-- Reads files and reports the faults in them. -/
def runCheck (files : FileAccess Effect) (invocation : Invocation) (paths : List String) :
    CommandRun Effect Nat := do
  let sound := (← paths.mapM (checkFile files invocation)).all id
  if sound then
    sayIf (!invocation.quiet) s!"Success: {paths.length} file(s) checked"
    return 0
  return 1

/-- Carries out a command. -/
def run (files : FileAccess Effect) (invocation : Invocation) : CommandRun Effect Nat := do
  let settings ← loadSettings files invocation.config
  match invocation.command with
  | .schema paths output => runSchema files invocation settings paths output
  | .operations paths output => runOperations files invocation settings paths output
  | .check paths => runCheck files invocation paths

/-- What came of a run. -/
structure RunResult where
  outcome : Except RunFailure Nat
  transcript : Transcript

/-- What comes of carrying out a command. -/
def runToEnd (files : FileAccess Effect) (invocation : Invocation) : Effect RunResult := do
  let (outcome, transcript) ← ((run files invocation).run).run {}
  return ⟨outcome, transcript⟩

/-- What comes of carrying out a command on a tree of files, and the tree afterwards. -/
def runOn (tree : FileTree) (invocation : Invocation) : RunResult × FileTree :=
  (runToEnd FileTree.access invocation).run tree

end CommandLine

end WiredGraph
