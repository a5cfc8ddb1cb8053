import WiredGraph.Proofs.CommandLine.Running
import WiredGraph.Proofs.Descriptor.RoundTrip
import WiredGraph.Proofs.Operation.Compilation
import WiredGraph.Proofs.Operation.RoundTrip
import WiredGraph.Proofs.Schema.Partition

/-!
# What commands write

A command that compiles files writes nothing unless the compilation succeeds. A schema leaves one
file for each module, right in the directory that was asked for, and nothing else is written.
Operations do so if no destination has a slash; a destination is used as it stands in the comment
that names it, so with slashes in it a file may stand elsewhere, and replace another one.
-/

namespace WiredGraph

namespace CommandLine

variable {State : Type} {files : FileMap State} {state after : State} {invocation : Invocation}
  {settings : Settings} {contents : String → String} {paths : List String} {output : String}

/-- The source of a path with the text that stands there. -/
def sourceAt (contents : String → String) (path : String) : SourceFile := ⟨path, contents path, 1⟩

/-- The input that a file is for operations, if it is one. -/
def operationInput? (source : SourceFile) : Except MisalignedBlock (Option OperationInput) :=
  if isHostFile source.path then do
    let found ← EmbeddedDocuments.ofHostFile source.path source.text
    return if found.documents.isEmpty then none else some (.embedded found)
  else
    .ok (some (.plain source))

/-- The registries that files lead to, if operations can be taken from them and compiled. -/
def registries? (settings : Settings) (sources : List SourceFile) :
    Option (List OperationRegistry) := do
  let inputs ← (sources.mapM operationInput?).toOption
  (OperationCompiler.compile settings (inputs.filterMap id)).toOption

/-- The settings that a run is given: those in its configuration file, or the standard ones. -/
def Configures (files : FileMap State) (state : State) (settings : Settings) :
    Option String → Prop
  | none => settings = .standard
  | some path => ∃ text, ((files.access.read path).run state).1 = .ok text ∧
      Settings.ofText? text = some settings

theorem onlyReads_loadSettings {config : Option String}
    (configures : Configures files state settings config) :
    OnlyReads (loadSettings files.access config) state (.ok settings) := by
  cases config with
  | none =>
      cases configures
      exact .pure Settings.standard
  | some path =>
      rcases configures with ⟨text, readable, given⟩
      refine (OnlyReads.perform files readable).bind_ok ?_
      rw [Settings.read_eq_ok_iff.mpr given]
      exact .pure settings

theorem onlyReads_readSource {path : String}
    (readable : ((files.access.read path).run state).1 = .ok (contents path)) :
    OnlyReads (readSource files.access path) state (.ok (sourceAt contents path)) :=
  (OnlyReads.perform files readable).bind_ok (.pure (sourceAt contents path))

theorem onlyReads_readOperations (invocation : Invocation) {path : String}
    (readable : ((files.access.read path).run state).1 = .ok (contents path)) :
    OnlyReads (readOperations files.access invocation path) state
      ((operationInput? (sourceAt contents path)).mapError fun _ => .misalignedBlock) := by
  refine (onlyReads_readSource readable).bind_ok ?_
  rw [operationInput?, show (sourceAt contents path).path = path from rfl, embeddedIn]
  split
  · cases EmbeddedDocuments.ofHostFile path (sourceAt contents path).text with
    | error block => exact fun transcript => ⟨transcript, rfl⟩
    | ok found =>
        refine (OnlyReads.pure found).bind_ok ?_
        change OnlyReads _ state (.ok (if found.documents.isEmpty then none else _))
        cases found.documents.isEmpty
        · exact .pure (some (OperationInput.embedded found))
        · exact (OnlyReads.sayIf invocation.verbose _).bind_ok (.pure Option.none)
  · exact .pure (some (OperationInput.plain (sourceAt contents path)))

/-- A run that reports an error has no success, and leaves the files as they are. -/
theorem onlyReads_report (error : CompileError) (state : State) :
    ∃ outcome, outcome ≠ .ok 0 ∧
      OnlyReads (report error : CommandRun (StateM State) Nat) state outcome := by
  cases error
  case misalignedBlock => exact ⟨.error .misalignedBlock, nofun, .throw _⟩
  all_goals exact ⟨.ok 1, nofun, (OnlyReads.warn _).bind_ok (.pure 1)⟩

/-- What follows the compilation, if it has succeeded. -/
theorem text_of_finish {verbose occasion : Bool} {line : String} {code : Nat}
    {artifacts : List (String × String)}
    (leads : Leads (do
      writeArtifacts files.access verbose output artifacts
      sayIf occasion line
      return 0) state code after) :
    files.text? after = written output artifacts (files.text? state) := by
  rcases leads.bind with ⟨_, between, wrote, finished⟩
  have said := finished.of_bind_onlyReads (OnlyReads.sayIf occasion line)
  rw [(said.of_onlyReads (OnlyReads.pure 0)).2]
  exact text_of_writeArtifacts files wrote

section Schema

theorem onlyReads_readSources
    (readable : ∀ path ∈ paths, ((files.access.read path).run state).1 = .ok (contents path)) :
    OnlyReads (paths.mapM (readSource files.access)) state
      (.ok (paths.map (sourceAt contents))) := by
  have sources := OnlyReads.mapM fun path path_mem => onlyReads_readSource (readable path path_mem)
  rwa [show paths.mapM (fun path => Except.ok (sourceAt contents path)) =
    .ok (paths.map (sourceAt contents)) from List.mapM_pure] at sources

theorem onlyReads_runSchema (invocation : Invocation)
    (readable : ∀ path ∈ paths, ((files.access.read path).run state).1 = .ok (contents path))
    (refused : ∀ tables,
      SchemaCompiler.compile settings (paths.map (sourceAt contents)) ≠ .ok tables) :
    ∃ outcome, outcome ≠ .ok 0 ∧
      OnlyReads (runSchema files.access invocation settings paths output) state outcome := by
  cases compiled : SchemaCompiler.compile settings (paths.map (sourceAt contents)) with
  | ok tables => exact absurd compiled (refused tables)
  | error error =>
      rcases onlyReads_report error state with ⟨outcome, failed, reports⟩
      refine ⟨outcome, failed, (onlyReads_readSources readable).bind_ok ?_⟩
      rwa [compiled]

theorem exists_tables_of_runSchema
    (readable : ∀ path ∈ paths, ((files.access.read path).run state).1 = .ok (contents path))
    (leads : Leads (runSchema files.access invocation settings paths output) state 0 after) :
    ∃ tables, SchemaCompiler.compile settings (paths.map (sourceAt contents)) = .ok tables ∧
      files.text? after =
        written output (tables.map fun table => (table.module, table.artifact))
          (files.text? state) := by
  have compiles := leads.of_bind_onlyReads (onlyReads_readSources readable)
  cases compiled : SchemaCompiler.compile settings (paths.map (sourceAt contents)) with
  | ok tables =>
      rw [compiled] at compiles
      exact ⟨tables, rfl, text_of_finish compiles⟩
  | error error =>
      rw [compiled] at compiles
      rcases onlyReads_report error state with ⟨outcome, failed, reports⟩
      exact absurd (compiles.of_onlyReads reports).1 failed

end Schema

section Operations

theorem onlyReads_readInputs (invocation : Invocation)
    (readable : ∀ path ∈ paths, ((files.access.read path).run state).1 = .ok (contents path)) :
    OnlyReads (paths.mapM (readOperations files.access invocation)) state
      (((paths.map (sourceAt contents)).mapM operationInput?).mapError fun _ =>
        .misalignedBlock) := by
  have inputs := OnlyReads.mapM fun path path_mem =>
    onlyReads_readOperations invocation (readable path path_mem)
  have sameOutcome : ∀ paths : List String,
      paths.mapM (fun path => (operationInput? (sourceAt contents path)).mapError fun _ =>
          RunFailure.misalignedBlock) =
        ((paths.map (sourceAt contents)).mapM operationInput?).mapError fun _ =>
          .misalignedBlock := by
    intro paths
    induction paths with
    | nil => rfl
    | cons path rest ih =>
        rw [List.mapM_cons, List.map_cons, List.mapM_cons, ih]
        cases operationInput? (sourceAt contents path) <;>
          cases (rest.map (sourceAt contents)).mapM operationInput? <;> rfl
  rwa [sameOutcome] at inputs

theorem onlyReads_runOperations (invocation : Invocation)
    (readable : ∀ path ∈ paths, ((files.access.read path).run state).1 = .ok (contents path))
    (refused : registries? settings (paths.map (sourceAt contents)) = none) :
    ∃ outcome, outcome ≠ .ok 0 ∧
      OnlyReads (runOperations files.access invocation settings paths output) state outcome := by
  have inputs := onlyReads_readInputs invocation readable
  cases taken : (paths.map (sourceAt contents)).mapM operationInput? with
  | error block =>
      rw [taken] at inputs
      exact ⟨.error .misalignedBlock, nofun,
        inputs.bind (fun _ => .error .misalignedBlock) nofun⟩
  | ok found =>
      rw [taken] at inputs
      have refused : (OperationCompiler.compile settings (found.filterMap id)).toOption = none := by
        rwa [registries?, taken] at refused
      cases compiled : OperationCompiler.compile settings (found.filterMap id) with
      | ok registries =>
          rw [compiled] at refused
          nomatch refused
      | error error =>
          rcases onlyReads_report error state with ⟨outcome, failed, reports⟩
          refine ⟨outcome, failed, OnlyReads.bind_ok inputs ?_⟩
          rwa [compiled]

theorem exists_registries_of_runOperations
    (readable : ∀ path ∈ paths, ((files.access.read path).run state).1 = .ok (contents path))
    (leads : Leads (runOperations files.access invocation settings paths output) state 0 after) :
    ∃ registries, registries? settings (paths.map (sourceAt contents)) = some registries ∧
      files.text? after =
        written output (registries.map fun registry => (registry.destination, registry.artifact))
          (files.text? state) := by
  rcases leads.bind with ⟨found, between, here, compiles⟩
  rcases here.of_onlyReads (onlyReads_readInputs invocation readable) with ⟨taken, rfl⟩
  have taken : (paths.map (sourceAt contents)).mapM operationInput? = .ok found := by
    cases outcome : (paths.map (sourceAt contents)).mapM operationInput? with
    | ok inputs =>
        rw [outcome] at taken
        exact congrArg Except.ok (Except.ok.inj taken)
    | error block =>
        rw [outcome] at taken
        nomatch taken
  cases compiled : OperationCompiler.compile settings (found.filterMap id) with
  | ok registries =>
      rw [compiled] at compiles
      refine ⟨registries, ?_, text_of_finish compiles⟩
      rw [registries?, taken]
      exact congrArg Except.toOption compiled
  | error error =>
      rw [compiled] at compiles
      rcases onlyReads_report error between with ⟨outcome, failed, reports⟩
      exact absurd (compiles.of_onlyReads reports).1 failed

end Operations

/-- The paths of the files that a command compiles or checks. -/
def Command.inputPaths : Command → List String
  | .schema paths _ | .operations paths _ | .check paths => paths

/-- The modules of compiled tables are names that files can have. -/
theorem not_mem_module {sources : List SourceFile} {tables : List DescriptorTable}
    (compiled : SchemaCompiler.compile settings sources = .ok tables) {table : DescriptorTable}
    (table_mem : table ∈ tables) : '/' ∉ table.module.toList := by
  have declares := (SchemaCompiler.compile_eq_ok_iff.mp compiled).1
  have module_mem := (SchemaCompiler.describes_of_mem compiled table_mem).1
  rw [SchemaCompiler.modules, List.mem_eraseDups] at module_mem
  rcases List.mem_map.mp module_mem with ⟨_, source_mem, named⟩
  rcases List.mem_map.mp source_mem with ⟨file, file_mem, rfl⟩
  rcases declares.placed file file_mem with ⟨module, found⟩
  rw [← named, SchemaSource.ofFile, found]
  exact ModuleLayout.not_mem_moduleFor found

theorem nodup_destinations {sources : List SourceFile} {registries : List OperationRegistry}
    (compiled : registries? settings sources = some registries) :
    (registries.map OperationRegistry.destination).Nodup := by
  rcases Option.bind_eq_some_iff.mp compiled with ⟨inputs, -, compiled⟩
  rcases OperationCompiler.compile_eq_ok_iff.mp (Success.toOption_eq_some_iff.mp compiled) with
    ⟨-, accepted, -, -, rfl⟩
  rw [(OperationCompiler.collectedIn_values_foldl_route _).destinations]
  exact Distinct.nodup_eraseDups _

/-- Tables are written into files of their own, since the names of their modules are distinct and
have no slashes. -/
theorem holdsEach_tables {sources : List SourceFile} {tables : List DescriptorTable}
    (compiled : SchemaCompiler.compile settings sources = .ok tables)
    (texts : List String → Option String) :
    HoldsEach output (tables.map fun table => (table.module, table.artifact)) texts
      (written output (tables.map fun table => (table.module, table.artifact)) texts) := by
  apply holdsEach_written
  · rw [List.map_map]
    exact SchemaCompiler.nodup_modules_of_compile compiled
  · rw [List.forall_mem_map]
    exact fun table table_mem => not_mem_module compiled table_mem

/-- Registries are written into files of their own if their destinations have no slashes. -/
theorem holdsEach_registries {sources : List SourceFile} {registries : List OperationRegistry}
    (compiled : registries? settings sources = some registries)
    (noSlash : ∀ registry ∈ registries, '/' ∉ registry.destination.toList)
    (texts : List String → Option String) :
    HoldsEach output (registries.map fun registry => (registry.destination, registry.artifact))
      texts (written output
        (registries.map fun registry => (registry.destination, registry.artifact)) texts) := by
  apply holdsEach_written
  · rw [List.map_map]
    exact nodup_destinations compiled
  · rw [List.forall_mem_map]
    exact noSlash

theorem run_of_schema (access : FileAccess (StateM State))
    (command : invocation.command = .schema paths output) :
    run access invocation = loadSettings access invocation.config >>= fun settings =>
      runSchema access invocation settings paths output := by
  rw [run]
  simp only [command]

theorem run_of_operations (access : FileAccess (StateM State))
    (command : invocation.command = .operations paths output) :
    run access invocation = loadSettings access invocation.config >>= fun settings =>
      runOperations access invocation settings paths output := by
  rw [run]
  simp only [command]

section Run

variable {next : Settings → CommandRun (StateM State) Nat}

/-- A run whose command only reads, and does not succeed, leaves the files as they are. -/
theorem runToEnd_of_onlyReads
    (whole : run files.access invocation = loadSettings files.access invocation.config >>= next)
    (configures : Configures files state settings invocation.config)
    (refuses : ∃ outcome, outcome ≠ .ok 0 ∧ OnlyReads (next settings) state outcome) :
    ((runToEnd files.access invocation).run state).1.outcome ≠ .ok 0 ∧
      ((runToEnd files.access invocation).run state).2 = state := by
  rcases refuses with ⟨outcome, failed, onlyReads⟩
  rcases (onlyReads_loadSettings configures).bind_ok onlyReads {} with ⟨lines, ran⟩
  rw [← whole] at ran
  exact ⟨fun succeeded => failed ((congrArg (·.1.1) ran).symm.trans succeeded),
    congrArg Prod.snd ran⟩

/-- A run succeeds only if its command does. -/
theorem leads_of_runToEnd
    (whole : run files.access invocation = loadSettings files.access invocation.config >>= next)
    (configures : Configures files state settings invocation.config)
    (succeeded : ((runToEnd files.access invocation).run state).1.outcome = .ok 0) :
    Leads (next settings) state 0 ((runToEnd files.access invocation).run state).2 := by
  have leads : Leads (run files.access invocation) state 0
      ((runToEnd files.access invocation).run state).2 := by
    refine ⟨{}, (carryOut (run files.access invocation) {} state).1.2, ?_⟩
    exact Prod.ext (Prod.ext succeeded rfl) rfl
  rw [whole] at leads
  exact leads.of_bind_onlyReads (onlyReads_loadSettings configures)

end Run

/-- A run whose compilation is refused does not succeed, and leaves all files as they are. A schema
run that succeeds leaves each table in a file of its own, right in the output directory. After a
successful run for operations each place has the last artifact that was meant for it; so if no
destination has a slash, each registry has a file of its own right in the output directory, too. No
other file changes, and what is in the files is read back as the tables and registries. -/
theorem outputs_of_run (files : FileMap State) (invocation : Invocation) (state : State)
    (settings : Settings) (contents : String → String)
    (configures : Configures files state settings invocation.config)
    (readable : ∀ path ∈ invocation.command.inputPaths,
      ((files.access.read path).run state).1 = .ok (contents path)) :
    let ran := (runToEnd files.access invocation).run state
    (∀ paths output, invocation.command = .schema paths output →
      let compiled := SchemaCompiler.compile settings (paths.map (sourceAt contents))
      ((∀ tables, compiled ≠ .ok tables) → ran.1.outcome ≠ .ok 0 ∧ ran.2 = state) ∧
        (ran.1.outcome = .ok 0 → ∃ tables, compiled = .ok tables ∧
          HoldsEach output (tables.map fun table => (table.module, table.artifact))
            (files.text? state) (files.text? ran.2) ∧
          ∀ table ∈ tables, (∀ number ∈ table.toJson.floats, number.IsReadBack) →
            ∀ found, DescriptorTable.ofArtifact? table.artifact = some found ↔
              (∀ value ∈ table.defaults, value.isFinite) ∧
                table.toJson.depth ≤ JsonReading.depthLimit ∧ table = found)) ∧
    ∀ paths output, invocation.command = .operations paths output →
      let compiled := registries? settings (paths.map (sourceAt contents))
      (compiled = none → ran.1.outcome ≠ .ok 0 ∧ ran.2 = state) ∧
        (ran.1.outcome = .ok 0 → ∃ registries, compiled = some registries ∧
          (∀ place, files.text? ran.2 place =
            ((registries.reverse.find? (artifactPlace output ·.destination = place)).map
              OperationRegistry.artifact).or (files.text? state place)) ∧
          ((∀ registry ∈ registries, '/' ∉ registry.destination.toList) →
            HoldsEach output
              (registries.map fun registry => (registry.destination, registry.artifact))
              (files.text? state) (files.text? ran.2)) ∧
          ∀ registry ∈ registries,
            OperationRegistry.ofArtifact? registry.artifact = some registry) := by
  constructor
  · intro paths output command
    have whole := run_of_schema files.access command
    rw [command] at readable
    refine ⟨fun refused => ?_, fun succeeded => ?_⟩
    · exact runToEnd_of_onlyReads whole configures (onlyReads_runSchema invocation readable refused)
    · rcases exists_tables_of_runSchema readable (leads_of_runToEnd whole configures succeeded) with
        ⟨tables, compiled, texts⟩
      refine ⟨tables, compiled, ?_, fun table _ exact => ?_⟩
      · rw [texts]
        exact holdsEach_tables compiled _
      · exact DescriptorTable.ofArtifact?_artifact_eq_some_iff exact
  · intro paths output command
    have whole := run_of_operations files.access command
    rw [command] at readable
    refine ⟨fun refused => ?_, fun succeeded => ?_⟩
    · exact runToEnd_of_onlyReads whole configures
        (onlyReads_runOperations invocation readable refused)
    · rcases exists_registries_of_runOperations readable
        (leads_of_runToEnd whole configures succeeded) with ⟨registries, compiled, texts⟩
      refine ⟨registries, compiled, fun place => ?_, fun noSlash => ?_,
        fun registry _ => registry.ofArtifact?_artifact⟩
      · rw [texts, written_eq, ← List.map_reverse, List.find?_map, Option.map_map]
        rfl
      · rw [texts]
        exact holdsEach_registries compiled noSlash _

/-- A schema document, a host file with operations for two destinations, and an older file. -/
def gardenFiles : FileTree :=
  .ofFiles [("garden/garden.graphql", "type Plot \x7b id: ID \x7d"),
    ("web/gql.ts", "export const PLOT = gql\x60query Plot \x7b plot \x7d\x60; " ++
      "/** @mDest admin */ export const PLOTS = gql\x60query Plots \x7b plots \x7d\x60;"),
    ("build/operations/old.json", "old")]

/-- What stands at a path. -/
def gardenText (path : String) : String := (gardenFiles.read path).toOption.getD ""

/-- The compilation of one schema file into a directory. -/
def gardenSchema : Invocation :=
  ⟨false, false, none, .schema ["garden/garden.graphql"] "build/schema"⟩

/-- The compilation of one host file into a directory. -/
def gardenOperations : Invocation :=
  ⟨false, false, none, .operations ["web/gql.ts"] "build/operations"⟩

theorem outputs_of_run_gardenFiles :
    (∃ tables : List DescriptorTable, tables.map DescriptorTable.module = ["garden"] ∧
      HoldsEach "build/schema" (tables.map fun table => (table.module, table.artifact))
        (FileTree.fileMap.text? gardenFiles) (FileTree.fileMap.text?
          ((runToEnd FileTree.fileMap.access gardenSchema).run gardenFiles).2)) ∧
    ∃ registries : List OperationRegistry,
      registries.map OperationRegistry.destination = ["default", "admin"] ∧
      HoldsEach "build/operations"
        (registries.map fun registry => (registry.destination, registry.artifact))
        (FileTree.fileMap.text? gardenFiles) (FileTree.fileMap.text?
          ((runToEnd FileTree.fileMap.access gardenOperations).run gardenFiles).2) := by
  have facts : (∀ path ∈ ["garden/garden.graphql", "web/gql.ts"],
        (gardenFiles.read path).toOption.isSome = true) ∧
      (∀ invocation ∈ [gardenSchema, gardenOperations],
        ((runToEnd FileTree.fileMap.access invocation).run gardenFiles).1.outcome.toOption =
          some 0) ∧
      (SchemaCompiler.compile .standard (["garden/garden.graphql"].map
        (sourceAt gardenText))).toOption.map (·.map DescriptorTable.module) = some ["garden"] ∧
      (registries? .standard (["web/gql.ts"].map (sourceAt gardenText))).map
        (·.map OperationRegistry.destination) = some ["default", "admin"] := by decide +kernel
  rcases facts with ⟨found, succeeds, modules, destinations⟩
  have readable : ∀ path ∈ ["garden/garden.graphql", "web/gql.ts"],
      gardenFiles.read path = .ok (gardenText path) := by
    intro path path_mem
    rcases Option.isSome_iff_exists.mp (found path path_mem) with ⟨text, standing⟩
    rw [gardenText, standing]
    exact Success.toOption_eq_some_iff.mp standing
  have ran : ∀ invocation ∈ [gardenSchema, gardenOperations],
      ((runToEnd FileTree.fileMap.access invocation).run gardenFiles).1.outcome = .ok 0 :=
    fun invocation invocation_mem =>
      Success.toOption_eq_some_iff.mp (succeeds invocation invocation_mem)
  have schema := (outputs_of_run FileTree.fileMap gardenSchema gardenFiles .standard gardenText rfl
    fun path path_mem => readable path (List.mem_of_mem_take (i := 1) path_mem)).1 _ _ rfl
  have operations := (outputs_of_run FileTree.fileMap gardenOperations gardenFiles .standard
    gardenText rfl
    fun path path_mem => readable path (List.mem_of_mem_drop (i := 1) path_mem)).2 _ _ rfl
  rcases schema.2 (ran gardenSchema (by simp)) with ⟨tables, compiled, holds, -⟩
  rcases operations.2 (ran gardenOperations (by simp)) with
    ⟨registries, taken, -, holdIfPlain, -⟩
  rw [compiled] at modules
  rw [taken] at destinations
  have destinations := Option.some.inj destinations
  refine ⟨⟨tables, Option.some.inj modules, holds⟩, registries, destinations, holdIfPlain ?_⟩
  have noSlash : ∀ destination ∈ ["default", "admin"], '/' ∉ destination.toList := by decide
  intro registry registry_mem
  exact noSlash _ (destinations ▸ List.mem_map_of_mem registry_mem)

end CommandLine

end WiredGraph
