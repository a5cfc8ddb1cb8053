import WiredGraph.Proofs.Schema.Compilation

/-!
# When schemas can be compiled

The checks of a compilation are made in several places: while types are gathered, for the modules
one by one, and at the end. Together they amount to the conditions of `Compilable`, which speak of
the input alone. The modules check only what they describe, but every field of a type is described
by some module, and every type by its owner, so nothing is left unchecked.
-/

namespace WiredGraph

namespace SchemaCompiler

/-- The conditions under which schema documents can be compiled. -/
structure Compilable (settings : Settings) (files : List SourceFile) : Prop
    extends Declares settings files where
  /-- No two fields of a type have the same name, wherever they are declared. -/
  disjoint : ∀ type ∈ types settings files, (type.declarations.map (·.name.text)).Nodup
  /-- Every type refers to the callables that it needs. -/
  wired : ∀ type ∈ types settings files, type.IsWired settings
  /-- Every field that names a resolver refers to one. -/
  fieldsWired : ∀ type ∈ types settings files, ∀ declaration ∈ type.declarations,
    declaration.IsWired settings
  /-- Every default value of a field or of an argument can be kept. -/
  defaults : ∀ type ∈ types settings files, ∀ declaration ∈ type.declarations,
    ∀ value ∈ declaration.defaults, value.IsDefault

variable {settings : Settings} {files : List SourceFile}

/-- The owner of a type describes it. -/
theorem exists_module_of_type {type : DeclaredType} (type_mem : type ∈ types settings files) :
    ∃ module ∈ modules (sources settings files), type ∈ typesIn settings files module :=
  ⟨_, module_mem_of_mem_contributions type_mem List.mem_cons_self,
    mem_typesIn.mpr ⟨type_mem, DeclaredType.isDescribedIn_owner⟩⟩

/-- Some module describes a field together with its type. The fields of an object type are described
where they are declared, others by the owner. -/
theorem Declares.exists_module_of_declaration (declares : Declares settings files)
    {type : DeclaredType} (type_mem : type ∈ types settings files)
    {declaration : FieldDeclaration} (declaration_mem : declaration ∈ type.declarations) :
    ∃ module ∈ modules (sources settings files), type ∈ typesIn settings files module ∧
      declaration ∈ type.declarationsFor module := by
  by_cases kind : type.kind = .object
  · rcases List.mem_flatMap.mp declaration_mem with ⟨contribution, contribution_mem, declared⟩
    have here : declaration ∈ type.declarationsIn contribution.source.module := by
      refine List.mem_flatMap.mpr ⟨contribution, ?_, declared⟩
      exact List.mem_filter.mpr ⟨contribution_mem, by simp⟩
    refine ⟨contribution.source.module,
      module_mem_of_mem_contributions type_mem contribution_mem, ?_, ?_⟩
    · rw [mem_typesIn, DeclaredType.isDescribedIn_iff (declares.isUniform type_mem)]
      exact ⟨type_mem, .inr ⟨kind, List.ne_nil_of_mem here⟩⟩
    · rwa [DeclaredType.declarationsFor, if_pos kind]
  · rcases exists_module_of_type type_mem with ⟨module, module_mem, described⟩
    refine ⟨module, module_mem, described, ?_⟩
    rwa [DeclaredType.declarationsFor, if_neg kind]

/-- A module has a table exactly if what it describes is fit for it. -/
theorem exists_table_iff (declares : Declares settings files) {module : String} :
    (∃ table, SchemaCompiler.table settings (types settings files) module = .ok table) ↔
      ∀ type ∈ typesIn settings files module,
        type.IsWired settings ∧ ∀ declaration ∈ type.declarationsFor module,
          declaration.IsWired settings ∧ ∀ value ∈ declaration.defaults, value.IsDefault := by
  have each : (∃ descriptors, List.Forall₂ (fun type => type.DescribedBy settings module)
      (typesIn settings files module) descriptors) ↔ _ := Success.exists_forall₂_iff
  have made : (∃ table, SchemaCompiler.table settings (types settings files) module = .ok table) ↔
      ∃ descriptors, List.Forall₂ (fun type => type.DescribedBy settings module)
        (typesIn settings files module) descriptors := by
    simp only [table_eq_ok_iff declares]
    constructor
    · rintro ⟨table, descriptors, described, -⟩
      exact ⟨descriptors, described⟩
    · rintro ⟨descriptors, described⟩
      exact ⟨_, descriptors, described, rfl⟩
  rw [made, each]
  refine forall₂_congr fun type type_mem => ?_
  have type_mem := (mem_typesIn.mp type_mem).1
  exact DeclaredType.exists_describedBy_iff (declares.isUniform type_mem)
    (isWellFormed_of_mem_types type_mem)

/-- Schema documents can be compiled exactly under the conditions of `Compilable`. -/
theorem compiles_iff_compilable (settings : Settings) (files : List SourceFile) :
    (∃ tables, compile settings files = .ok tables) ↔ Compilable settings files := by
  simp only [compile_eq_ok_iff]
  constructor
  · rintro ⟨tables, declares, made, disjoint⟩
    have fit : ∀ module ∈ modules (sources settings files),
        ∀ type ∈ typesIn settings files module, type.IsWired settings ∧
          ∀ declaration ∈ type.declarationsFor module,
            declaration.IsWired settings ∧ ∀ value ∈ declaration.defaults, value.IsDefault := by
      intro module module_mem
      exact (exists_table_iff declares).mp
        (Success.exists_forall₂_iff.mp ⟨tables, made⟩ module module_mem)
    have fieldFit : ∀ type ∈ types settings files, ∀ declaration ∈ type.declarations,
        declaration.IsWired settings ∧ ∀ value ∈ declaration.defaults, value.IsDefault := by
      intro type type_mem declaration declaration_mem
      rcases declares.exists_module_of_declaration type_mem declaration_mem with
        ⟨module, module_mem, described, here⟩
      exact (fit module module_mem type described).2 declaration here
    refine ⟨declares, disjoint, fun type type_mem => ?_, fun type type_mem declaration there => ?_,
      fun type type_mem declaration there => ?_⟩
    · rcases exists_module_of_type type_mem with ⟨module, module_mem, described⟩
      exact (fit module module_mem type described).1
    · exact (fieldFit type type_mem declaration there).1
    · exact (fieldFit type type_mem declaration there).2
  · intro compilable
    have made : ∀ module ∈ modules (sources settings files), ∃ table,
        SchemaCompiler.table settings (types settings files) module = .ok table := by
      intro module _
      rw [exists_table_iff compilable.toDeclares]
      intro type type_mem
      have type_mem := (mem_typesIn.mp type_mem).1
      refine ⟨compilable.wired type type_mem, fun declaration declaration_mem => ?_⟩
      have there := DeclaredType.mem_declarations_of_mem_declarationsFor declaration_mem
      exact ⟨compilable.fieldsWired type type_mem declaration there,
        compilable.defaults type type_mem declaration there⟩
    rcases Success.exists_forall₂_iff.mpr made with ⟨tables, tablesMade⟩
    exact ⟨tables, compilable.toDeclares, tablesMade, compilable.disjoint⟩

end SchemaCompiler

end WiredGraph
