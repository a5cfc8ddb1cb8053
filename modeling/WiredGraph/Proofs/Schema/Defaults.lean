import WiredGraph.Proofs.Descriptor.RoundTrip
import WiredGraph.Proofs.Schema.Acceptance

/-!
# What becomes of default values

A literal that cannot be a default value makes a compilation fail, and where nothing else is wrong
that is what the error says. Every other literal is in the table of the module that describes its
field. Reading the artifact of a table gives all of them back, unless one is infinite: a number that
is too large has a value in the table but none in the artifact.
-/

namespace WiredGraph

open Success (FailsOnly failsOnly_pure failsOnly_bind failsOnly_mapM failsOnly_of_exists_ok)

/-- The error says that one of some literals cannot be a default value. -/
def CompileError.Refuses (literals : List Value) (error : CompileError) : Prop :=
  ∃ value ∈ literals, ∃ fault, DefaultValue.ofValue value = .error fault ∧
    ∃ location typeName field, error = .unsupportedDefault location typeName field fault

mutual

/-- The digits of the floating point numbers in a literal. -/
def Value.floatDigits : Value → List String
  | .float digits _ => [digits]
  | .list items _ => Value.floatDigitsOfEach items
  | _ => []

/-- The digits of the floats in values. -/
def Value.floatDigitsOfEach : List Value → List String
  | [] => []
  | value :: rest => value.floatDigits ++ Value.floatDigitsOfEach rest

end

/-- No floating point number in the literal is too large. -/
def Value.InRange (value : Value) : Prop :=
  ∀ digits ∈ value.floatDigits, ∃ number, NumberLiteral.float? digits.toList = some (.finite number)

namespace DefaultValue

mutual

theorem isFinite_iff_of_ofValue : (value : Value) → {default : DefaultValue} →
    ofValue value = .ok default → (default.isFinite = true ↔ value.InRange)
  | .int digits _, _, kept => by
      rw [ofValue] at kept
      split at kept
      · cases kept
        exact iff_of_true rfl nofun
      · cases kept
  | .float digits _, _, kept => by
      rw [ofValue] at kept
      split at kept
      · next number found =>
          cases kept
          simp only [Value.InRange, Value.floatDigits, List.forall_mem_singleton, found]
          cases number <;> simp [isFinite, ExtendedBinary64.finite?]
      · cases kept
  | .string .., _, rfl => iff_of_true rfl nofun
  | .boolean .., _, rfl => iff_of_true rfl nofun
  | .null _, _, rfl => iff_of_true rfl nofun
  | .enum _, _, rfl => iff_of_true rfl nofun
  | .list items _, _, kept => by
      rcases Success.bind_eq_ok.mp kept with ⟨defaults, itemsKept, ⟨⟩⟩
      exact isFiniteEach_iff_of_ofValues items itemsKept

theorem isFiniteEach_iff_of_ofValues : (values : List Value) → {defaults : List DefaultValue} →
    ofValues values = .ok defaults → (isFiniteEach defaults = true ↔
      ∀ digits ∈ Value.floatDigitsOfEach values,
        ∃ number, NumberLiteral.float? digits.toList = some (.finite number))
  | [], _, rfl => iff_of_true rfl nofun
  | value :: rest, _, kept => by
      rcases Success.bind_eq_ok.mp kept with ⟨first, firstKept, kept⟩
      rcases Success.bind_eq_ok.mp kept with ⟨others, othersKept, ⟨⟩⟩
      rw [isFiniteEach, Bool.and_eq_true, isFinite_iff_of_ofValue value firstKept,
        isFiniteEach_iff_of_ofValues rest othersKept, Value.floatDigitsOfEach,
        List.forall_mem_append]
      rfl

end

end DefaultValue

section Kept

variable {settings : Settings} {value : Value}

theorem DefaultValue.Keeps.exists_default {declared : Option Value} {default : Option DefaultValue}
    (keeps : DefaultValue.Keeps declared default) (value_mem : value ∈ declared) :
    ∃ kept ∈ default, DefaultValue.ofValue value = .ok kept := by
  rw [Option.mem_def] at value_mem
  subst value_mem
  rcases default with - | kept
  · cases keeps
  · exact ⟨kept, rfl, Option.some.inj keeps⟩

/-- The description of a field has the default value of each literal in the field. -/
theorem FieldDeclaration.DescribedBy.exists_default {declaration : FieldDeclaration}
    {descriptor : FieldDescriptor} (described : declaration.DescribedBy settings descriptor)
    (value_mem : value ∈ declaration.defaults) :
    ∃ default ∈ descriptor.defaults, DefaultValue.ofValue value = .ok default := by
  rcases mem_defaults.mp value_mem with own | ⟨argument, argument_mem, value_mem⟩
  · rcases described.default.exists_default own with ⟨default, default_mem, kept⟩
    exact ⟨default, List.mem_append_left _ (Option.mem_toList.mpr default_mem), kept⟩
  · rcases Success.exists_right_of_forall₂ described.arguments argument_mem with
      ⟨argumentDescriptor, argumentDescriptor_mem, argumentDescribed⟩
    rcases argumentDescribed.default.exists_default value_mem with ⟨default, default_mem, kept⟩
    exact ⟨default, List.mem_append_right _
      (List.mem_filterMap.mpr ⟨argumentDescriptor, argumentDescriptor_mem, default_mem⟩), kept⟩

theorem DescriptorTable.mem_defaults {table : DescriptorTable} {name : String}
    {descriptor : TypeDescriptor} (descriptor_mem : descriptor ∈ table.partialsOf name)
    {field : FieldDescriptor} (field_mem : field ∈ descriptor.body.fields)
    {default : DefaultValue} (default_mem : default ∈ field.defaults) :
    default ∈ table.defaults := by
  have inField : default ∈ descriptor.defaults :=
    List.mem_flatMap.mpr ⟨field, field_mem, default_mem⟩
  rw [partialsOf] at descriptor_mem
  cases found : table.types.get? name with
  | none =>
      rw [found] at descriptor_mem
      cases descriptor_mem
  | some partials =>
      rw [found] at descriptor_mem
      exact List.mem_flatMap.mpr ⟨(name, partials), OrderedMap.mem_entries_of_get? found,
        List.mem_flatMap.mpr ⟨descriptor, descriptor_mem, inField⟩⟩

end Kept

section Fields

variable {literals : List Value} {settings : Settings}

theorem Subject.failsOnly_default? {subject : Subject} {field : String} {declared : Option Value}
    (within : ∀ value ∈ declared, value ∈ literals) :
    FailsOnly (CompileError.Refuses literals) (subject.default? field declared) := by
  rcases declared with - | value
  · exact failsOnly_of_exists_ok ⟨none, rfl⟩
  · intro error failed
    rw [default?] at failed
    cases found : DefaultValue.ofValue value with
    | ok default =>
        rw [found] at failed
        cases failed
    | error fault =>
        rw [found] at failed
        cases failed
        exact ⟨value, within value rfl, fault, found, _, _, _, rfl⟩

namespace TypeDefinition

variable {typeName : String} {source : SchemaSource}

/-- A field that is wired cannot be described only because of a default value. -/
theorem failsOnly_fieldDescriptor {field : FieldDefinition}
    (wired : (FieldDeclaration.output field).IsWired settings)
    (within : ∀ value ∈ (FieldDeclaration.output field).defaults, value ∈ literals) :
    FailsOnly (CompileError.Refuses literals) (fieldDescriptor settings typeName source field) := by
  refine failsOnly_bind (failsOnly_mapM fun argument argument_mem => ?_) fun arguments _ =>
    failsOnly_bind (failsOnly_of_exists_ok ?_) fun resolver _ => failsOnly_pure _
  · refine failsOnly_bind (Subject.failsOnly_default? fun value value_mem => ?_)
      fun default _ => failsOnly_pure _
    exact within value
      (FieldDeclaration.mem_defaults.mpr (.inr ⟨argument, argument_mem, value_mem⟩))
  · simp only [Subject.wiring?_eq_ok_iff]
    exact exists_wiredTo_iff.mpr wired

theorem failsOnly_inputFieldDescriptor {field : InputValueDefinition}
    (within : ∀ value ∈ (FieldDeclaration.input field).defaults, value ∈ literals) :
    FailsOnly (CompileError.Refuses literals)
      (inputFieldDescriptor settings typeName source field) := by
  refine failsOnly_bind (Subject.failsOnly_default? fun value value_mem => ?_)
    fun default _ => failsOnly_pure _
  exact within value (FieldDeclaration.mem_defaults.mpr (.inl value_mem))

end TypeDefinition

end Fields

namespace DeclaredType

variable {settings : Settings} {literals : List Value} {type : DeclaredType} {module : String}

theorem exists_wiring?_eq_ok {name : String}
    (gives : Directive.FirstGives type.directives name
      (Reference.IsReference settings.referenceTokens)) :
    ∃ reference, type.wiring? settings name = .ok reference := by
  simp only [wiring?_eq_ok_iff]
  exact exists_wiredTo_iff.mpr gives

/-- A type that is wired, with fields that are, cannot be described only because of a default
value. -/
theorem failsOnly_bodyIn (wired : type.IsWired settings)
    (fieldsWired : ∀ declaration ∈ type.declarations, declaration.IsWired settings)
    (within : ∀ declaration ∈ type.declarations, ∀ value ∈ declaration.defaults,
      value ∈ literals) :
    FailsOnly (CompileError.Refuses literals) (type.bodyIn settings module) := by
  have output : ∀ contribution ∈ type.contributions,
      FailsOnly (CompileError.Refuses literals) (contribution.fieldDescriptors settings) := by
    intro contribution contribution_mem
    refine failsOnly_mapM fun field field_mem => ?_
    have declared : .output field ∈ type.declarations := List.mem_flatMap.mpr
      ⟨contribution, contribution_mem, List.mem_append_left _ (List.mem_map_of_mem field_mem)⟩
    exact TypeDefinition.failsOnly_fieldDescriptor (fieldsWired _ declared) (within _ declared)
  have input : ∀ contribution ∈ type.contributions,
      FailsOnly (CompileError.Refuses literals) (contribution.inputFieldDescriptors settings) := by
    intro contribution contribution_mem
    refine failsOnly_mapM fun field field_mem => ?_
    have declared : .input field ∈ type.declarations := List.mem_flatMap.mpr
      ⟨contribution, contribution_mem, List.mem_append_right _ (List.mem_map_of_mem field_mem)⟩
    exact TypeDefinition.failsOnly_inputFieldDescriptor (within _ declared)
  have fieldless : ∃ body, type.HasBody settings [] body :=
    (exists_hasBody_iff fun _ => rfl).mpr wired
  rw [bodyIn]
  cases kind : type.kind with
  | object =>
      rw [IsWired, kind] at wired
      refine failsOnly_bind (failsOnly_mapM fun contribution contribution_mem =>
        output contribution (List.mem_of_mem_filter contribution_mem)) fun fields _ => ?_
      exact failsOnly_bind (failsOnly_of_exists_ok (exists_wiring?_eq_ok wired))
        fun _ _ => failsOnly_pure _
  | scalar =>
      simp only [← scalarBody_eq_ok_iff kind] at fieldless
      exact failsOnly_of_exists_ok fieldless
  | input =>
      rw [IsWired, kind] at wired
      refine failsOnly_bind (failsOnly_mapM input) fun fields _ => ?_
      exact failsOnly_bind (failsOnly_of_exists_ok (exists_wiring?_eq_ok wired))
        fun _ _ => failsOnly_pure _
  | enum => exact failsOnly_pure _
  | interface =>
      rw [IsWired, kind] at wired
      refine failsOnly_bind (failsOnly_mapM output) fun fields _ => ?_
      refine failsOnly_bind (failsOnly_of_exists_ok (exists_wiring?_eq_ok wired.2))
        fun typeResolver found => ?_
      have enough :
          ¬ (typeResolver.isNone = true ∧ type.name ∉ settings.typeResolverExemptions) := by
        rintro ⟨missing, notExempt⟩
        have present := (wiring?_eq_ok_iff.mp found).isSome_iff.mpr
          (wired.1.resolve_right notExempt)
        rw [Option.isNone_iff_eq_none.mp missing] at present
        cases present
      rw [if_neg enough]
      exact failsOnly_pure _
  | union =>
      simp only [← unionBody_eq_ok_iff kind] at fieldless
      exact failsOnly_of_exists_ok fieldless

end DeclaredType

namespace SchemaCompiler

/-- The literals that are declared as default values of fields and arguments. -/
def defaults (settings : Settings) (files : List SourceFile) : List Value :=
  (types settings files).flatMap fun type =>
    type.declarations.flatMap FieldDeclaration.defaults

variable {settings : Settings} {files : List SourceFile}

theorem mem_defaults {value : Value} :
    value ∈ defaults settings files ↔
      ∃ type ∈ types settings files, ∃ declaration ∈ type.declarations,
        value ∈ declaration.defaults := by
  simp only [defaults, List.mem_flatMap]

theorem isDefault_iff {value : Value} (value_mem : value ∈ defaults settings files) :
    value.IsDefault ↔ ∃ default, DefaultValue.ofValue value = .ok default := by
  rcases mem_defaults.mp value_mem with ⟨type, type_mem, declaration, declared, value_mem⟩
  have wellFormed := (isWellFormed_of_mem_types type_mem).defaults declaration declared
  exact (DefaultValue.exists_ofValue_iff (wellFormed value value_mem)).symm

/-- Tables can be made only if every literal can be a default value: each is described in some
module. -/
theorem Declares.isDefault_of_tables (declares : Declares settings files)
    {tables : List DescriptorTable}
    (made : (modules (sources settings files)).mapM
      (SchemaCompiler.table settings (types settings files)) = .ok tables) :
    ∀ value ∈ defaults settings files, value.IsDefault := by
  intro value value_mem
  rcases mem_defaults.mp value_mem with ⟨type, type_mem, declaration, declared, value_mem⟩
  rcases declares.exists_module_of_declaration type_mem declared with
    ⟨module, module_mem, described, here⟩
  have each := Success.exists_forall₂_iff.mp ⟨tables, Success.mapM_eq_ok_iff.mp made⟩
  have fit := (exists_table_iff declares).mp (each module module_mem)
  exact ((fit type described).2 declaration here).2 value value_mem

/-- A literal that cannot be a default value makes the compilation fail. -/
theorem isDefault_of_compile {tables : List DescriptorTable}
    (compiles : compile settings files = .ok tables) :
    ∀ value ∈ defaults settings files, value.IsDefault := by
  rcases compile_eq_ok_iff.mp compiles with ⟨declares, made, -⟩
  exact declares.isDefault_of_tables (Success.mapM_eq_ok_iff.mpr made)

/-- If nothing else is wrong, the error says which default value is. -/
theorem refuses_of_not_isDefault (declares : Declares settings files)
    (wired : ∀ type ∈ types settings files, type.IsWired settings)
    (fieldsWired : ∀ type ∈ types settings files, ∀ declaration ∈ type.declarations,
      declaration.IsWired settings)
    (unfit : ∃ value ∈ defaults settings files, ¬ value.IsDefault) :
    ∃ error, compile settings files = .error error ∧
      error.Refuses (defaults settings files) := by
  have tables : FailsOnly (CompileError.Refuses (defaults settings files))
      ((modules (sources settings files)).mapM
        (SchemaCompiler.table settings (types settings files))) := by
    refine failsOnly_mapM fun module _ => failsOnly_bind (failsOnly_mapM fun type type_mem => ?_)
      fun descriptors _ => failsOnly_pure _
    have type_mem := List.mem_of_mem_filter type_mem
    refine failsOnly_bind (DeclaredType.failsOnly_bodyIn (wired type type_mem)
      (fieldsWired type type_mem) fun declaration declared value value_mem => ?_)
      fun body _ => failsOnly_pure _
    exact mem_defaults.mpr ⟨type, type_mem, declaration, declared, value_mem⟩
  cases made : (modules (sources settings files)).mapM
      (SchemaCompiler.table settings (types settings files)) with
  | ok found =>
      rcases unfit with ⟨value, value_mem, notDefault⟩
      exact absurd (declares.isDefault_of_tables made value value_mem) notDefault
  | error error =>
      rcases gather_eq_ok_iff.mpr ⟨declares, rfl, rfl⟩ with ⟨parsed, read, placed, gathered⟩
      refine ⟨error, ?_, tables error made⟩
      rw [compile, Success.bind_eq_error]
      refine .inr ⟨parsed, read, Success.bind_eq_error.mpr (.inr ⟨_, placed, ?_⟩)⟩
      exact Success.bind_eq_error.mpr
        (.inr ⟨_, gathered, Success.bind_eq_error.mpr (.inl made)⟩)

/-- Every literal that is declared has its default value in some table. -/
theorem exists_default_of_compile {tables : List DescriptorTable}
    (compiles : compile settings files = .ok tables) :
    ∀ value ∈ defaults settings files, ∃ table ∈ tables, ∃ default ∈ table.defaults,
      DefaultValue.ofValue value = .ok default := by
  intro value value_mem
  rcases mem_defaults.mp value_mem with ⟨type, type_mem, declaration, declared, value_mem⟩
  rcases compile_eq_ok_iff.mp compiles with ⟨declares, -, -⟩
  rcases declares.exists_module_of_declaration type_mem declared with
    ⟨module, module_mem, described, here⟩
  rcases Success.exists_right_of_forall₂ (describes_of_compile compiles) module_mem with
    ⟨table, table_mem, describes⟩
  rcases describes.described type described with ⟨descriptor, only, describedBy⟩
  rcases Success.exists_right_of_forall₂ describedBy.fields here with
    ⟨field, field_mem, fieldDescribed⟩
  rcases fieldDescribed.exists_default value_mem with ⟨default, default_mem, kept⟩
  have descriptor_mem : descriptor ∈ table.partialsOf type.name :=
    only ▸ List.mem_singleton_self descriptor
  exact ⟨table, table_mem, default,
    DescriptorTable.mem_defaults descriptor_mem field_mem default_mem, kept⟩

/-- A literal that cannot be a default value is refused. Any other one has a default value in a
table, which is finite unless a number in it is too large; and the table is read back from its
artifact exactly if all its default values are finite and it does not nest too deep. -/
theorem defaults_refused_or_read_back (settings : Settings) (files : List SourceFile) :
    ((∃ value ∈ defaults settings files, ¬ value.IsDefault) →
      (∀ tables, compile settings files ≠ .ok tables) ∧
        (Declares settings files → (∀ type ∈ types settings files, type.IsWired settings) →
          (∀ type ∈ types settings files, ∀ declaration ∈ type.declarations,
            declaration.IsWired settings) →
          ∃ error, compile settings files = .error error ∧
            error.Refuses (defaults settings files))) ∧
    ∀ tables, compile settings files = .ok tables →
      (∀ value ∈ defaults settings files, ∃ table ∈ tables, ∃ default ∈ table.defaults,
        DefaultValue.ofValue value = .ok default ∧ (default.isFinite ↔ value.InRange)) ∧
      ∀ table ∈ tables, (∀ number ∈ table.toJson.floats, number.IsReadBack) →
        ∀ found, DescriptorTable.ofArtifact? table.artifact = some found ↔
          (∀ default ∈ table.defaults, default.isFinite) ∧
            table.toJson.depth ≤ JsonReading.depthLimit ∧ table = found := by
  refine ⟨fun unfit => ⟨?refused, ?reported⟩, fun tables compiles => ⟨?kept, ?readBack⟩⟩
  case refused =>
    intro tables compiles
    rcases unfit with ⟨value, value_mem, notDefault⟩
    exact notDefault (isDefault_of_compile compiles value value_mem)
  case reported =>
    intro declares wired fieldsWired
    exact refuses_of_not_isDefault declares wired fieldsWired unfit
  case kept =>
    intro value value_mem
    rcases exists_default_of_compile compiles value value_mem with
      ⟨table, table_mem, default, default_mem, kept⟩
    exact ⟨table, table_mem, default, default_mem, kept,
      DefaultValue.isFinite_iff_of_ofValue value kept⟩
  case readBack =>
    intro table _ exact found
    exact DescriptorTable.ofArtifact?_artifact_eq_some_iff exact found

/-- An argument whose default value is an integer that is one too large. -/
def tooLarge : List SourceFile :=
  [⟨"query.graphql", "type Query \x7b beds(count: Int = 9223372036854775808): Int \x7d", 1⟩]

/-- An argument whose default value has a number in it that is rounded to infinity. -/
def overflowing : List SourceFile :=
  [⟨"query.graphql", "type Query \x7b beds(sizes: [Float] = [1.5, 1e309]): Int \x7d", 1⟩]

theorem defaults_refused_or_read_back_tooLarge :
    (∃ value ∈ defaults .standard tooLarge, ¬ value.IsDefault) ∧
      (∃ error, compile .standard tooLarge = .error error ∧
        error.Refuses (defaults .standard tooLarge)) ∧
      ∃ tables, compile .standard overflowing = .ok tables ∧ ∃ table ∈ tables,
        (∀ number ∈ table.toJson.floats, number.IsReadBack) ∧
          (∃ default ∈ table.defaults, default.isFinite = false) ∧
            DescriptorTable.ofArtifact? table.artifact = none := by
  have unfit : ∃ value ∈ defaults .standard tooLarge, ¬ value.IsDefault := by
    have fails : ∃ value ∈ defaults .standard tooLarge,
        (DefaultValue.ofValue value).isOk = false := by decide +kernel
    rcases fails with ⟨value, value_mem, fails⟩
    refine ⟨value, value_mem, fun isDefault => ?_⟩
    rcases (isDefault_iff value_mem).mp isDefault with ⟨default, kept⟩
    rw [kept] at fails
    cases fails
  have declares : Declares .standard tooLarge := by
    refine ⟨by decide +kernel, ?_, by decide +kernel, ?_⟩
    · rw [tooLarge, List.forall_mem_singleton]
      exact ⟨_, rfl⟩
    · have none : (extensions .standard tooLarge).isEmpty = true := by decide +kernel
      rw [List.isEmpty_iff.mp none]
      exact List.forall_mem_nil _
  have plain : ∀ type ∈ types .standard tooLarge, type.kind = .object ∧
      type.directives.isEmpty = true ∧ ∀ declaration ∈ type.declarations,
        declaration.directives.isEmpty = true := by decide +kernel
  have wired : ∀ type ∈ types .standard tooLarge, type.IsWired .standard := by
    intro type type_mem
    rcases plain type type_mem with ⟨kind, noDirectives, -⟩
    rw [DeclaredType.IsWired, kind, List.isEmpty_iff.mp noDirectives]
    intro directive found
    cases found
  have fieldsWired : ∀ type ∈ types .standard tooLarge, ∀ declaration ∈ type.declarations,
      declaration.IsWired .standard := by
    intro type type_mem declaration declared
    have noDirectives := (plain type type_mem).2.2 declaration declared
    cases declaration with
    | output field =>
        have noDirectives : field.directives = [] := List.isEmpty_iff.mp noDirectives
        rw [FieldDeclaration.IsWired, noDirectives]
        intro directive found
        cases found
    | input field => trivial
  have outcome : (compile .standard overflowing).toOption.any (fun tables =>
      tables.any fun table => decide (∀ number ∈ table.toJson.floats, number.IsReadBack) &&
        table.defaults.any fun default => !default.isFinite) = true := by decide +kernel
  cases compiles : compile .standard overflowing with
  | error _ =>
      rw [compiles] at outcome
      cases outcome
  | ok tables =>
      rw [compiles] at outcome
      rcases List.any_eq_true.mp outcome with ⟨table, table_mem, facts⟩
      rcases Bool.and_eq_true_iff.mp facts with ⟨exact, infinite⟩
      rcases List.any_eq_true.mp infinite with ⟨default, default_mem, notFinite⟩
      have exact := of_decide_eq_true exact
      have notFinite : default.isFinite = false := by simpa using notFinite
      have readBack :=
        ((defaults_refused_or_read_back .standard overflowing).2 tables compiles).2 table table_mem
          exact
      refine ⟨unfit, ((defaults_refused_or_read_back .standard tooLarge).1 unfit).2 declares wired
        fieldsWired, tables, rfl, table, table_mem, exact, ⟨default, default_mem, notFinite⟩, ?_⟩
      rw [Option.eq_none_iff_forall_ne_some]
      intro found read
      have finite := ((readBack found).mp read).1 default default_mem
      rw [notFinite] at finite
      cases finite

end SchemaCompiler

end WiredGraph
