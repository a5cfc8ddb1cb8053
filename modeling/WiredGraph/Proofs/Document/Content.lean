import WiredGraph.Document.Definition

/-!
# The content of documents

Where a part of a document stands belongs to its source. What is left without it is the content of
the part: two documents are the same up to spans if their contents are equal. Some properties hold
only up to what texts between quotation marks are read as, so the content is taken with a function
that is applied to these texts.
-/

namespace WiredGraph

/-- The name of a field of an object value. -/
def ObjectField.name : ObjectField → Name
  | .mk name _ _ => name

/-- The value of a field of an object value. -/
def ObjectField.value : ObjectField → Value
  | .mk _ value _ => value

/-- Values are built from smaller ones in lists and in the fields of objects. -/
@[induction_eliminator]
theorem Value.induction {motive : Value → Prop} (var : ∀ name, motive (.var name))
    (int : ∀ digits span, motive (.int digits span))
    (float : ∀ digits span, motive (.float digits span))
    (string : ∀ text block span, motive (.string text block span))
    (boolean : ∀ value span, motive (.boolean value span)) (null : ∀ span, motive (.null span))
    (enum : ∀ name, motive (.enum name))
    (list : ∀ items span, (∀ item ∈ items, motive item) → motive (.list items span))
    (object : ∀ fields span, (∀ field ∈ fields, motive field.value) → motive (.object fields span))
    (value : Value) : motive value :=
  @Value.rec motive (fun field => motive field.value) (fun items => ∀ item ∈ items, motive item)
    (fun fields => ∀ field ∈ fields, motive field.value) var int float string boolean null enum
    (fun items span each => list items span each) (fun fields span each => object fields span each)
    (fun _ _ _ here => here) (by simp)
    (fun _ _ here later => List.forall_mem_cons.mpr ⟨here, later⟩) (by simp)
    (fun _ _ here later => List.forall_mem_cons.mpr ⟨here, later⟩) value

/-- Selections are built from smaller ones in the sets of fields and of inline fragments. -/
@[induction_eliminator]
theorem Selection.induction {motive : Selection → Prop}
    (leaf : ∀ aliasName name arguments directives span,
      motive (.field aliasName name arguments directives none span))
    (field : ∀ aliasName name arguments directives selections setSpan span,
      (∀ selection ∈ selections, motive selection) →
        motive (.field aliasName name arguments directives (some (.mk selections setSpan)) span))
    (spread : ∀ name directives span, motive (.spread name directives span))
    (inline : ∀ condition directives selections setSpan span,
      (∀ selection ∈ selections, motive selection) →
        motive (.inline condition directives (.mk selections setSpan) span))
    (selection : Selection) : motive selection :=
  @Selection.rec motive (fun set => ∀ selection ∈ set.selections, motive selection)
    (fun set => ∀ inner ∈ set, ∀ selection ∈ inner.selections, motive selection)
    (fun selections => ∀ selection ∈ selections, motive selection)
    (fun aliasName name arguments directives set span each =>
      match set with
      | none => leaf aliasName name arguments directives span
      | some (.mk selections setSpan) =>
          field aliasName name arguments directives selections setSpan span (each _ rfl))
    spread
    (fun condition directives set span each =>
      match set with
      | .mk selections setSpan => inline condition directives selections setSpan span each)
    (fun _ _ each => each) (by simp) (by simp) (by simp)
    (fun _ _ here later => List.forall_mem_cons.mpr ⟨here, later⟩) selection

/-- A name without its span. -/
def Name.content (name : Name) : Name := ⟨name.text, .empty 0⟩

/-- A type without its spans. -/
def TypeExpr.content : TypeExpr → TypeExpr
  | .named name => .named name.content
  | .list item _ => .list item.content (.empty 0)
  | .nonNull inner _ => .nonNull inner.content (.empty 0)

mutual

/-- A value without its spans, with its texts as they are read. -/
def Value.content (read : String → String) : Value → Value
  | .var name => .var name.content
  | .int digits _ => .int digits (.empty 0)
  | .float digits _ => .float digits (.empty 0)
  | .string text block _ => .string (read text) block (.empty 0)
  | .boolean value _ => .boolean value (.empty 0)
  | .null _ => .null (.empty 0)
  | .enum name => .enum name.content
  | .list items _ => .list (Value.contentEach read items) (.empty 0)
  | .object fields _ => .object (ObjectField.contentEach read fields) (.empty 0)

/-- Values without their spans. -/
def Value.contentEach (read : String → String) : List Value → List Value
  | [] => []
  | value :: rest => value.content read :: Value.contentEach read rest

/-- A field of an object value without its spans. -/
def ObjectField.content (read : String → String) : ObjectField → ObjectField
  | .mk name value _ => .mk name.content (value.content read) (.empty 0)

/-- Fields of an object value without their spans. -/
def ObjectField.contentEach (read : String → String) : List ObjectField → List ObjectField
  | [] => []
  | field :: rest => field.content read :: ObjectField.contentEach read rest

end

/-- An argument without its spans, with its texts as they are read. -/
def Argument.content (read : String → String) (argument : Argument) : Argument :=
  ⟨argument.name.content, argument.value.content read, .empty 0⟩

/-- A directive without its spans, with its texts as they are read. -/
def Directive.content (read : String → String) (directive : Directive) : Directive :=
  ⟨directive.name.content, directive.arguments.map (Argument.content read), .empty 0⟩

mutual

/-- A selection without its spans, with its texts as they are read. -/
def Selection.content (read : String → String) : Selection → Selection
  | .field aliasName name arguments directives none _ =>
      .field (aliasName.map Name.content) name.content (arguments.map (Argument.content read))
        (directives.map (Directive.content read)) none (.empty 0)
  | .field aliasName name arguments directives (some set) _ =>
      .field (aliasName.map Name.content) name.content (arguments.map (Argument.content read))
        (directives.map (Directive.content read)) (some (set.content read)) (.empty 0)
  | .spread name directives _ =>
      .spread name.content (directives.map (Directive.content read)) (.empty 0)
  | .inline condition directives set _ =>
      .inline (condition.map Name.content) (directives.map (Directive.content read))
        (set.content read) (.empty 0)

/-- A selection set without its spans, with its texts as they are read. -/
def SelectionSet.content (read : String → String) : SelectionSet → SelectionSet
  | .mk selections _ => .mk (Selection.contentEach read selections) (.empty 0)

/-- Selections without their spans, with their texts as they are read. -/
def Selection.contentEach (read : String → String) : List Selection → List Selection
  | [] => []
  | selection :: rest => selection.content read :: Selection.contentEach read rest

end

/-- A variable of an operation without its spans, with its texts as they are read. -/
def VariableDefinition.content (read : String → String) (definition : VariableDefinition) :
    VariableDefinition :=
  ⟨definition.name.content, definition.type.content, definition.default.map (Value.content read),
    definition.directives.map (Directive.content read), .empty 0⟩

/-- An operation without its spans, with its texts as they are read. -/
def OperationDefinition.content (read : String → String) (definition : OperationDefinition) :
    OperationDefinition :=
  ⟨definition.operation, definition.name.map Name.content,
    definition.variableDefinitions.map (VariableDefinition.content read),
    definition.directives.map (Directive.content read), definition.set.content read, .empty 0⟩

/-- A fragment without its spans, with its texts as they are read. -/
def FragmentDefinition.content (read : String → String) (definition : FragmentDefinition) :
    FragmentDefinition :=
  ⟨definition.name.content, definition.condition.content,
    definition.directives.map (Directive.content read), definition.set.content read, .empty 0⟩

/-- An executable definition without its spans; type-system definitions are left as they are. -/
def Definition.content (read : String → String) : Definition → Definition
  | .operation definition => .operation (definition.content read)
  | .fragment definition => .fragment (definition.content read)
  | definition => definition

theorem Selection.content_field (read : String → String) (aliasName : Option Name) (name : Name)
    (arguments : List Argument) (directives : List Directive) (set : Option SelectionSet)
    (span : Span) :
    (Selection.field aliasName name arguments directives set span).content read =
      .field (aliasName.map Name.content) name.content (arguments.map (Argument.content read))
        (directives.map (Directive.content read)) (set.map (SelectionSet.content read))
        (.empty 0) := by
  cases set <;> rfl

section Lists

variable (read : String → String)

@[simp]
theorem Value.contentEach_eq_map (values : List Value) :
    Value.contentEach read values = values.map (Value.content read) := by
  induction values with
  | nil => rfl
  | cons value rest ih => rw [Value.contentEach, ih, List.map_cons]

@[simp]
theorem ObjectField.contentEach_eq_map (fields : List ObjectField) :
    ObjectField.contentEach read fields = fields.map (ObjectField.content read) := by
  induction fields with
  | nil => rfl
  | cons field rest ih => rw [ObjectField.contentEach, ih, List.map_cons]

@[simp]
theorem Selection.contentEach_eq_map (selections : List Selection) :
    Selection.contentEach read selections = selections.map (Selection.content read) := by
  induction selections with
  | nil => rfl
  | cons selection rest ih => rw [Selection.contentEach, ih, List.map_cons]

end Lists

section Twice

variable (outer inner : String → String)

@[simp]
theorem Name.content_content (name : Name) : name.content.content = name.content := rfl

@[simp]
theorem TypeExpr.content_content (type : TypeExpr) : type.content.content = type.content := by
  induction type with
  | named name => rfl
  | list item span ih => simp only [TypeExpr.content, ih]
  | nonNull inner span ih => simp only [TypeExpr.content, ih]

/-- Texts that are read twice are read by both functions. -/
theorem Value.content_content (value : Value) :
    (value.content inner).content outer = value.content (outer ∘ inner) := by
  induction value with
  | var | int | float | string | boolean | null | enum => rfl
  | list items span ih =>
      simp only [Value.content, Value.contentEach_eq_map, List.map_map]
      congr 1
      exact List.map_congr_left ih
  | object fields span ih =>
      simp only [Value.content, ObjectField.contentEach_eq_map, List.map_map]
      congr 1
      apply List.map_congr_left
      rintro ⟨name, value, fieldSpan⟩ field_mem
      have each : (value.content inner).content outer = value.content (outer ∘ inner) :=
        ih _ field_mem
      simp only [Function.comp, ObjectField.content, each, Name.content_content]

theorem Argument.content_comp :
    Argument.content outer ∘ Argument.content inner = Argument.content (outer ∘ inner) := by
  funext argument
  simp only [Function.comp_apply, Argument.content, Value.content_content, Name.content_content]

theorem Directive.content_comp :
    Directive.content outer ∘ Directive.content inner = Directive.content (outer ∘ inner) := by
  funext directive
  simp only [Function.comp_apply, Directive.content, List.map_map, Argument.content_comp,
    Name.content_content]

theorem Name.content_comp : Name.content ∘ Name.content = Name.content := rfl

theorem Selection.content_content (selection : Selection) :
    (selection.content inner).content outer = selection.content (outer ∘ inner) := by
  induction selection with
  | leaf aliasName name arguments directives span =>
      simp only [Selection.content, Option.map_map, Name.content_comp, Name.content_content,
        List.map_map, Argument.content_comp, Directive.content_comp]
  | field aliasName name arguments directives selections setSpan span ih =>
      simp only [Selection.content, SelectionSet.content, Selection.contentEach_eq_map,
        Option.map_map, Name.content_comp, Name.content_content, List.map_map,
        Argument.content_comp, Directive.content_comp]
      congr 3
      exact List.map_congr_left ih
  | spread name directives span =>
      simp only [Selection.content, Name.content_content, List.map_map, Directive.content_comp]
  | inline condition directives selections setSpan span ih =>
      simp only [Selection.content, SelectionSet.content, Selection.contentEach_eq_map,
        Option.map_map, Name.content_comp, List.map_map, Directive.content_comp]
      congr 2
      exact List.map_congr_left ih

theorem SelectionSet.content_content (set : SelectionSet) :
    (set.content inner).content outer = set.content (outer ∘ inner) := by
  rcases set with ⟨selections, span⟩
  simp only [SelectionSet.content, Selection.contentEach_eq_map, List.map_map]
  congr 1
  exact List.map_congr_left fun selection _ => selection.content_content outer inner

theorem VariableDefinition.content_comp :
    VariableDefinition.content outer ∘ VariableDefinition.content inner =
      VariableDefinition.content (outer ∘ inner) := by
  funext definition
  have default : Value.content outer ∘ Value.content inner = Value.content (outer ∘ inner) :=
    funext (Value.content_content outer inner)
  simp only [Function.comp_apply, VariableDefinition.content, Name.content_content,
    TypeExpr.content_content, Option.map_map, default, List.map_map, Directive.content_comp]

theorem OperationDefinition.content_content (definition : OperationDefinition) :
    (definition.content inner).content outer = definition.content (outer ∘ inner) := by
  simp only [OperationDefinition.content, Option.map_map, Name.content_comp, List.map_map,
    VariableDefinition.content_comp, Directive.content_comp, SelectionSet.content_content]

theorem FragmentDefinition.content_content (definition : FragmentDefinition) :
    (definition.content inner).content outer = definition.content (outer ∘ inner) := by
  simp only [FragmentDefinition.content, Name.content_content, List.map_map,
    Directive.content_comp, SelectionSet.content_content]

theorem Definition.content_content (definition : Definition) :
    (definition.content inner).content outer = definition.content (outer ∘ inner) := by
  cases definition with
  | operation definition =>
      exact congrArg Definition.operation (definition.content_content outer inner)
  | fragment definition =>
      exact congrArg Definition.fragment (definition.content_content outer inner)
  | _ => rfl

/-- Contents that are the same under one reading of texts are so under every other one that goes
on from it. -/
theorem Definition.map_content_congr {definitions others : List Definition}
    (same : definitions.map (content inner) = others.map (content inner)) :
    definitions.map (content (outer ∘ inner)) = others.map (content (outer ∘ inner)) := by
  have again : ∀ list : List Definition,
      (list.map (content inner)).map (content outer) = list.map (content (outer ∘ inner)) := by
    intro list
    rw [List.map_map]
    exact List.map_congr_left fun definition _ => definition.content_content outer inner
  rw [← again, ← again, same]

end Twice

end WiredGraph
