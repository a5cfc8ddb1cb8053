import WiredGraph.Proofs.Document.Lexemes
import WiredGraph.Proofs.Document.WellFormed

/-!
# The grammar of executable documents

Which lexemes a part of a document may be made of. Every relation here is one production, with the
part that is derived on the left and the lexemes that it is derived from on the right. The grammar
knows nothing of places, so the spans of what is derived are empty.

In the words of the grammar, with a name for any word:

* Document: (String? Definition)*
* Definition: SelectionSet, or (`query` | `mutation` | `subscription`) Name? (`(` Variable* `)`)?
  Directive* SelectionSet, or `fragment` Name but not `on`, `on` Name Directive* SelectionSet
* Variable: `$` Name `:` Type (`=` Value)? Directive*
* SelectionSet: `{` Selection* `}`
* Selection: (Name `:`)? Name Arguments? Directive* SelectionSet?, or `...` Name but not `on`,
  Directive*, or `...` (`on` Name)? Directive* SelectionSet
* Arguments: `(` (Name `:` Value)* `)`
* Directive: `@` Name Arguments?
* Type: (Name | `[` Type `]`) `!`?
* Value: `$` Name, Int, Float, String, `true`, `false`, `null`, another Name, `[` Value* `]`, or
  `{` (Name `:` Value)* `}`
-/

namespace WiredGraph

open Lexeme (enclosed)

namespace Grammar

variable {Part : Type}

/-- Any number of items, one after the other. -/
inductive Many (item : Part → List Lexeme → Prop) : List Part → List Lexeme → Prop
  | nil : Many item [] []
  | cons {part : Part} {parts : List Part} {first rest : List Lexeme} :
      item part first → Many item parts rest → Many item (part :: parts) (first ++ rest)

/-- An item that may be left out. -/
inductive Optional (item : Part → List Lexeme → Prop) : Option Part → List Lexeme → Prop
  | absent : Optional item none []
  | present {part : Part} {lexemes : List Lexeme} :
      item part lexemes → Optional item (some part) lexemes

/-- Items between parentheses; leaving them out with their parentheses is the same as having no
items. -/
inductive Parenthesized (item : Part → List Lexeme → Prop) : List Part → List Lexeme → Prop
  | absent : Parenthesized item [] []
  | present {parts : List Part} {inside : List Lexeme} :
      Many item parts inside →
        Parenthesized item parts (enclosed .parenOpen .parenClose inside)

/-- An item with a lexeme in front of it. -/
inductive After (opening : Lexeme) (item : Part → List Lexeme → Prop) :
    Part → List Lexeme → Prop
  | mk {part : Part} {lexemes : List Lexeme} :
      item part lexemes → After opening item part (opening :: lexemes)

end Grammar

open Grammar

/-- The name that a word is, wherever it stands. -/
def Name.ofWord (text : String) : Name := ⟨text, .empty 0⟩

/-- Name: any word, a keyword or not. -/
inductive Name.DerivedFrom : Name → List Lexeme → Prop
  | word (text : String) : DerivedFrom (.ofWord text) [.word text]

/-- An alias with the colon after it. -/
inductive Name.AliasDerivedFrom : Name → List Lexeme → Prop
  | word (text : String) : AliasDerivedFrom (.ofWord text) [.word text, .mark .colon]

mutual

/-- Name | `[` Type `]`. -/
inductive TypeExpr.BaseDerivedFrom : TypeExpr → List Lexeme → Prop
  | named (text : String) : BaseDerivedFrom (.named (.ofWord text)) [.word text]
  | list {item : TypeExpr} {inside : List Lexeme} :
      TypeExpr.DerivedFrom item inside →
        BaseDerivedFrom (.list item (.empty 0)) (enclosed .bracketOpen .bracketClose inside)

/-- Type: a base and at most one exclamation mark. -/
inductive TypeExpr.DerivedFrom : TypeExpr → List Lexeme → Prop
  | base {type : TypeExpr} {lexemes : List Lexeme} :
      TypeExpr.BaseDerivedFrom type lexemes → TypeExpr.DerivedFrom type lexemes
  | nonNull {inner : TypeExpr} {lexemes : List Lexeme} :
      TypeExpr.BaseDerivedFrom inner lexemes →
        TypeExpr.DerivedFrom (.nonNull inner (.empty 0)) (lexemes ++ [.mark .bang])

end

mutual

/-- Value: a string token stands for the text that it is decoded to. -/
inductive Value.DerivedFrom : Value → List Lexeme → Prop
  | var (text : String) : Value.DerivedFrom (.var (.ofWord text)) [.mark .dollar, .word text]
  | int (digits : String) : Value.DerivedFrom (.int digits (.empty 0)) [⟨.int, digits⟩]
  | float (digits : String) : Value.DerivedFrom (.float digits (.empty 0)) [⟨.float, digits⟩]
  | string {written : String} {decoded : List Char} :
      Quoted.decodeToken? written.toList = some decoded →
        Value.DerivedFrom (.string (String.ofList decoded) false (.empty 0))
          [⟨.string, written⟩]
  | boolean (value : Bool) :
      Value.DerivedFrom (.boolean value (.empty 0)) [.word (if value then "true" else "false")]
  | null : Value.DerivedFrom (.null (.empty 0)) [.word "null"]
  | enum {text : String} :
      text ∉ Value.words → Value.DerivedFrom (.enum (.ofWord text)) [.word text]
  | list {items : List Value} {inside : List Lexeme} :
      Many Value.DerivedFrom items inside →
        Value.DerivedFrom (.list items (.empty 0)) (enclosed .bracketOpen .bracketClose inside)
  | object {fields : List ObjectField} {inside : List Lexeme} :
      Many ObjectField.DerivedFrom fields inside →
        Value.DerivedFrom (.object fields (.empty 0)) (enclosed .braceOpen .braceClose inside)

/-- Name `:` Value inside an object. -/
inductive ObjectField.DerivedFrom : ObjectField → List Lexeme → Prop
  | mk (text : String) {value : Value} {lexemes : List Lexeme} :
      Value.DerivedFrom value lexemes →
        ObjectField.DerivedFrom (.mk (.ofWord text) value (.empty 0))
          (.word text :: .mark .colon :: lexemes)

end

/-- Name `:` Value. -/
inductive Argument.DerivedFrom : Argument → List Lexeme → Prop
  | mk (text : String) {value : Value} {lexemes : List Lexeme} :
      value.DerivedFrom lexemes →
        DerivedFrom ⟨.ofWord text, value, .empty 0⟩ (.word text :: .mark .colon :: lexemes)

/-- Directive: `@` Name Arguments?. -/
inductive Directive.DerivedFrom : Directive → List Lexeme → Prop
  | mk (text : String) {arguments : List Argument} {lexemes : List Lexeme} :
      Parenthesized Argument.DerivedFrom arguments lexemes →
        DerivedFrom ⟨.ofWord text, arguments, .empty 0⟩ (.mark .at :: .word text :: lexemes)

mutual

/-- Selection: a field, a fragment by its name, or selections in place. -/
inductive Selection.DerivedFrom : Selection → List Lexeme → Prop
  | field {aliasName : Option Name} {aliasLexemes : List Lexeme} (text : String)
      {arguments : List Argument} {argumentLexemes : List Lexeme} {directives : List Directive}
      {directiveLexemes : List Lexeme} {set : Option SelectionSet} {setLexemes : List Lexeme} :
      Optional Name.AliasDerivedFrom aliasName aliasLexemes →
        Parenthesized Argument.DerivedFrom arguments argumentLexemes →
          Many Directive.DerivedFrom directives directiveLexemes →
            Optional SelectionSet.DerivedFrom set setLexemes →
              Selection.DerivedFrom
                (.field aliasName (.ofWord text) arguments directives set (.empty 0))
                (aliasLexemes ++
                  .word text :: (argumentLexemes ++ (directiveLexemes ++ setLexemes)))
  | spread {text : String} {directives : List Directive} {lexemes : List Lexeme} :
      text ≠ "on" → Many Directive.DerivedFrom directives lexemes →
        Selection.DerivedFrom (.spread (.ofWord text) directives (.empty 0))
          (.mark .spread :: .word text :: lexemes)
  | inline {condition : Option Name} {conditionLexemes : List Lexeme}
      {directives : List Directive} {directiveLexemes : List Lexeme} {set : SelectionSet}
      {setLexemes : List Lexeme} :
      Optional (After (.word "on") Name.DerivedFrom) condition conditionLexemes →
        Many Directive.DerivedFrom directives directiveLexemes →
          SelectionSet.DerivedFrom set setLexemes →
            Selection.DerivedFrom (.inline condition directives set (.empty 0))
              (.mark .spread :: (conditionLexemes ++ (directiveLexemes ++ setLexemes)))

/-- SelectionSet: `{` Selection* `}`. -/
inductive SelectionSet.DerivedFrom : SelectionSet → List Lexeme → Prop
  | mk {selections : List Selection} {inside : List Lexeme} :
      Many Selection.DerivedFrom selections inside →
        SelectionSet.DerivedFrom (.mk selections (.empty 0))
          (enclosed .braceOpen .braceClose inside)

end

/-- Variable: `$` Name `:` Type (`=` Value)? Directive*. -/
inductive VariableDefinition.DerivedFrom : VariableDefinition → List Lexeme → Prop
  | mk (text : String) {type : TypeExpr} {typeLexemes : List Lexeme} {default : Option Value}
      {defaultLexemes : List Lexeme} {directives : List Directive}
      {directiveLexemes : List Lexeme} :
      type.DerivedFrom typeLexemes →
        Optional (After (.mark .equals) Value.DerivedFrom) default defaultLexemes →
          Many Directive.DerivedFrom directives directiveLexemes →
            DerivedFrom ⟨.ofWord text, type, default, directives, .empty 0⟩
              (.mark .dollar :: .word text :: .mark .colon ::
                (typeLexemes ++ (defaultLexemes ++ directiveLexemes)))

/-- A plain query is a selection set alone; every other operation starts with its keyword. -/
inductive OperationDefinition.DerivedFrom : OperationDefinition → List Lexeme → Prop
  | shorthand {set : SelectionSet} {lexemes : List Lexeme} :
      set.DerivedFrom lexemes → DerivedFrom ⟨.query, none, [], [], set, .empty 0⟩ lexemes
  | named (operation : OperationType) {name : Option Name} {nameLexemes : List Lexeme}
      {declared : List VariableDefinition} {variableLexemes : List Lexeme}
      {directives : List Directive} {directiveLexemes : List Lexeme} {set : SelectionSet}
      {setLexemes : List Lexeme} :
      Optional Name.DerivedFrom name nameLexemes →
        Parenthesized VariableDefinition.DerivedFrom declared variableLexemes →
          Many Directive.DerivedFrom directives directiveLexemes →
            set.DerivedFrom setLexemes →
              DerivedFrom ⟨operation, name, declared, directives, set, .empty 0⟩
                (.word operation.text ::
                  (nameLexemes ++ (variableLexemes ++ (directiveLexemes ++ setLexemes))))

/-- A fragment definition: a name other than `on`, the type it is for, directives and a selection
set. -/
inductive FragmentDefinition.DerivedFrom : FragmentDefinition → List Lexeme → Prop
  | mk {text : String} (condition : String) {directives : List Directive}
      {directiveLexemes : List Lexeme} {set : SelectionSet} {setLexemes : List Lexeme} :
      text ≠ "on" → Many Directive.DerivedFrom directives directiveLexemes →
        set.DerivedFrom setLexemes →
          DerivedFrom ⟨.ofWord text, .ofWord condition, directives, set, .empty 0⟩
            (.word "fragment" :: .word text :: .word "on" :: .word condition ::
              (directiveLexemes ++ setLexemes))

/-- Definition: an operation or a fragment. -/
inductive Definition.DerivedFrom : Definition → List Lexeme → Prop
  | operation {definition : OperationDefinition} {lexemes : List Lexeme} :
      definition.DerivedFrom lexemes → DerivedFrom (.operation definition) lexemes
  | fragment {definition : FragmentDefinition} {lexemes : List Lexeme} :
      definition.DerivedFrom lexemes → DerivedFrom (.fragment definition) lexemes

/-- String? Definition: a text in front of an operation or a fragment is passed over, but it has to
be one that can be decoded. -/
inductive Definition.DescribedFrom : Definition → List Lexeme → Prop
  | plain {definition : Definition} {lexemes : List Lexeme} :
      definition.DerivedFrom lexemes → DescribedFrom definition lexemes
  | described {written : String} {decoded : List Char} {definition : Definition}
      {lexemes : List Lexeme} :
      Quoted.decodeToken? written.toList = some decoded → definition.DerivedFrom lexemes →
        DescribedFrom definition (⟨.string, written⟩ :: lexemes)

/-- Document: definitions one after the other. -/
def Document.DerivedFrom (definitions : List Definition) (lexemes : List Lexeme) : Prop :=
  Many Definition.DescribedFrom definitions lexemes

namespace Grammar

variable {Part Whole : Type} {item : Part → List Lexeme → Prop} {content : Whole → Part}
  {lexemes : Whole → List Lexeme}

/-- There are at least as many lexemes as there are items that have some. -/
theorem Many.length_le {parts : List Part} {inside : List Lexeme} (many : Many item parts inside)
    (nonempty : ∀ part lexemes, item part lexemes → lexemes ≠ []) :
    parts.length ≤ inside.length := by
  induction many with
  | nil => exact Nat.le_refl 0
  | @cons part parts first rest derived _ ih =>
      have positive := List.length_pos_iff.mpr (nonempty part first derived)
      rw [List.length_cons, List.length_append]
      omega

theorem many_map {wholes : List Whole}
    (each : ∀ whole ∈ wholes, item (content whole) (lexemes whole)) :
    Many item (wholes.map content) (wholes.map lexemes).flatten := by
  induction wholes with
  | nil => exact .nil
  | cons whole others ih =>
      rcases List.forall_mem_cons.mp each with ⟨here, later⟩
      exact .cons here (ih later)

theorem parenthesized_map {wholes : List Whole}
    (each : ∀ whole ∈ wholes, item (content whole) (lexemes whole)) :
    Parenthesized item (wholes.map content) (Lexeme.parenthesized (wholes.map lexemes)) := by
  cases wholes with
  | nil => exact .absent
  | cons whole others => exact .present (many_map each)

end Grammar

section WellFormed

/-! What is well-formed derives, without its spans, from the lexemes that it is written with. -/

theorem TypeExpr.WellFormed.derivedFrom {type : TypeExpr} (wellFormed : type.WellFormed) :
    (type.isNonNull = false → type.content.BaseDerivedFrom type.lexemes) ∧
      type.content.DerivedFrom type.lexemes := by
  induction wellFormed with
  | @named name _ => exact ⟨fun _ => .named name.text, .base (.named name.text)⟩
  | list _ ih => exact ⟨fun _ => .list ih.2, .base (.list ih.2)⟩
  | nonNull _ once ih => exact ⟨nofun, .nonNull (ih.1 once)⟩

theorem Value.WellFormed.derivedFrom {value : Value} (wellFormed : value.WellFormed False) :
    (value.content id).DerivedFrom value.lexemes := by
  induction wellFormed with
  | @var name _ => exact .var name.text
  | @int digits _ _ => exact .int digits
  | @float digits _ _ => exact .float digits
  | @string text block _ noBlock =>
      have decoded : Quoted.decodeToken? (Lexeme.quoted text).text.toList = some text.toList := by
        rw [Lexeme.quoted, String.toList_ofList, Quoted.decodeToken?_encode]
      have derived := Value.DerivedFrom.string decoded
      rw [String.ofList_toList] at derived
      rw [Bool.eq_false_iff.mpr noBlock]
      exact derived
  | boolean value => exact .boolean value
  | null => exact .null
  | enum _ noWord => exact .enum noWord
  | list _ ih =>
      rw [Value.content, Value.contentEach_eq_map, Value.lexemes, Value.lexemesEach_eq_map]
      exact .list (many_map ih)
  | object _ _ ih =>
      rw [Value.content, ObjectField.contentEach_eq_map, Value.lexemes,
        ObjectField.lexemesEach_eq_map]
      refine .object (many_map ?_)
      rintro ⟨name, value, span⟩ field_mem
      exact .mk name.text (ih _ field_mem)

theorem Argument.WellFormed.derivedFrom {argument : Argument}
    (wellFormed : argument.WellFormed False) :
    (argument.content id).DerivedFrom argument.lexemes :=
  .mk argument.name.text wellFormed.value.derivedFrom

theorem Directive.WellFormed.derivedFrom {directive : Directive}
    (wellFormed : directive.WellFormed False) :
    (directive.content id).DerivedFrom directive.lexemes :=
  .mk directive.name.text
    (parenthesized_map fun argument argument_mem =>
      (wellFormed.arguments argument argument_mem).derivedFrom)

theorem Directive.derivedFrom_lexemesAll {directives : List Directive}
    (wellFormed : ∀ directive ∈ directives, directive.WellFormed False) :
    Many Directive.DerivedFrom (directives.map (Directive.content id))
      (Directive.lexemesAll directives) := by
  rw [Directive.lexemesAll, List.flatMap_def]
  exact many_map fun directive directive_mem => (wellFormed directive directive_mem).derivedFrom

theorem Name.derivedFrom_lexemesAlias (aliasName : Option Name) :
    Optional Name.AliasDerivedFrom (aliasName.map Name.content) (Name.lexemesAlias aliasName) := by
  cases aliasName with
  | none => exact .absent
  | some aliasName => exact .present (.word aliasName.text)

theorem Name.derivedFrom_lexemesCondition (condition : Option Name) :
    Optional (After (.word "on") Name.DerivedFrom) (condition.map Name.content)
      (Name.lexemesCondition condition) := by
  cases condition with
  | none => exact .absent
  | some condition => exact .present (.mk (.word condition.text))

/-- A field derives from its lexemes if its selection set does. -/
theorem Selection.FieldWellFormed.derivedFrom {aliasName : Option Name} {name : Name}
    {arguments : List Argument} {directives : List Directive} {set : Option SelectionSet}
    (wellFormed : Selection.FieldWellFormed False aliasName name arguments directives)
    (setDerived : Optional SelectionSet.DerivedFrom (set.map (SelectionSet.content id))
      (SelectionSet.lexemesOption set)) (span : Span) :
    ((Selection.field aliasName name arguments directives set span).content id).DerivedFrom
      (Selection.field aliasName name arguments directives set span).lexemes := by
  rw [Selection.content_field, Selection.lexemes_field]
  exact .field name.text (Name.derivedFrom_lexemesAlias aliasName)
    (parenthesized_map fun argument argument_mem =>
      (wellFormed.arguments argument argument_mem).derivedFrom)
    (Directive.derivedFrom_lexemesAll wellFormed.directives) setDerived

/-- A selection set derives from its lexemes if its selections do. -/
theorem SelectionSet.derivedFrom_of_forall {selections : List Selection}
    (each : ∀ selection ∈ selections, (selection.content id).DerivedFrom selection.lexemes)
    (span : Span) :
    ((SelectionSet.mk selections span).content id).DerivedFrom
      (SelectionSet.mk selections span).lexemes := by
  rw [SelectionSet.content, Selection.contentEach_eq_map, SelectionSet.lexemes_eq]
  exact .mk (many_map each)

theorem Selection.WellFormed.derivedFrom {selection : Selection}
    (wellFormed : selection.WellFormed False) :
    (selection.content id).DerivedFrom selection.lexemes := by
  induction wellFormed with
  | leaf head => exact head.derivedFrom .absent _
  | field head _ ih =>
      refine head.derivedFrom ?_ _
      exact .present (SelectionSet.derivedFrom_of_forall ih _)
  | spread named directives =>
      exact .spread named.no_condition (Directive.derivedFrom_lexemesAll directives)
  | @inline condition _ _ _ _ _ directives _ ih =>
      exact .inline (Name.derivedFrom_lexemesCondition condition)
        (Directive.derivedFrom_lexemesAll directives) (SelectionSet.derivedFrom_of_forall ih _)

theorem SelectionSet.WellFormed.derivedFrom {set : SelectionSet}
    (wellFormed : set.WellFormed False) : (set.content id).DerivedFrom set.lexemes := by
  rcases set with ⟨selections, span⟩
  exact SelectionSet.derivedFrom_of_forall
    (fun selection selection_mem => (wellFormed selection selection_mem).derivedFrom) span

theorem VariableDefinition.WellFormed.derivedFrom {definition : VariableDefinition}
    (wellFormed : definition.WellFormed False) :
    (definition.content id).DerivedFrom definition.lexemes := by
  rcases definition with ⟨name, type, default, directives, span⟩
  refine .mk name.text wellFormed.type.derivedFrom.2 ?_
    (Directive.derivedFrom_lexemesAll wellFormed.directives)
  cases default with
  | none => exact .absent
  | some value => exact .present (.mk (wellFormed.default value rfl).derivedFrom)

theorem OperationDefinition.WellFormed.derivedFrom {definition : OperationDefinition}
    (wellFormed : definition.WellFormed False) :
    (definition.content id).DerivedFrom definition.lexemes := by
  rcases definition with ⟨operation, name, declared, directives, set, span⟩
  rw [OperationDefinition.lexemes]
  split
  · next shorthand =>
      simp only [OperationDefinition.isShorthand, Bool.and_eq_true, beq_iff_eq,
        Option.isNone_iff_eq_none, List.isEmpty_iff] at shorthand
      rcases shorthand with ⟨⟨⟨rfl, rfl⟩, rfl⟩, rfl⟩
      exact .shorthand wellFormed.set.derivedFrom
  · rw [OperationDefinition.lexemesHead, List.cons_append, List.append_assoc, List.append_assoc]
    refine .named operation ?_
      (parenthesized_map fun definition definition_mem =>
        (wellFormed.variableDefinitions definition definition_mem).derivedFrom)
      (Directive.derivedFrom_lexemesAll wellFormed.directives) wellFormed.set.derivedFrom
    cases name with
    | none => exact .absent
    | some name => exact .present (.word name.text)

theorem FragmentDefinition.WellFormed.derivedFrom {definition : FragmentDefinition}
    (wellFormed : definition.WellFormed False) :
    (definition.content id).DerivedFrom definition.lexemes :=
  .mk definition.condition.text wellFormed.name.no_condition
    (Directive.derivedFrom_lexemesAll wellFormed.directives) wellFormed.set.derivedFrom

theorem Definition.WellFormed.derivedFrom {definition : Definition}
    (wellFormed : definition.WellFormed False) :
    (definition.content id).DerivedFrom definition.lexemes := by
  cases definition with
  | operation definition =>
      exact .operation (OperationDefinition.WellFormed.derivedFrom wellFormed)
  | fragment definition => exact .fragment (FragmentDefinition.WellFormed.derivedFrom wellFormed)
  | _ => exact wellFormed.elim

/-- Executable definitions without descriptions make a document. -/
theorem Document.derivedFrom_lexemes {definitions : List Definition}
    (wellFormed : ∀ definition ∈ definitions, definition.WellFormed False) :
    Document.DerivedFrom (definitions.map (Definition.content id))
      (definitions.map Definition.lexemes).flatten :=
  many_map fun definition definition_mem =>
    .plain (wellFormed definition definition_mem).derivedFrom

end WellFormed

end WiredGraph
