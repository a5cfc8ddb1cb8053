import WiredGraph.Proofs.Document.Content
import WiredGraph.Proofs.Document.Lexemes

/-!
# The lexemes of content

Reading the texts in a document in another way changes its lexemes one by one: the quoted texts as
they are read, and no others.
-/

namespace WiredGraph

/-- A change of lexemes that reads quoted texts in some way and leaves all others as they are. -/
structure Lexeme.ReadsTexts (read : String → String) (change : Lexeme → Lexeme) : Prop where
  mark : ∀ mark, change (.mark mark) = .mark mark
  word : ∀ text, change (.word text) = .word text
  int : ∀ digits, change ⟨.int, digits⟩ = ⟨.int, digits⟩
  float : ∀ digits, change ⟨.float, digits⟩ = ⟨.float, digits⟩
  quoted : ∀ text, change (.quoted text) = .quoted (read text)

namespace Lexeme.ReadsTexts

variable {read : String → String} {change : Lexeme → Lexeme} (reads : ReadsTexts read change)

include reads

section Items

theorem enclosed (openMark close : Punctuator) (inside : List Lexeme) :
    (Lexeme.enclosed openMark close inside).map change =
      Lexeme.enclosed openMark close (inside.map change) := by
  simp [Lexeme.enclosed, reads.mark]

variable {Item : Type} {lexemes : Item → List Lexeme} {content : Item → Item} {items : List Item}

omit reads in
theorem flatten (each : ∀ item ∈ items, (lexemes item).map change = lexemes (content item)) :
    (items.map lexemes).flatten.map change = ((items.map content).map lexemes).flatten := by
  rw [List.map_flatten, List.map_map, List.map_map]
  exact congrArg List.flatten (List.map_congr_left each)

theorem parenthesized (each : ∀ item ∈ items, (lexemes item).map change = lexemes (content item)) :
    (Lexeme.parenthesized (items.map lexemes)).map change =
      Lexeme.parenthesized ((items.map content).map lexemes) := by
  cases items with
  | nil => rfl
  | cons item rest =>
      have inside := flatten each
      simp only [List.map_cons, Lexeme.parenthesized_cons] at inside ⊢
      rw [reads.enclosed, inside]

end Items

section Values

theorem name (name : Name) : change name.lexeme = name.content.lexeme := reads.word name.text

theorem type (type : TypeExpr) : type.lexemes.map change = type.content.lexemes := by
  induction type with
  | named name => simp [TypeExpr.lexemes, TypeExpr.content, reads.name]
  | list item span ih => simp [TypeExpr.lexemes, TypeExpr.content, reads.enclosed, ih]
  | nonNull inner span ih => simp [TypeExpr.lexemes, TypeExpr.content, reads.mark, ih]

theorem value (value : Value) : value.lexemes.map change = (value.content read).lexemes := by
  induction value with
  | var name => simp [Value.lexemes, Value.content, reads.mark, reads.name]
  | int digits span => simp [Value.lexemes, Value.content, reads.int]
  | float digits span => simp [Value.lexemes, Value.content, reads.float]
  | string text block span => simp [Value.lexemes, Value.content, reads.quoted]
  | boolean value span => simp [Value.lexemes, Value.content, reads.word]
  | null span => simp [Value.lexemes, Value.content, reads.word]
  | enum name => simp [Value.lexemes, Value.content, reads.name]
  | list items span ih =>
      simp only [Value.lexemes, Value.content, Value.lexemesEach_eq_map, Value.contentEach_eq_map,
        reads.enclosed, flatten ih]
  | object fields span ih =>
      have each : ∀ field ∈ fields,
          field.lexemes.map change = (field.content read).lexemes := by
        rintro ⟨name, value, span⟩ field_mem
        have inside := ih _ field_mem
        simp only [ObjectField.value] at inside
        simp [ObjectField.lexemes, ObjectField.content, reads.name, reads.mark, inside]
      simp only [Value.lexemes, Value.content, ObjectField.lexemesEach_eq_map,
        ObjectField.contentEach_eq_map, reads.enclosed, flatten each]

theorem arguments (arguments : List Argument) :
    (Argument.lexemesAll arguments).map change =
      Argument.lexemesAll (arguments.map (Argument.content read)) := by
  apply reads.parenthesized
  intro argument _
  simp [Argument.lexemes, Argument.content, reads.name, reads.mark, reads.value]

theorem directives (directives : List Directive) :
    (Directive.lexemesAll directives).map change =
      Directive.lexemesAll (directives.map (Directive.content read)) := by
  have each : ∀ directive ∈ directives,
      directive.lexemes.map change = (directive.content read).lexemes := by
    intro directive _
    simp [Directive.lexemes, Directive.content, reads.name, reads.mark, reads.arguments]
  have all := flatten each
  rwa [← List.flatMap_def, ← List.flatMap_def] at all

end Values

section Selections

theorem aliasName (aliasName : Option Name) :
    (Name.lexemesAlias aliasName).map change =
      Name.lexemesAlias (aliasName.map Name.content) := by
  cases aliasName with
  | none => rfl
  | some name => simp [Name.lexemesAlias, reads.name, reads.mark]

theorem condition (condition : Option Name) :
    (Name.lexemesCondition condition).map change =
      Name.lexemesCondition (condition.map Name.content) := by
  cases condition with
  | none => rfl
  | some name => simp [Name.lexemesCondition, reads.name, reads.word]

theorem selection (selection : Selection) :
    selection.lexemes.map change = (selection.content read).lexemes := by
  induction selection with
  | leaf aliasName name arguments directives span =>
      simp [Selection.lexemes, Selection.content, reads.aliasName, reads.name, reads.arguments,
        reads.directives]
  | field aliasName name arguments directives selections setSpan span ih =>
      simp only [Selection.lexemes, Selection.content, SelectionSet.lexemes, SelectionSet.content,
        Selection.lexemesEach_eq_map, Selection.contentEach_eq_map, List.map_append, List.map_cons,
        reads.aliasName, reads.name, reads.arguments, reads.directives, reads.enclosed, flatten ih]
  | spread name directives span =>
      simp [Selection.lexemes, Selection.content, reads.mark, reads.name, reads.directives]
  | inline condition directives selections setSpan span ih =>
      simp only [Selection.lexemes, Selection.content, SelectionSet.lexemes, SelectionSet.content,
        Selection.lexemesEach_eq_map, Selection.contentEach_eq_map, List.map_append, List.map_cons,
        reads.condition, reads.mark, reads.directives, reads.enclosed, flatten ih]

theorem set (set : SelectionSet) : set.lexemes.map change = (set.content read).lexemes := by
  rcases set with ⟨selections, span⟩
  simp only [SelectionSet.lexemes, SelectionSet.content, Selection.lexemesEach_eq_map,
    Selection.contentEach_eq_map, reads.enclosed]
  rw [flatten fun selection _ => reads.selection selection]

end Selections

section Definitions

theorem default (default : Option Value) :
    (Value.lexemesDefault default).map change =
      Value.lexemesDefault (default.map (Value.content read)) := by
  cases default with
  | none => rfl
  | some value => simp [Value.lexemesDefault, reads.mark, reads.value]

theorem variableDefinition (definition : VariableDefinition) :
    definition.lexemes.map change = (definition.content read).lexemes := by
  simp [VariableDefinition.lexemes, VariableDefinition.content, reads.mark, reads.name, reads.type,
    reads.default, reads.directives]

theorem operation (definition : OperationDefinition) :
    definition.lexemes.map change = (definition.content read).lexemes := by
  have names : (definition.name.toList.map Name.lexeme).map change =
      (definition.name.map Name.content).toList.map Name.lexeme := by
    cases definition.name with
    | none => rfl
    | some name => simp [reads.name]
  have declared := reads.parenthesized
    fun declared (_ : declared ∈ definition.variableDefinitions) =>
      reads.variableDefinition declared
  have head : definition.lexemesHead.map change = (definition.content read).lexemesHead := by
    simp only [OperationDefinition.lexemesHead, OperationDefinition.content, List.map_cons,
      List.map_append, reads.word, names, declared, reads.directives]
  have shorthand : (definition.content read).isShorthand = definition.isShorthand := by
    simp [OperationDefinition.isShorthand, OperationDefinition.content]
  rw [OperationDefinition.lexemes, OperationDefinition.lexemes, List.map_append, reads.set,
    shorthand]
  split
  · rfl
  · rw [head]
    rfl

theorem fragment (definition : FragmentDefinition) :
    definition.lexemes.map change = (definition.content read).lexemes := by
  simp [FragmentDefinition.lexemes, FragmentDefinition.content, reads.word, reads.name,
    reads.directives, reads.set]

/-- The lexemes of a definition whose texts are read in another way are the changed ones. -/
theorem definition (definition : Definition) :
    definition.lexemes.map change = (definition.content read).lexemes := by
  cases definition with
  | operation definition => exact reads.operation definition
  | fragment definition => exact reads.fragment definition
  | _ => rfl

end Definitions

end Lexeme.ReadsTexts

end WiredGraph
