import WiredGraph.Document.Printer
import WiredGraph.Proofs.Token.Lexeme

/-!
# The lexemes of documents

Every part of a document has lexemes: those of its names, values and marks, in the order in which
they are written. Printing writes them down, and reading takes them in.
-/

namespace WiredGraph

namespace Lexeme

/-- Lexemes between two punctuators. -/
def enclosed (openMark close : Punctuator) (inside : List Lexeme) : List Lexeme :=
  .mark openMark :: inside ++ [.mark close]

theorem enclosed_append (openMark close : Punctuator) (inside rest : List Lexeme) :
    enclosed openMark close inside ++ rest =
      .mark openMark :: (inside ++ .mark close :: rest) := by
  simp [enclosed]

theorem length_enclosed (openMark close : Punctuator) (inside : List Lexeme) :
    (enclosed openMark close inside).length = inside.length + 2 := by
  simp [enclosed]

/-- The lexemes of items between parentheses, or nothing when there is no item. -/
def parenthesized : List (List Lexeme) → List Lexeme
  | [] => []
  | items => enclosed .parenOpen .parenClose items.flatten

theorem parenthesized_cons (item : List Lexeme) (rest : List (List Lexeme)) :
    parenthesized (item :: rest) = enclosed .parenOpen .parenClose (item :: rest).flatten := rfl

end Lexeme

open Lexeme (enclosed parenthesized)

/-- The word that a name is. -/
def Name.lexeme (name : Name) : Lexeme := .word name.text

/-- The lexemes of a type. -/
def TypeExpr.lexemes : TypeExpr → List Lexeme
  | .named name => [name.lexeme]
  | .list item _ => enclosed .bracketOpen .bracketClose item.lexemes
  | .nonNull inner _ => inner.lexemes ++ [.mark .bang]

mutual

/-- The lexemes of a value. -/
def Value.lexemes : Value → List Lexeme
  | .var name => [.mark .dollar, name.lexeme]
  | .int digits _ => [⟨.int, digits⟩]
  | .float digits _ => [⟨.float, digits⟩]
  | .string text _ _ => [.quoted text]
  | .boolean value _ => [.word (if value then "true" else "false")]
  | .null _ => [.word "null"]
  | .enum name => [name.lexeme]
  | .list items _ => enclosed .bracketOpen .bracketClose (Value.lexemesEach items).flatten
  | .object fields _ => enclosed .braceOpen .braceClose (ObjectField.lexemesEach fields).flatten

/-- The lexemes of each of some values. -/
def Value.lexemesEach : List Value → List (List Lexeme)
  | [] => []
  | value :: rest => value.lexemes :: Value.lexemesEach rest

/-- The lexemes of a field of an object value. -/
def ObjectField.lexemes : ObjectField → List Lexeme
  | .mk name value _ => name.lexeme :: .mark .colon :: value.lexemes

/-- The lexemes of each of some fields of an object value. -/
def ObjectField.lexemesEach : List ObjectField → List (List Lexeme)
  | [] => []
  | field :: rest => field.lexemes :: ObjectField.lexemesEach rest

end

/-- The lexemes of an argument. -/
def Argument.lexemes (argument : Argument) : List Lexeme :=
  argument.name.lexeme :: .mark .colon :: argument.value.lexemes

/-- The lexemes of arguments after a name. -/
def Argument.lexemesAll (arguments : List Argument) : List Lexeme :=
  parenthesized (arguments.map Argument.lexemes)

/-- The lexemes of a directive. -/
def Directive.lexemes (directive : Directive) : List Lexeme :=
  .mark .at :: directive.name.lexeme :: Argument.lexemesAll directive.arguments

/-- The lexemes of directives one after another. -/
def Directive.lexemesAll (directives : List Directive) : List Lexeme :=
  directives.flatMap Directive.lexemes

/-- The lexemes of an alias that may be missing. -/
def Name.lexemesAlias : Option Name → List Lexeme
  | some aliasName => [aliasName.lexeme, .mark .colon]
  | none => []

/-- The lexemes of a type condition that may be missing. -/
def Name.lexemesCondition : Option Name → List Lexeme
  | some condition => [.word "on", condition.lexeme]
  | none => []

mutual

/-- The lexemes of a selection. -/
def Selection.lexemes : Selection → List Lexeme
  | .field aliasName name arguments directives set _ =>
      Name.lexemesAlias aliasName ++ name.lexeme ::
        (Argument.lexemesAll arguments ++ (Directive.lexemesAll directives ++
          (match set with
            | some set => set.lexemes
            | none => [])))
  | .spread name directives _ =>
      .mark .spread :: name.lexeme :: Directive.lexemesAll directives
  | .inline condition directives set _ =>
      .mark .spread ::
        (Name.lexemesCondition condition ++ (Directive.lexemesAll directives ++ set.lexemes))

/-- The lexemes of a selection set. -/
def SelectionSet.lexemes : SelectionSet → List Lexeme
  | .mk selections _ => enclosed .braceOpen .braceClose (Selection.lexemesEach selections).flatten

/-- The lexemes of each of some selections. -/
def Selection.lexemesEach : List Selection → List (List Lexeme)
  | [] => []
  | selection :: rest => selection.lexemes :: Selection.lexemesEach rest

end

/-- The lexemes of a default that may be missing. -/
def Value.lexemesDefault : Option Value → List Lexeme
  | some value => .mark .equals :: value.lexemes
  | none => []

/-- The lexemes of a variable of an operation. -/
def VariableDefinition.lexemes (definition : VariableDefinition) : List Lexeme :=
  .mark .dollar :: definition.name.lexeme :: .mark .colon ::
    (definition.type.lexemes ++ (Value.lexemesDefault definition.default ++
      Directive.lexemesAll definition.directives))

/-- The lexemes of what stands before the selection set of an operation. -/
def OperationDefinition.lexemesHead (definition : OperationDefinition) : List Lexeme :=
  .word definition.operation.text ::
    (definition.name.toList.map Name.lexeme ++
      (parenthesized (definition.variableDefinitions.map VariableDefinition.lexemes) ++
        Directive.lexemesAll definition.directives))

/-- The lexemes of an operation; a shorthand query is its selection set. -/
def OperationDefinition.lexemes (definition : OperationDefinition) : List Lexeme :=
  (if definition.isShorthand then [] else definition.lexemesHead) ++ definition.set.lexemes

/-- The lexemes of a fragment definition. -/
def FragmentDefinition.lexemes (definition : FragmentDefinition) : List Lexeme :=
  .word "fragment" :: definition.name.lexeme :: .word "on" :: definition.condition.lexeme ::
    (Directive.lexemesAll definition.directives ++ definition.set.lexemes)

/-- The lexemes of an executable definition. -/
def Definition.lexemes : Definition → List Lexeme
  | .operation definition => definition.lexemes
  | .fragment definition => definition.lexemes
  | _ => []

section Lists

@[simp]
theorem Value.lexemesEach_eq_map (values : List Value) :
    Value.lexemesEach values = values.map Value.lexemes := by
  induction values with
  | nil => rfl
  | cons value rest ih => rw [Value.lexemesEach, ih, List.map_cons]

@[simp]
theorem ObjectField.lexemesEach_eq_map (fields : List ObjectField) :
    ObjectField.lexemesEach fields = fields.map ObjectField.lexemes := by
  induction fields with
  | nil => rfl
  | cons field rest ih => rw [ObjectField.lexemesEach, ih, List.map_cons]

@[simp]
theorem Selection.lexemesEach_eq_map (selections : List Selection) :
    Selection.lexemesEach selections = selections.map Selection.lexemes := by
  induction selections with
  | nil => rfl
  | cons selection rest ih => rw [Selection.lexemesEach, ih, List.map_cons]

end Lists

/-- The lexemes of a selection set that may be missing. -/
def SelectionSet.lexemesOption : Option SelectionSet → List Lexeme
  | some set => set.lexemes
  | none => []

theorem Selection.lexemes_field (aliasName : Option Name) (name : Name)
    (arguments : List Argument) (directives : List Directive) (set : Option SelectionSet)
    (span : Span) :
    (Selection.field aliasName name arguments directives set span).lexemes =
      Name.lexemesAlias aliasName ++ name.lexeme ::
        (Argument.lexemesAll arguments ++
          (Directive.lexemesAll directives ++ SelectionSet.lexemesOption set)) := by
  cases set <;> rfl

theorem SelectionSet.lexemes_eq (set : SelectionSet) :
    set.lexemes =
      enclosed .braceOpen .braceClose (set.selections.map Selection.lexemes).flatten := by
  rcases set with ⟨selections, span⟩
  rw [SelectionSet.lexemes, Selection.lexemesEach_eq_map]
  rfl

end WiredGraph
