import WiredGraph.Proofs.Document.Lexemes
import WiredGraph.Proofs.Document.WellFormed
import WiredGraph.Proofs.Token.Spelling

/-!
# What printed documents are scanned as

The printed form of a well-formed part of a document is scanned as the lexemes of the part, at
every level of indentation, if the part has no block strings. Each layout of the printer is treated
once; the parts of documents follow by how they are put together.
-/

namespace WiredGraph

open Lexeme (enclosed)
open Scan (Prints KeepsApart prints_nil prints_mark prints_word keepsApart_nil keepsApart_cons)

section Lists

@[simp]
theorem Value.printEach_eq_map (values : List Value) :
    Value.printEach values = values.map Value.print := by
  induction values with
  | nil => rfl
  | cons value rest ih => rw [Value.printEach, ih, List.map_cons]

@[simp]
theorem ObjectField.printEach_eq_map (fields : List ObjectField) :
    ObjectField.printEach fields = fields.map ObjectField.print := by
  induction fields with
  | nil => rfl
  | cons field rest ih => rw [ObjectField.printEach, ih, List.map_cons]

@[simp]
theorem Selection.printEach_eq_map (level : Nat) (selections : List Selection) :
    Selection.printEach level selections = selections.map (Selection.print level) := by
  induction selections with
  | nil => rfl
  | cons selection rest ih => rw [Selection.printEach, ih, List.map_cons]

end Lists

namespace Layout

section Pieces

variable {piece : List Char} {inside : List Lexeme}

theorem prints_blanks (count : Nat) (prints : Prints piece inside) :
    Prints (List.replicate count ' ' ++ piece) inside := by
  induction count with
  | zero => exact prints
  | succ count ih => exact ih.blank

theorem prints_newline (level : Nat) (prints : Prints piece inside) :
    Prints (newline level ++ piece) inside :=
  (prints_blanks (2 * level) prints).ignored (by decide)

theorem keepsApart_newline (level : Nat) : KeepsApart (newline level ++ piece) :=
  keepsApart_cons (by decide)

theorem prints_enclosed (openMark close : Punctuator) (prints : Prints piece inside)
    (keepsApart : KeepsApart close.chars) :
    Prints (openMark.chars ++ (piece ++ close.chars)) (enclosed openMark close inside) :=
  (prints.append (prints_mark close) keepsApart).mark openMark

end Pieces

section Items

variable {Item : Type} {print : Item → List Char} {lexemes : Item → List Lexeme}
  {items : List Item}

/-- Pieces print their lexemes one after the other if nothing but ignored characters stands between
them, the first of which ends every token. -/
theorem prints_join {separator : List Char} (blank : separator.all Scan.isIgnored = true)
    (apart : ∀ piece, KeepsApart (separator ++ piece))
    (each : ∀ item ∈ items, Prints (print item) (lexemes item)) :
    Prints (Text.join separator (items.map print)) (items.map lexemes).flatten := by
  induction items with
  | nil => exact prints_nil
  | cons item rest ih =>
      rcases List.forall_mem_cons.mp each with ⟨here, later⟩
      cases rest with
      | nil => simpa [Text.join] using here
      | cons next rest =>
          have whole := here.append ((ih later).ignoredAll (List.all_eq_true.mp blank)) (apart _)
          simpa [Text.join] using whole

theorem prints_commas (each : ∀ item ∈ items, Prints (print item) (lexemes item)) :
    Prints (commas (items.map print)) (items.map lexemes).flatten :=
  prints_join (by decide) (fun _ => keepsApart_cons (by decide)) each

theorem prints_parenthesized (each : ∀ item ∈ items, Prints (print item) (lexemes item)) :
    Prints (parenthesized (items.map print)) (Lexeme.parenthesized (items.map lexemes)) := by
  cases items with
  | nil => exact prints_nil
  | cons item rest =>
      exact prints_enclosed .parenOpen .parenClose (prints_commas each)
        (keepsApart_cons (by decide))

theorem keepsApart_parenthesized (pieces : List (List Char)) :
    KeepsApart (parenthesized pieces) := by
  cases pieces with
  | nil => exact keepsApart_nil
  | cons first rest => exact keepsApart_cons (by decide)

theorem prints_lines (level : Nat) (each : ∀ item ∈ items, Prints (print item) (lexemes item)) :
    Prints ((items.map print).flatMap (newline level ++ ·)) (items.map lexemes).flatten := by
  induction items with
  | nil => exact prints_nil
  | cons item rest ih =>
      rcases List.forall_mem_cons.mp each with ⟨here, later⟩
      refine (prints_newline level here).append (ih later) ?_
      cases rest with
      | nil => exact keepsApart_nil
      | cons next rest => exact keepsApart_cons (by decide)

theorem prints_braced (level : Nat) (each : ∀ item ∈ items, Prints (print item) (lexemes item)) :
    Prints (braced level (items.map print))
      (enclosed .braceOpen .braceClose (items.map lexemes).flatten) := by
  have closing : Prints (newline level ++ ['}']) [.mark .braceClose] :=
    prints_newline level (prints_mark .braceClose)
  have inside := (prints_lines (level + 1) each).append closing (keepsApart_newline level)
  have whole := inside.mark .braceOpen
  simpa [braced, enclosed, Punctuator.chars] using whole

end Items

end Layout

open Layout

section Values

theorem TypeExpr.WellFormed.prints {type : TypeExpr} (wellFormed : type.WellFormed) :
    Prints type.print type.lexemes := by
  induction wellFormed with
  | named name => exact prints_word name
  | list _ ih => exact prints_enclosed .bracketOpen .bracketClose ih (keepsApart_cons (by decide))
  | nonNull _ _ ih => exact ih.append (prints_mark .bang) (keepsApart_cons (by decide))

/-- A name and a colon go before what they name. -/
theorem Name.IsIdentifier.prints_before {name : Name} (identifier : name.IsIdentifier)
    {piece : List Char} {lexemes : List Lexeme} (prints : Prints piece lexemes) :
    Prints (name.print ++ ": ".toList ++ piece) (name.lexeme :: .mark .colon :: lexemes) := by
  have after : Prints (":".toList ++ ' ' :: piece) (.mark .colon :: lexemes) :=
    prints.blank.mark .colon
  have whole := (prints_word identifier).append after (keepsApart_cons (by decide))
  simpa [Name.print, Name.lexeme] using whole

theorem Value.WellFormed.prints {value : Value} (wellFormed : value.WellFormed False) :
    Prints value.print value.lexemes := by
  induction wellFormed with
  | var name => exact (prints_word name).mark .dollar
  | int digits => exact Scan.prints_number digits
  | float digits => exact Scan.prints_number digits
  | string noBlock =>
      rw [Value.print, if_neg noBlock]
      exact Scan.prints_quoted _
  | boolean value => cases value <;> exact prints_word (by decide)
  | null => exact prints_word (by decide)
  | enum name => exact prints_word name
  | list _ ih =>
      rw [Value.print, Value.lexemes, Value.printEach_eq_map, Value.lexemesEach_eq_map]
      exact prints_enclosed .bracketOpen .bracketClose (prints_commas ih)
        (keepsApart_cons (by decide))
  | object names _ ih =>
      rw [Value.print, Value.lexemes, ObjectField.printEach_eq_map,
        ObjectField.lexemesEach_eq_map]
      refine prints_enclosed .braceOpen .braceClose (prints_commas ?_) (keepsApart_cons (by decide))
      rintro ⟨name, value, span⟩ field_mem
      have identifier : name.IsIdentifier := names _ field_mem
      exact identifier.prints_before (ih _ field_mem)

theorem Argument.WellFormed.prints {argument : Argument}
    (wellFormed : argument.WellFormed False) : Prints argument.print argument.lexemes :=
  wellFormed.name.prints_before wellFormed.value.prints

theorem Argument.prints_all {arguments : List Argument}
    (wellFormed : ∀ argument ∈ arguments, argument.WellFormed False) :
    Prints (Argument.printAll arguments) (Argument.lexemesAll arguments) :=
  prints_parenthesized fun argument argument_mem => (wellFormed argument argument_mem).prints

theorem Argument.keepsApart_printAll (arguments : List Argument) :
    KeepsApart (Argument.printAll arguments) :=
  keepsApart_parenthesized _

theorem Directive.WellFormed.prints {directive : Directive}
    (wellFormed : directive.WellFormed False) : Prints directive.print directive.lexemes := by
  have arguments := Argument.prints_all wellFormed.arguments
  have named := (prints_word wellFormed.name).append arguments (Argument.keepsApart_printAll _)
  rw [Directive.print, List.append_assoc]
  exact (named.mark .at).ignored (by decide)

theorem Directive.keepsApart_printAll (directives : List Directive) :
    KeepsApart (Directive.printAll directives) := by
  cases directives with
  | nil => exact keepsApart_nil
  | cons first rest => exact keepsApart_cons (by decide)

theorem Directive.prints_all {directives : List Directive}
    (wellFormed : ∀ directive ∈ directives, directive.WellFormed False) :
    Prints (Directive.printAll directives) (Directive.lexemesAll directives) := by
  induction directives with
  | nil => exact prints_nil
  | cons first rest ih =>
      rcases List.forall_mem_cons.mp wellFormed with ⟨here, later⟩
      exact here.prints.append (ih later) (Directive.keepsApart_printAll rest)

end Values

section Selections

/-- The text of an alias that may be missing. -/
def Name.printAlias : Option Name → List Char
  | some aliasName => aliasName.print ++ ": ".toList
  | none => []

/-- The text of a type condition that may be missing. -/
def Name.printCondition : Option Name → List Char
  | some condition => " on ".toList ++ condition.print
  | none => []

theorem Name.prints_alias {aliasName : Option Name} {piece : List Char} {lexemes : List Lexeme}
    (identifier : ∀ other ∈ aliasName, other.IsIdentifier) (prints : Prints piece lexemes) :
    Prints (Name.printAlias aliasName ++ piece) (Name.lexemesAlias aliasName ++ lexemes) := by
  cases aliasName with
  | none => exact prints
  | some aliasName => exact (identifier aliasName rfl).prints_before prints

theorem Name.prints_condition {condition : Option Name}
    (identifier : ∀ name ∈ condition, name.IsIdentifier) :
    Prints (Name.printCondition condition) (Name.lexemesCondition condition) := by
  cases condition with
  | none => exact prints_nil
  | some condition =>
      have named : Prints (' ' :: condition.print) [condition.lexeme] :=
        (prints_word (identifier condition rfl)).blank
      have on : Prints "on".toList [.word "on"] := prints_word (by decide)
      exact (on.append named (keepsApart_cons (by decide))).blank

variable {piece : List Char} {lexemes : List Lexeme}

theorem Directive.prints_before {directives : List Directive}
    (wellFormed : ∀ directive ∈ directives, directive.WellFormed False)
    (prints : Prints piece lexemes) (keepsApart : KeepsApart piece) :
    Prints (Directive.printAll directives ++ piece)
        (Directive.lexemesAll directives ++ lexemes) ∧
      KeepsApart (Directive.printAll directives ++ piece) :=
  ⟨(Directive.prints_all wellFormed).append prints keepsApart,
    (Directive.keepsApart_printAll directives).append keepsApart⟩

/-- A field with what stands after its directives. -/
theorem Selection.FieldWellFormed.prints {aliasName : Option Name} {name : Name}
    {arguments : List Argument} {directives : List Directive}
    (wellFormed : FieldWellFormed False aliasName name arguments directives)
    (prints : Prints piece lexemes) (keepsApart : KeepsApart piece) :
    Prints
      (Name.printAlias aliasName ++ (name.print ++
        (Argument.printAll arguments ++ (Directive.printAll directives ++ piece))))
      (Name.lexemesAlias aliasName ++ name.lexeme ::
        (Argument.lexemesAll arguments ++ (Directive.lexemesAll directives ++ lexemes))) := by
  rcases Directive.prints_before wellFormed.directives prints keepsApart with ⟨directives, apart⟩
  have arguments := (Argument.prints_all wellFormed.arguments).append directives apart
  have name := (prints_word wellFormed.name).append arguments
    ((Argument.keepsApart_printAll _).append apart)
  exact Name.prints_alias wellFormed.aliasName name

theorem Selection.print_field (level : Nat) (aliasName : Option Name) (name : Name)
    (arguments : List Argument) (directives : List Directive) (set : Option SelectionSet)
    (span : Span) :
    (Selection.field aliasName name arguments directives set span).print level =
      Name.printAlias aliasName ++ name.print ++ Argument.printAll arguments ++
        Directive.printAll directives ++
          (match set with
            | some set => ' ' :: set.print level
            | none => []) := by
  cases set <;> cases aliasName <;> rfl

theorem Selection.print_spread (level : Nat) (name : Name) (directives : List Directive)
    (span : Span) :
    (Selection.spread name directives span).print level =
      "...".toList ++ name.print ++ Directive.printAll directives := rfl

theorem Selection.print_inline (level : Nat) (condition : Option Name)
    (directives : List Directive) (set : SelectionSet) (span : Span) :
    (Selection.inline condition directives set span).print level =
      "...".toList ++ Name.printCondition condition ++ Directive.printAll directives ++
        ' ' :: set.print level := by
  cases condition <;> rfl

theorem Selection.WellFormed.prints {selection : Selection}
    (wellFormed : selection.WellFormed False) (level : Nat) :
    Prints (selection.print level) selection.lexemes := by
  induction wellFormed generalizing level with
  | leaf head =>
      simp only [Selection.print_field, List.append_assoc]
      exact head.prints prints_nil keepsApart_nil
  | field head _ ih =>
      simp only [Selection.print_field, List.append_assoc, SelectionSet.print,
        Selection.printEach_eq_map, Selection.lexemes, SelectionSet.lexemes,
        Selection.lexemesEach_eq_map]
      have set := prints_braced level fun selection selection_mem =>
        ih selection selection_mem (level + 1)
      exact head.prints set.blank (keepsApart_cons (by decide))
  | spread name directives =>
      rw [Selection.print_spread, List.append_assoc]
      have named := (prints_word name.identifier).append (Directive.prints_all directives)
        (Directive.keepsApart_printAll _)
      exact named.mark .spread
  | inline condition directives _ ih =>
      simp only [Selection.print_inline, List.append_assoc, SelectionSet.print,
        Selection.printEach_eq_map, Selection.lexemes, SelectionSet.lexemes,
        Selection.lexemesEach_eq_map]
      have set := prints_braced level fun selection selection_mem =>
        ih selection selection_mem (level + 1)
      have spaced := set.blank
      rcases Directive.prints_before directives spaced (keepsApart_cons (by decide)) with
        ⟨after, apart⟩
      exact ((Name.prints_condition condition).append after apart).mark .spread

theorem SelectionSet.WellFormed.prints {set : SelectionSet} (wellFormed : set.WellFormed False)
    (level : Nat) : Prints (set.print level) set.lexemes := by
  rcases set with ⟨selections, span⟩
  rw [SelectionSet.print, SelectionSet.lexemes, Selection.printEach_eq_map,
    Selection.lexemesEach_eq_map]
  exact prints_braced level fun selection selection_mem =>
    (wellFormed selection selection_mem).prints (level + 1)

end Selections

section Definitions

theorem Value.prints_default {default : Option Value}
    (wellFormed : ∀ value ∈ default, value.WellFormed False) :
    Prints (Value.printDefault default) (Value.lexemesDefault default) := by
  cases default with
  | none => exact prints_nil
  | some value =>
      have spaced := (wellFormed value rfl).prints.blank
      exact (spaced.mark .equals).ignored (by decide)

theorem Value.keepsApart_printDefault (default : Option Value) :
    KeepsApart (Value.printDefault default) := by
  cases default with
  | none => exact keepsApart_nil
  | some value => exact keepsApart_cons (by decide)

theorem VariableDefinition.WellFormed.prints {definition : VariableDefinition}
    (wellFormed : definition.WellFormed False) : Prints definition.print definition.lexemes := by
  have directivesApart := Directive.keepsApart_printAll definition.directives
  have afterType := (Value.prints_default wellFormed.default).append
    (Directive.prints_all wellFormed.directives) directivesApart
  have typed := wellFormed.type.prints.append afterType
    ((Value.keepsApart_printDefault definition.default).append directivesApart)
  have whole := (wellFormed.name.prints_before typed).mark .dollar
  unfold VariableDefinition.print
  simp only [List.append_assoc, List.cons_append] at whole ⊢
  exact whole

/-- What stands after the keyword of an operation and before its directives, as it is printed. -/
def OperationDefinition.printNamed (definition : OperationDefinition) : List Char :=
  let written := parenthesized (definition.variableDefinitions.map VariableDefinition.print)
  match definition.name with
  | some name => ' ' :: name.print ++ written
  | none => if written.isEmpty then [] else ' ' :: written

theorem OperationDefinition.printHead_eq (definition : OperationDefinition) :
    definition.printHead =
      definition.operation.text.toList ++
        (definition.printNamed ++ (Directive.printAll definition.directives ++ [' '])) := by
  rw [OperationDefinition.printHead, List.append_assoc, List.append_assoc]
  rfl

theorem OperationDefinition.WellFormed.prints_named {definition : OperationDefinition}
    (wellFormed : definition.WellFormed False) :
    Prints definition.printNamed (definition.name.toList.map Name.lexeme ++
        Lexeme.parenthesized (definition.variableDefinitions.map VariableDefinition.lexemes)) ∧
      KeepsApart definition.printNamed := by
  have declarations := prints_parenthesized fun declared declared_mem =>
    (wellFormed.variableDefinitions declared declared_mem).prints
  rcases definition with ⟨operation, name, variableDefinitions, directives, set, span⟩
  cases name with
  | some name =>
      have named := (prints_word (wellFormed.name name rfl)).append declarations
        (keepsApart_parenthesized _)
      exact ⟨named.blank, keepsApart_cons (by decide)⟩
  | none =>
      cases variableDefinitions with
      | nil => exact ⟨prints_nil, keepsApart_nil⟩
      | cons first rest => exact ⟨declarations.blank, keepsApart_cons (by decide)⟩

theorem OperationType.isIdentifier_text (operation : OperationType) :
    Ascii.isIdentifier operation.text.toList = true := by
  cases operation <;> decide

theorem OperationDefinition.WellFormed.prints {definition : OperationDefinition}
    (wellFormed : definition.WellFormed False) : Prints definition.print definition.lexemes := by
  have set := wellFormed.set.prints 0
  rw [OperationDefinition.print, OperationDefinition.lexemes]
  split
  · exact set
  · rcases wellFormed.prints_named with ⟨named, apart⟩
    rcases Directive.prints_before wellFormed.directives set.blank
      (keepsApart_cons (by decide)) with ⟨afterNamed, afterApart⟩
    have whole := (prints_word definition.operation.isIdentifier_text).append
      (named.append afterNamed afterApart) (apart.append afterApart)
    simpa only [OperationDefinition.printHead_eq, OperationDefinition.lexemesHead,
      List.append_assoc, List.cons_append, List.nil_append] using whole

theorem FragmentDefinition.print_eq (definition : FragmentDefinition) :
    definition.print =
      "fragment".toList ++ ' ' :: (definition.name.print ++
        ' ' :: ("on".toList ++ ' ' :: (definition.condition.print ++
          (Directive.printAll definition.directives ++ ' ' :: definition.set.print 0)))) := by
  have keyword : "fragment ".toList = "fragment".toList ++ [' '] := by simp
  have on : " on ".toList = ' ' :: ("on".toList ++ [' ']) := by simp
  unfold FragmentDefinition.print
  simp only [keyword, on, List.append_assoc, List.cons_append, List.nil_append]

theorem FragmentDefinition.WellFormed.prints {definition : FragmentDefinition}
    (wellFormed : definition.WellFormed False) : Prints definition.print definition.lexemes := by
  rcases Directive.prints_before wellFormed.directives (wellFormed.set.prints 0).blank
    (keepsApart_cons (by decide)) with ⟨afterCondition, apart⟩
  have condition := (prints_word wellFormed.condition).append afterCondition apart
  have on : Prints "on".toList [.word "on"] := prints_word (by decide)
  have typed := on.append condition.blank (keepsApart_cons (by decide))
  have named := (prints_word wellFormed.name.identifier).append typed.blank
    (keepsApart_cons (by decide))
  have keyword : Prints "fragment".toList [.word "fragment"] := prints_word (by decide)
  rw [FragmentDefinition.print_eq]
  exact keyword.append named.blank (keepsApart_cons (by decide))

end Definitions

section Content

@[simp]
theorem Name.print_content (name : Name) : name.content.print = name.print := rfl

theorem TypeExpr.print_content (type : TypeExpr) : type.content.print = type.print := by
  induction type with
  | named name => rfl
  | list item span ih => simp only [TypeExpr.content, TypeExpr.print, ih]
  | nonNull inner span ih => simp only [TypeExpr.content, TypeExpr.print, ih]

/-- Where a value stood does not matter to how it is printed. -/
theorem Value.print_content (value : Value) : (value.content id).print = value.print := by
  induction value with
  | var | int | float | string | boolean | null | enum => rfl
  | list items span ih =>
      have same : items.map (Value.print ∘ Value.content id) = items.map Value.print :=
        List.map_congr_left ih
      simp only [Value.content, Value.print, Value.contentEach_eq_map, Value.printEach_eq_map,
        List.map_map, same]
  | object fields span ih =>
      have same : fields.map (ObjectField.print ∘ ObjectField.content id) =
          fields.map ObjectField.print := by
        apply List.map_congr_left
        rintro ⟨name, value, fieldSpan⟩ field_mem
        have each : (value.content id).print = value.print := ih _ field_mem
        simp only [Function.comp_apply, ObjectField.content, ObjectField.print, each,
          Name.print_content]
      simp only [Value.content, Value.print, ObjectField.contentEach_eq_map,
        ObjectField.printEach_eq_map, List.map_map, same]

theorem Argument.print_content (argument : Argument) :
    (argument.content id).print = argument.print := by
  simp only [Argument.content, Argument.print, Value.print_content, Name.print_content]

theorem Argument.printAll_content (arguments : List Argument) :
    Argument.printAll (arguments.map (Argument.content id)) = Argument.printAll arguments := by
  have each : Argument.print ∘ Argument.content id = Argument.print :=
    funext Argument.print_content
  rw [Argument.printAll, Argument.printAll, List.map_map, each]

theorem Directive.print_content (directive : Directive) :
    (directive.content id).print = directive.print := by
  simp only [Directive.content, Directive.print, Argument.printAll_content, Name.print_content]

theorem Directive.printAll_content (directives : List Directive) :
    Directive.printAll (directives.map (Directive.content id)) =
      Directive.printAll directives := by
  have each : (fun directive => (Directive.content id directive).print) = Directive.print :=
    funext Directive.print_content
  rw [Directive.printAll, Directive.printAll, List.flatMap_map, each]

theorem Selection.print_content (selection : Selection) (level : Nat) :
    (selection.content id).print level = selection.print level := by
  have aliasSame : ∀ aliasName : Option Name,
      Name.printAlias (aliasName.map Name.content) = Name.printAlias aliasName := by
    rintro (- | aliasName) <;> rfl
  have conditionSame : ∀ condition : Option Name,
      Name.printCondition (condition.map Name.content) = Name.printCondition condition := by
    rintro (- | condition) <;> rfl
  induction selection generalizing level with
  | leaf aliasName name arguments directives span =>
      simp only [Selection.content, Selection.print_field, aliasSame, Argument.printAll_content,
        Directive.printAll_content, Name.print_content]
  | field aliasName name arguments directives selections setSpan span ih =>
      have same : selections.map (Selection.print (level + 1) ∘ Selection.content id) =
          selections.map (Selection.print (level + 1)) :=
        List.map_congr_left fun selection selection_mem => ih selection selection_mem (level + 1)
      simp only [Selection.content, Selection.print_field, aliasSame, Argument.printAll_content,
        Directive.printAll_content, Name.print_content, SelectionSet.content, SelectionSet.print,
        Selection.contentEach_eq_map, Selection.printEach_eq_map, List.map_map, same]
  | spread name directives span =>
      simp only [Selection.content, Selection.print_spread, Directive.printAll_content,
        Name.print_content]
  | inline condition directives selections setSpan span ih =>
      have same : selections.map (Selection.print (level + 1) ∘ Selection.content id) =
          selections.map (Selection.print (level + 1)) :=
        List.map_congr_left fun selection selection_mem => ih selection selection_mem (level + 1)
      simp only [Selection.content, Selection.print_inline, conditionSame,
        Directive.printAll_content, SelectionSet.content, SelectionSet.print,
        Selection.contentEach_eq_map, Selection.printEach_eq_map, List.map_map, same]

theorem SelectionSet.print_content (set : SelectionSet) (level : Nat) :
    (set.content id).print level = set.print level := by
  rcases set with ⟨selections, span⟩
  have same : selections.map (Selection.print (level + 1) ∘ Selection.content id) =
      selections.map (Selection.print (level + 1)) :=
    List.map_congr_left fun selection _ => selection.print_content (level + 1)
  simp only [SelectionSet.content, SelectionSet.print, Selection.contentEach_eq_map,
    Selection.printEach_eq_map, List.map_map, same]

theorem VariableDefinition.print_content (definition : VariableDefinition) :
    (definition.content id).print = definition.print := by
  have defaultSame : ∀ default : Option Value,
      Value.printDefault (default.map (Value.content id)) = Value.printDefault default := by
    rintro (- | default)
    · rfl
    · rw [Option.map_some, Value.printDefault, Value.print_content, Value.printDefault]
  unfold VariableDefinition.print VariableDefinition.content
  simp only [Name.print_content, TypeExpr.print_content, defaultSame, Directive.printAll_content]

theorem OperationDefinition.print_content (definition : OperationDefinition) :
    (definition.content id).print = definition.print := by
  have each : VariableDefinition.print ∘ VariableDefinition.content id = VariableDefinition.print :=
    funext VariableDefinition.print_content
  have shorthand : (definition.content id).isShorthand = definition.isShorthand := by
    simp only [OperationDefinition.isShorthand, OperationDefinition.content, Option.isNone_map,
      List.isEmpty_map]
  have named : (definition.content id).printNamed = definition.printNamed := by
    unfold OperationDefinition.printNamed OperationDefinition.content
    simp only [List.map_map, each]
    cases definition.name <;> rfl
  have head : (definition.content id).printHead = definition.printHead := by
    rw [OperationDefinition.printHead_eq, OperationDefinition.printHead_eq, named]
    simp only [OperationDefinition.content, Directive.printAll_content]
  rw [OperationDefinition.print, shorthand, head, OperationDefinition.print]
  simp only [OperationDefinition.content, SelectionSet.print_content]

theorem FragmentDefinition.print_content (definition : FragmentDefinition) :
    (definition.content id).print = definition.print := by
  rw [FragmentDefinition.print_eq, FragmentDefinition.print_eq]
  simp only [FragmentDefinition.content, Name.print_content, Directive.printAll_content,
    SelectionSet.print_content]

theorem Definition.print_content (definition : Definition) :
    (definition.content id).print = definition.print := by
  cases definition with
  | operation definition => exact definition.print_content
  | fragment definition => exact definition.print_content
  | _ => rfl

end Content

end WiredGraph
