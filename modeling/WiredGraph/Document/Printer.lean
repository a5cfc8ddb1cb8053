import WiredGraph.Document.Definition
import WiredGraph.Literal.Block
import WiredGraph.Literal.Quoted

/-!
# Printing documents

The printed form of a document is determined by its content alone: two spaces of indentation, one
selection, field or value on a line, commas between arguments, and a blank line between
definitions. Hashes are taken of printed operations, so this layout is part of what clients and
servers agree on.
-/

namespace WiredGraph

namespace Layout

/-- A new line at a level of indentation. -/
def newline (level : Nat) : List Char := '\n' :: List.replicate (2 * level) ' '

/-- Printed items with commas between them. -/
def commas (items : List (List Char)) : List Char := Text.join [',', ' '] items

/-- Printed items between parentheses, or nothing when there is no item. -/
def parenthesized : List (List Char) → List Char
  | [] => []
  | items => '(' :: commas items ++ [')']

/-- Printed items between braces, each on a line one level further in. -/
def braced (level : Nat) (items : List (List Char)) : List Char :=
  '{' :: items.flatMap (newline (level + 1) ++ ·) ++ newline level ++ ['}']

/-- Printed items between braces, or nothing when there is no item. -/
def block (level : Nat) : List (List Char) → List Char
  | [] => []
  | items => ' ' :: braced level items

end Layout

open Layout

/-- A name as it is printed. -/
def Name.print (name : Name) : List Char := name.text.toList

/-- A type as it is printed. -/
def TypeExpr.print : TypeExpr → List Char
  | .named name => name.print
  | .list item _ => '[' :: item.print ++ [']']
  | .nonNull inner _ => inner.print ++ ['!']

mutual

/-- A value as it is printed. -/
def Value.print : Value → List Char
  | .var name => '$' :: name.print
  | .int digits _ => digits.toList
  | .float digits _ => digits.toList
  | .string text block _ =>
      if block then BlockString.marks ++ BlockString.escapeMarks text.toList ++ BlockString.marks
      else Quoted.encode text.toList
  | .boolean value _ => if value then "true".toList else "false".toList
  | .null _ => "null".toList
  | .enum name => name.print
  | .list items _ => '[' :: commas (Value.printEach items) ++ [']']
  | .object fields _ => '{' :: commas (ObjectField.printEach fields) ++ ['}']

/-- Values as they are printed. -/
def Value.printEach : List Value → List (List Char)
  | [] => []
  | value :: rest => value.print :: Value.printEach rest

/-- A field of an object as it is printed. -/
def ObjectField.print : ObjectField → List Char
  | .mk name value _ => name.print ++ ": ".toList ++ value.print

/-- Fields of an object as they are printed. -/
def ObjectField.printEach : List ObjectField → List (List Char)
  | [] => []
  | field :: rest => field.print :: ObjectField.printEach rest

end

/-- An argument as it is printed. -/
def Argument.print (argument : Argument) : List Char :=
  argument.name.print ++ ": ".toList ++ argument.value.print

/-- Arguments as they are printed after a name. -/
def Argument.printAll (arguments : List Argument) : List Char :=
  parenthesized (arguments.map Argument.print)

/-- A directive as it is printed after a blank. -/
def Directive.print (directive : Directive) : List Char :=
  " @".toList ++ directive.name.print ++ Argument.printAll directive.arguments

/-- Directives as they are printed after what they stand at. -/
def Directive.printAll (directives : List Directive) : List Char :=
  directives.flatMap Directive.print

mutual

/-- A selection as it is printed at a level of indentation. -/
def Selection.print (level : Nat) : Selection → List Char
  | .field aliasName name arguments directives set _ =>
      (match aliasName with
        | some aliasName => aliasName.print ++ ": ".toList
        | none => []) ++
        name.print ++ Argument.printAll arguments ++ Directive.printAll directives ++
        (match set with
          | some set => ' ' :: set.print level
          | none => [])
  | .spread name directives _ => "...".toList ++ name.print ++ Directive.printAll directives
  | .inline condition directives set _ =>
      "...".toList ++
        (match condition with
          | some condition => " on ".toList ++ condition.print
          | none => []) ++
        Directive.printAll directives ++ ' ' :: set.print level

/-- A selection set as it is printed on a line at a level of indentation. -/
def SelectionSet.print (level : Nat) : SelectionSet → List Char
  | .mk selections _ => braced level (Selection.printEach (level + 1) selections)

/-- Selections as they are printed at a level of indentation. -/
def Selection.printEach (level : Nat) : List Selection → List (List Char)
  | [] => []
  | selection :: rest => selection.print level :: Selection.printEach level rest

end

/-- A description and the new line after it, printed at a level of indentation. A block of several
lines has its marks on lines of their own. -/
def Description.print (level : Nat) (description : Description) : List Char :=
  let text := description.text.toList
  let written :=
    if description.block then
      if '\n' ∈ text then
        BlockString.marks ++ (Text.lines text).flatMap (newline level ++ ·) ++ newline level ++
          BlockString.marks
      else
        BlockString.marks ++ text ++ BlockString.marks
    else
      Quoted.encode text
  written ++ newline level

/-- A description that may be missing, printed at a level of indentation. -/
def Description.printOption (level : Nat) : Option Description → List Char
  | some description => description.print level
  | none => []

/-- A default value and the sign before it, if there is one. -/
def Value.printDefault : Option Value → List Char
  | some value => " = ".toList ++ value.print
  | none => []

/-- An argument definition or a field of an input type, without its description. -/
def InputValueDefinition.print (definition : InputValueDefinition) : List Char :=
  definition.name.print ++ ": ".toList ++ definition.type.print ++
    Value.printDefault definition.default ++ Directive.printAll definition.directives

/-- A field of an object type or an interface, one level inside it. -/
def FieldDefinition.print (definition : FieldDefinition) : List Char :=
  Description.printOption 1 definition.description ++ definition.name.print ++
    parenthesized (definition.arguments.map InputValueDefinition.print) ++ ": ".toList ++
    definition.type.print ++ Directive.printAll definition.directives

/-- A value of an enum, one level inside it. -/
def EnumValueDefinition.print (definition : EnumValueDefinition) : List Char :=
  Description.printOption 1 definition.description ++ definition.name.print ++
    Directive.printAll definition.directives

/-- A field of an input type, one level inside it. -/
def InputValueDefinition.printField (definition : InputValueDefinition) : List Char :=
  Description.printOption 1 definition.description ++ definition.print

/-- A root operation of a schema. -/
def RootOperation.print (root : RootOperation) : List Char :=
  root.operation.text.toList ++ ": ".toList ++ root.typeName.print

/-- A schema definition; its braces are printed even when nothing is between them. -/
def SchemaDefinition.print (definition : SchemaDefinition) : List Char :=
  Description.printOption 0 definition.description ++ "schema".toList ++
    Directive.printAll definition.directives ++
    ' ' :: braced 0 (definition.operations.map RootOperation.print)

/-- Names with a separator between them after an introduction, or nothing when there is no name. -/
def Name.printList (introduction separator : List Char) : List Name → List Char
  | [] => []
  | names => introduction ++ Text.join separator (names.map Name.print)

/-- What stands after the name in a type definition. -/
def TypeDefinition.Body.print (directives : List Directive) : TypeDefinition.Body → List Char
  | .object interfaces fields | .interface interfaces fields =>
      Name.printList " implements ".toList " & ".toList interfaces ++
        Directive.printAll directives ++ block 0 (fields.map FieldDefinition.print)
  | .union members =>
      Directive.printAll directives ++ Name.printList " = ".toList " | ".toList members
  | .enum values =>
      Directive.printAll directives ++ block 0 (values.map EnumValueDefinition.print)
  | .input fields =>
      Directive.printAll directives ++ block 0 (fields.map InputValueDefinition.printField)
  | .scalar => Directive.printAll directives

/-- A type definition from its keyword on. -/
def TypeDefinition.print (definition : TypeDefinition) : List Char :=
  definition.kind.keyword.toList ++ ' ' :: definition.name.print ++
    definition.body.print definition.directives

/-- A directive definition. -/
def DirectiveDefinition.print (definition : DirectiveDefinition) : List Char :=
  Description.printOption 0 definition.description ++ "directive @".toList ++
    definition.name.print ++
    parenthesized (definition.arguments.map InputValueDefinition.print) ++
    (if definition.repeatable then " repeatable".toList else []) ++ " on ".toList ++
    Text.join " | ".toList (definition.locations.map (·.text.toList))

/-- A variable of an operation. -/
def VariableDefinition.print (definition : VariableDefinition) : List Char :=
  '$' :: definition.name.print ++ ": ".toList ++ definition.type.print ++
    Value.printDefault definition.default ++ Directive.printAll definition.directives

/-- Whether an operation can be printed as a selection set only. -/
def OperationDefinition.isShorthand (definition : OperationDefinition) : Bool :=
  definition.operation == .query && definition.name.isNone &&
    definition.variableDefinitions.isEmpty && definition.directives.isEmpty

/-- What stands before the selection set of an operation. -/
def OperationDefinition.printHead (definition : OperationDefinition) : List Char :=
  let written := parenthesized (definition.variableDefinitions.map VariableDefinition.print)
  definition.operation.text.toList ++
    (match definition.name with
      | some name => ' ' :: name.print ++ written
      | none => if written.isEmpty then [] else ' ' :: written) ++
    Directive.printAll definition.directives ++ [' ']

/-- An operation. -/
def OperationDefinition.print (definition : OperationDefinition) : List Char :=
  (if definition.isShorthand then [] else definition.printHead) ++ definition.set.print 0

/-- A fragment definition. -/
def FragmentDefinition.print (definition : FragmentDefinition) : List Char :=
  "fragment ".toList ++ definition.name.print ++ " on ".toList ++ definition.condition.print ++
    Directive.printAll definition.directives ++ ' ' :: definition.set.print 0

/-- A definition. -/
def Definition.print : Definition → List Char
  | .schema definition => definition.print
  | .type definition => Description.printOption 0 definition.description ++ definition.print
  | .extension addition => "extend ".toList ++ addition.print
  | .directive definition => definition.print
  | .operation definition => definition.print
  | .fragment definition => definition.print

/-- A document, with a blank line between definitions. -/
def Document.print (document : Document) : List Char :=
  Text.join ['\n', '\n'] (document.definitions.map Definition.print)

end WiredGraph
