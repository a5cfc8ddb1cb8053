import WiredGraph.Proofs.Document.TypeSystem.Grammar
import WiredGraph.Proofs.Document.TypeSystem.WellFormed

/-!
# The lexemes of type-system definitions

The lexemes that a definition of the type system is printed with. A definition that can be written
without block strings derives from its lexemes, but for the descriptions of arguments, which are not
printed.
-/

namespace WiredGraph

open Lexeme (enclosed)
open Grammar

section Lexemes

namespace Lexeme

/-- The lexemes of items between braces, or nothing when there is no item. -/
def braced : List (List Lexeme) → List Lexeme
  | [] => []
  | items => enclosed .braceOpen .braceClose items.flatten

/-- The lexemes of items after a separator each. -/
def afterEach (separator : Punctuator) (items : List (List Lexeme)) : List Lexeme :=
  (items.map (.mark separator :: ·)).flatten

/-- The lexemes of items with a separator between them. -/
def separated (separator : Punctuator) : List (List Lexeme) → List Lexeme
  | [] => []
  | first :: rest => first ++ afterEach separator rest

/-- The lexemes of separated items after one that introduces them, or nothing when there is no
item. -/
def introduced (opening : Lexeme) (separator : Punctuator) : List (List Lexeme) → List Lexeme
  | [] => []
  | items => opening :: separated separator items

end Lexeme

open Lexeme (braced introduced)

/-- The lexemes of a description that may be missing. -/
def Description.lexemesOption : Option Description → List Lexeme
  | some description => [.quoted description.text]
  | none => []

/-- The lexemes of a root operation. -/
def RootOperation.lexemes (root : RootOperation) : List Lexeme :=
  [.word root.operation.text, .mark .colon, root.typeName.lexeme]

/-- The lexemes of an argument definition or of a field of an input type, without its
description. -/
def InputValueDefinition.lexemes (definition : InputValueDefinition) : List Lexeme :=
  definition.name.lexeme :: .mark .colon ::
    (definition.type.lexemes ++ (Value.lexemesDefault definition.default ++
      Directive.lexemesAll definition.directives))

/-- The lexemes of a field of an input type, whose description is written. -/
def InputValueDefinition.lexemesField (definition : InputValueDefinition) : List Lexeme :=
  Description.lexemesOption definition.description ++ definition.lexemes

/-- The lexemes of a field definition. -/
def FieldDefinition.lexemes (definition : FieldDefinition) : List Lexeme :=
  Description.lexemesOption definition.description ++ definition.name.lexeme ::
    (Lexeme.parenthesized (definition.arguments.map InputValueDefinition.lexemes) ++
      .mark .colon :: (definition.type.lexemes ++ Directive.lexemesAll definition.directives))

/-- The lexemes of a value of an enum. -/
def EnumValueDefinition.lexemes (definition : EnumValueDefinition) : List Lexeme :=
  Description.lexemesOption definition.description ++ definition.name.lexeme ::
    Directive.lexemesAll definition.directives

/-- The lexemes of a schema definition after its description. -/
def SchemaDefinition.lexemes (definition : SchemaDefinition) : List Lexeme :=
  .word "schema" :: (Directive.lexemesAll definition.directives ++
    enclosed .braceOpen .braceClose (definition.operations.map RootOperation.lexemes).flatten)

/-- The lexemes of what stands after the name in a type definition. -/
def TypeDefinition.Body.lexemes (directives : List Directive) :
    TypeDefinition.Body → List Lexeme
  | .object interfaces fields | .interface interfaces fields =>
      introduced (.word "implements") .ampersand (interfaces.map ([·.lexeme])) ++
        (Directive.lexemesAll directives ++ braced (fields.map FieldDefinition.lexemes))
  | .union members =>
      Directive.lexemesAll directives ++
        introduced (.mark .equals) .pipe (members.map ([·.lexeme]))
  | .enum values =>
      Directive.lexemesAll directives ++ braced (values.map EnumValueDefinition.lexemes)
  | .input fields =>
      Directive.lexemesAll directives ++ braced (fields.map InputValueDefinition.lexemesField)
  | .scalar => Directive.lexemesAll directives

/-- The lexemes of a type definition from its keyword on. -/
def TypeDefinition.lexemes (definition : TypeDefinition) : List Lexeme :=
  .word definition.kind.keyword :: definition.name.lexeme ::
    definition.body.lexemes definition.directives

/-- The lexemes of a directive definition after its description. -/
def DirectiveDefinition.lexemes (definition : DirectiveDefinition) : List Lexeme :=
  .word "directive" :: .mark .at :: definition.name.lexeme ::
    (Lexeme.parenthesized (definition.arguments.map InputValueDefinition.lexemes) ++
      ((if definition.repeatable then [.word "repeatable"] else []) ++ .word "on" ::
        Lexeme.separated .pipe (definition.locations.map ([.word ·.text]))))

/-- The lexemes of a definition of either sort, without its description. -/
def Definition.statedLexemes : Definition → List Lexeme
  | .schema definition => definition.lexemes
  | .type definition => definition.lexemes
  | .extension addition => .word "extend" :: addition.lexemes
  | .directive definition => definition.lexemes
  | definition => definition.lexemes

/-- The lexemes of a definition with its description. -/
def Definition.writtenLexemes (definition : Definition) : List Lexeme :=
  Description.lexemesOption definition.description? ++ definition.statedLexemes

end Lexemes

namespace Grammar

variable {Part Whole : Type} {item : Part → List Lexeme → Prop} {content : Whole → Part}
  {lexemes : Whole → List Lexeme} {separator : Punctuator}

theorem braced_map {wholes : List Whole}
    (each : ∀ whole ∈ wholes, item (content whole) (lexemes whole)) :
    Braced item (wholes.map content) (Lexeme.braced (wholes.map lexemes)) := by
  cases wholes with
  | nil => exact .absent
  | cons whole others => exact .present (many_map each)

theorem separated_map {wholes : List Whole} (nonempty : wholes ≠ [])
    (each : ∀ whole ∈ wholes, item (content whole) (lexemes whole)) :
    Separated separator item (wholes.map content)
      (Lexeme.separated separator (wholes.map lexemes)) := by
  cases wholes with
  | nil => exact absurd rfl nonempty
  | cons whole others =>
      rcases List.forall_mem_cons.mp each with ⟨here, later⟩
      refine .plain here ?_
      rw [Lexeme.afterEach, List.map_map]
      exact many_map fun other other_mem => .mk (later other other_mem)

theorem introduced_map {opening : Lexeme} {wholes : List Whole}
    (each : ∀ whole ∈ wholes, item (content whole) (lexemes whole)) :
    Introduced opening separator item (wholes.map content)
      (Lexeme.introduced opening separator (wholes.map lexemes)) := by
  cases wholes with
  | nil => exact .absent
  | cons whole others => exact .present (separated_map (List.cons_ne_nil _ _) each)

end Grammar

section Derived

theorem Description.derivedFrom_lexemesOption {description : Option Description}
    (writable : ∀ text ∈ description, text.Writable False) :
    Optional Description.DerivedFrom (description.map Description.content)
      (lexemesOption description) := by
  rcases description with - | ⟨text, block, span⟩
  · exact .absent
  · have decoded : Quoted.decodeToken? (Lexeme.quoted text).text.toList = some text.toList := by
      rw [Lexeme.quoted, String.toList_ofList, Quoted.decodeToken?_encode]
    have derived := Description.DerivedFrom.string decoded
    rw [String.ofList_toList] at derived
    obtain rfl : block = false := Bool.eq_false_iff.mpr (writable _ rfl)
    exact .present derived

theorem Value.derivedFrom_lexemesDefault {default : Option Value}
    (wellFormed : ∀ value ∈ default, value.WellFormed False) :
    Optional (After (.mark .equals) Value.DerivedFrom) (default.map (Value.content id))
      (Value.lexemesDefault default) := by
  cases default with
  | none => exact .absent
  | some value => exact .present (.mk (wellFormed value rfl).derivedFrom)

theorem RootOperation.derivedFrom (root : RootOperation) :
    root.content.DerivedFrom root.lexemes :=
  .mk root.operation root.typeName.text

theorem InputValueDefinition.Writable.derivedFrom {definition : InputValueDefinition}
    (writable : definition.Writable False) :
    definition.content.DerivedFrom definition.lexemesField :=
  .mk definition.name.text (Description.derivedFrom_lexemesOption writable.description)
    writable.wellFormed.type.derivedFrom.2
    (Value.derivedFrom_lexemesDefault writable.wellFormed.default)
    (Directive.derivedFrom_lexemesAll writable.wellFormed.directives)

/-- An argument is written without its description. -/
theorem InputValueDefinition.WellFormed.derivedFrom {definition : InputValueDefinition}
    (wellFormed : definition.WellFormed False) :
    definition.undescribed.content.DerivedFrom definition.lexemes :=
  have writable : definition.undescribed.Writable False :=
    ⟨nofun, wellFormed.name, wellFormed.type, wellFormed.default, wellFormed.directives⟩
  writable.derivedFrom

theorem InputValueDefinition.derivedFrom_arguments {definitions : List InputValueDefinition}
    (wellFormed : ∀ definition ∈ definitions, definition.WellFormed False) :
    Parenthesized InputValueDefinition.DerivedFrom
      ((definitions.map InputValueDefinition.undescribed).map InputValueDefinition.content)
      (Lexeme.parenthesized (definitions.map InputValueDefinition.lexemes)) := by
  rw [List.map_map]
  exact parenthesized_map fun definition definition_mem =>
    (wellFormed definition definition_mem).derivedFrom

theorem FieldDefinition.Writable.derivedFrom {definition : FieldDefinition}
    (writable : definition.Writable False) :
    definition.argumentsUndescribed.content.DerivedFrom definition.lexemes :=
  .mk definition.name.text (Description.derivedFrom_lexemesOption writable.description)
    (InputValueDefinition.derivedFrom_arguments writable.wellFormed.arguments)
    writable.wellFormed.type.derivedFrom.2
    (Directive.derivedFrom_lexemesAll writable.wellFormed.directives)

theorem EnumValueDefinition.Writable.derivedFrom {definition : EnumValueDefinition}
    (writable : definition.Writable False) : definition.content.DerivedFrom definition.lexemes :=
  .mk definition.name.text (Description.derivedFrom_lexemesOption writable.description)
    (Directive.derivedFrom_lexemesAll writable.wellFormed.directives)

theorem FieldDefinition.derivedFrom_block {fields : List FieldDefinition}
    (writable : ∀ field ∈ fields, field.Writable False) :
    Braced FieldDefinition.DerivedFrom
      ((fields.map FieldDefinition.argumentsUndescribed).map FieldDefinition.content)
      (Lexeme.braced (fields.map FieldDefinition.lexemes)) := by
  rw [List.map_map]
  exact braced_map fun field field_mem => (writable field field_mem).derivedFrom

theorem Name.derivedFrom_introduced (opening : Lexeme) (separator : Punctuator)
    (names : List Name) :
    Introduced opening separator Name.DerivedFrom (names.map Name.content)
      (Lexeme.introduced opening separator (names.map ([·.lexeme]))) :=
  introduced_map fun name _ => .word name.text

theorem TypeDefinition.Body.Writable.derivedFrom {definition : TypeDefinition}
    (writable : definition.body.Writable False)
    (directives : ∀ directive ∈ definition.directives, directive.WellFormed False) :
    definition.body.argumentsUndescribed.content.DerivedFrom definition.kind
      (definition.directives.map (Directive.content id))
      (definition.body.lexemes definition.directives) := by
  have derived := Directive.derivedFrom_lexemesAll directives
  rcases definition with ⟨description, name, directives, body, span⟩
  cases body with
  | object interfaces fields =>
      exact .object (Name.derivedFrom_introduced _ _ interfaces) derived
        (FieldDefinition.derivedFrom_block writable.fields)
  | interface interfaces fields =>
      exact .interface (Name.derivedFrom_introduced _ _ interfaces) derived
        (FieldDefinition.derivedFrom_block writable.fields)
  | union members => exact .union derived (Name.derivedFrom_introduced _ _ members)
  | enum values =>
      exact .enum derived (braced_map fun value value_mem =>
        (writable.values value value_mem).derivedFrom)
  | input fields =>
      exact .input derived (braced_map fun field field_mem =>
        (writable.inputFields field field_mem).derivedFrom)
  | scalar => exact .scalar derived

theorem TypeDefinition.Writable.derivedFrom {definition : TypeDefinition}
    (writable : definition.Writable False) :
    definition.argumentsUndescribed.content.DerivedFrom
      (definition.description.map Description.content) definition.lexemes :=
  .mk definition.kind definition.name.text (writable.body.derivedFrom writable.directives)

/-- What can be written of a definition derives from its lexemes, without the descriptions of its
arguments. -/
theorem Definition.StatementWritable.statedFrom {definition : Definition}
    (writable : definition.StatementWritable False) :
    definition.argumentsUndescribed.fullContent.StatedFrom
      (definition.description?.map Description.content) definition.statedLexemes := by
  cases definition with
  | schema definition =>
      rcases writable with ⟨directives, -⟩
      exact .schema (Directive.derivedFrom_lexemesAll directives)
        (many_map fun root _ => root.derivedFrom)
  | type definition => exact .type (TypeDefinition.Writable.derivedFrom writable)
  | extension addition =>
      have derived := writable.1.derivedFrom
      rw [writable.2] at derived
      exact .extension derived
  | directive definition =>
      rcases writable with ⟨-, arguments, nonempty⟩
      have locations : Separated .pipe DirectiveLocation.DerivedFrom (definition.locations.map id)
          (Lexeme.separated .pipe (definition.locations.map ([.word ·.text]))) :=
        separated_map nonempty fun location _ => .word location
      rw [List.map_id] at locations
      exact .directive definition.name.text definition.repeatable
        (InputValueDefinition.derivedFrom_arguments arguments) locations
  | operation definition =>
      exact .executable (.operation (OperationDefinition.WellFormed.derivedFrom writable))
  | fragment definition =>
      exact .executable (.fragment (FragmentDefinition.WellFormed.derivedFrom writable))

theorem Definition.Writable.writtenFrom {definition : Definition}
    (writable : definition.Writable False) :
    definition.argumentsUndescribed.fullContent.WrittenFrom definition.writtenLexemes :=
  .mk (Description.derivedFrom_lexemesOption writable.description) writable.statement.statedFrom

/-- Only a definition that is printed as a selection set starts with a brace. -/
theorem Definition.head_writtenLexemes {definition : Definition}
    (keyword : definition.isShorthand = false) (rest : List Lexeme) :
    ∀ first ∈ (definition.writtenLexemes ++ rest).head?,
      first.kind ≠ .punctuator .braceOpen := by
  have noBrace : ∀ text, (Lexeme.word text).kind ≠ .punctuator .braceOpen := by
    intro text same
    have isName := Lexeme.word_isName text
    rw [same] at isName
    cases isName
  rw [writtenLexemes]
  cases described : definition.description? with
  | some description =>
      rintro _ ⟨⟩
      exact nofun
  | none =>
      cases definition with
      | operation definition =>
          have named : definition.isShorthand = false := keyword
          simp [Description.lexemesOption, statedLexemes, lexemes, OperationDefinition.lexemes,
            OperationDefinition.lexemesHead, named, noBrace]
      | _ =>
          rintro _ ⟨⟩
          exact noBrace _

/-- Definitions of which none takes up the next one derive from their lexemes. -/
theorem Document.writtenFrom_lexemes {definitions : List Definition}
    (writable : ∀ definition ∈ definitions, definition.Writable False)
    (apart : definitions.IsChain fun definition next =>
      definition.isOpen = true → next.isShorthand = false) :
    Document.WrittenFrom
      (definitions.map fun definition => definition.argumentsUndescribed.fullContent)
      (definitions.map Definition.writtenLexemes).flatten := by
  induction definitions with
  | nil => exact .nil
  | cons definition others ih =>
      rcases List.forall_mem_cons.mp writable with ⟨here, later⟩
      refine .cons here.writtenFrom ?_ (ih later apart.tail)
      intro isOpen
      rw [Definition.isOpen_content] at isOpen
      cases others with
      | nil => simp
      | cons next others =>
          rw [List.isChain_cons_cons] at apart
          exact Definition.head_writtenLexemes (apart.1 isOpen) _

end Derived

end WiredGraph
