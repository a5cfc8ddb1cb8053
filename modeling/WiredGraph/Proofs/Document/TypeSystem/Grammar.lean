import WiredGraph.Proofs.Document.Grammar
import WiredGraph.Proofs.Document.TypeSystem.Content

/-!
# The grammar of type-system documents

The productions that definitions of the type system add to those of executable documents, and the
documents in which definitions of both sorts stand. As there, the spans of what is derived are
empty, and a description is what its string is decoded to.

* Document: Definition*, where no SelectionSet alone follows a definition with no fields or values
* Definition: Description? (Schema | Type | `extend` Type | Directive | an executable definition)
* Description: String
* Schema: `schema` Directive* `{` (OperationType `:` Name)* `}`
* Type: `type` Name Interfaces? Directive* (`{` Field* `}`)?, the same with `interface`,
  `union` Name Directive* (`=` Members)?, `enum` Name Directive* (`{` EnumValue* `}`)?,
  `input` Name Directive* (`{` InputValue* `}`)? or `scalar` Name Directive*
* Interfaces: `implements` `&`? Name (`&` Name)*
* Members: `|`? Name (`|` Name)*
* Field: Description? Name (`(` InputValue* `)`)? `:` Type Directive*
* EnumValue: Description? Name Directive*
* InputValue: Description? Name `:` Type (`=` Value)? Directive*
* Directive: `directive` `@` Name (`(` InputValue* `)`)? `repeatable`? `on` `|`? Location
  (`|` Location)*
-/

namespace WiredGraph

open Lexeme (enclosed)

namespace Grammar

variable {Part : Type}

/-- Items between braces; leaving them out with their braces is the same as having no items. -/
inductive Braced (item : Part → List Lexeme → Prop) : List Part → List Lexeme → Prop
  | absent : Braced item [] []
  | present {parts : List Part} {inside : List Lexeme} :
      Many item parts inside → Braced item parts (enclosed .braceOpen .braceClose inside)

/-- At least one item, with a separator between items and perhaps one before the first. -/
inductive Separated (separator : Punctuator) (item : Part → List Lexeme → Prop) :
    List Part → List Lexeme → Prop
  | plain {part : Part} {parts : List Part} {first rest : List Lexeme} :
      item part first → Many (After (.mark separator) item) parts rest →
        Separated separator item (part :: parts) (first ++ rest)
  | led {part : Part} {parts : List Part} {first rest : List Lexeme} :
      item part first → Many (After (.mark separator) item) parts rest →
        Separated separator item (part :: parts) (.mark separator :: (first ++ rest))

/-- Separated items after a lexeme that introduces them; leaving them out with that lexeme is the
same as having no items. -/
inductive Introduced (opening : Lexeme) (separator : Punctuator)
    (item : Part → List Lexeme → Prop) : List Part → List Lexeme → Prop
  | absent : Introduced opening separator item [] []
  | present {parts : List Part} {lexemes : List Lexeme} :
      Separated separator item parts lexemes →
        Introduced opening separator item parts (opening :: lexemes)

end Grammar

open Grammar

/-- Description: a string stands for the text that it is decoded to. -/
inductive Description.DerivedFrom : Description → List Lexeme → Prop
  | string {written : String} {decoded : List Char} :
      Quoted.decodeToken? written.toList = some decoded →
        DerivedFrom ⟨String.ofList decoded, false, .empty 0⟩ [⟨.string, written⟩]

/-- OperationType `:` Name. -/
inductive RootOperation.DerivedFrom : RootOperation → List Lexeme → Prop
  | mk (operation : OperationType) (text : String) :
      DerivedFrom ⟨operation, .ofWord text, .empty 0⟩
        [.word operation.text, .mark .colon, .word text]

/-- InputValue: Description? Name `:` Type (`=` Value)? Directive*. -/
inductive InputValueDefinition.DerivedFrom : InputValueDefinition → List Lexeme → Prop
  | mk {description : Option Description} {descriptionLexemes : List Lexeme} (text : String)
      {type : TypeExpr} {typeLexemes : List Lexeme} {default : Option Value}
      {defaultLexemes : List Lexeme} {directives : List Directive}
      {directiveLexemes : List Lexeme} :
      Optional Description.DerivedFrom description descriptionLexemes →
        type.DerivedFrom typeLexemes →
          Optional (After (.mark .equals) Value.DerivedFrom) default defaultLexemes →
            Many Directive.DerivedFrom directives directiveLexemes →
              DerivedFrom ⟨description, .ofWord text, type, default, directives, .empty 0⟩
                (descriptionLexemes ++ .word text :: .mark .colon ::
                  (typeLexemes ++ (defaultLexemes ++ directiveLexemes)))

/-- Field: Description? Name (`(` InputValue* `)`)? `:` Type Directive*. -/
inductive FieldDefinition.DerivedFrom : FieldDefinition → List Lexeme → Prop
  | mk {description : Option Description} {descriptionLexemes : List Lexeme} (text : String)
      {arguments : List InputValueDefinition} {argumentLexemes : List Lexeme} {type : TypeExpr}
      {typeLexemes : List Lexeme} {directives : List Directive} {directiveLexemes : List Lexeme} :
      Optional Description.DerivedFrom description descriptionLexemes →
        Parenthesized InputValueDefinition.DerivedFrom arguments argumentLexemes →
          type.DerivedFrom typeLexemes →
            Many Directive.DerivedFrom directives directiveLexemes →
              DerivedFrom ⟨description, .ofWord text, arguments, type, directives, .empty 0⟩
                (descriptionLexemes ++ .word text ::
                  (argumentLexemes ++ .mark .colon :: (typeLexemes ++ directiveLexemes)))

/-- EnumValue: Description? Name Directive*. -/
inductive EnumValueDefinition.DerivedFrom : EnumValueDefinition → List Lexeme → Prop
  | mk {description : Option Description} {descriptionLexemes : List Lexeme} (text : String)
      {directives : List Directive} {directiveLexemes : List Lexeme} :
      Optional Description.DerivedFrom description descriptionLexemes →
        Many Directive.DerivedFrom directives directiveLexemes →
          DerivedFrom ⟨description, .ofWord text, directives, .empty 0⟩
            (descriptionLexemes ++ .word text :: directiveLexemes)

/-- What stands after the name in the definition of a type of a kind, with the directives there. -/
inductive TypeDefinition.Body.DerivedFrom :
    TypeKind → List Directive → TypeDefinition.Body → List Lexeme → Prop
  | object {interfaces : List Name} {interfaceLexemes : List Lexeme}
      {directives : List Directive} {directiveLexemes : List Lexeme}
      {fields : List FieldDefinition} {fieldLexemes : List Lexeme} :
      Introduced (.word "implements") .ampersand Name.DerivedFrom interfaces interfaceLexemes →
        Many Directive.DerivedFrom directives directiveLexemes →
          Braced FieldDefinition.DerivedFrom fields fieldLexemes →
            DerivedFrom .object directives (.object interfaces fields)
              (interfaceLexemes ++ (directiveLexemes ++ fieldLexemes))
  | interface {interfaces : List Name} {interfaceLexemes : List Lexeme}
      {directives : List Directive} {directiveLexemes : List Lexeme}
      {fields : List FieldDefinition} {fieldLexemes : List Lexeme} :
      Introduced (.word "implements") .ampersand Name.DerivedFrom interfaces interfaceLexemes →
        Many Directive.DerivedFrom directives directiveLexemes →
          Braced FieldDefinition.DerivedFrom fields fieldLexemes →
            DerivedFrom .interface directives (.interface interfaces fields)
              (interfaceLexemes ++ (directiveLexemes ++ fieldLexemes))
  | union {directives : List Directive} {directiveLexemes : List Lexeme} {members : List Name}
      {memberLexemes : List Lexeme} :
      Many Directive.DerivedFrom directives directiveLexemes →
        Introduced (.mark .equals) .pipe Name.DerivedFrom members memberLexemes →
          DerivedFrom .union directives (.union members) (directiveLexemes ++ memberLexemes)
  | enum {directives : List Directive} {directiveLexemes : List Lexeme}
      {values : List EnumValueDefinition} {valueLexemes : List Lexeme} :
      Many Directive.DerivedFrom directives directiveLexemes →
        Braced EnumValueDefinition.DerivedFrom values valueLexemes →
          DerivedFrom .enum directives (.enum values) (directiveLexemes ++ valueLexemes)
  | input {directives : List Directive} {directiveLexemes : List Lexeme}
      {fields : List InputValueDefinition} {fieldLexemes : List Lexeme} :
      Many Directive.DerivedFrom directives directiveLexemes →
        Braced InputValueDefinition.DerivedFrom fields fieldLexemes →
          DerivedFrom .input directives (.input fields) (directiveLexemes ++ fieldLexemes)
  | scalar {directives : List Directive} {directiveLexemes : List Lexeme} :
      Many Directive.DerivedFrom directives directiveLexemes →
        DerivedFrom .scalar directives .scalar directiveLexemes

/-- A type from its keyword on, with the description that stands before it. -/
inductive TypeDefinition.DerivedFrom (description : Option Description) :
    TypeDefinition → List Lexeme → Prop
  | mk (kind : TypeKind) (text : String) {directives : List Directive}
      {body : TypeDefinition.Body} {lexemes : List Lexeme} :
      body.DerivedFrom kind directives lexemes →
        DerivedFrom description ⟨description, .ofWord text, directives, body, .empty 0⟩
          (.word kind.keyword :: .word text :: lexemes)

/-- Location: its word. -/
inductive DirectiveLocation.DerivedFrom : DirectiveLocation → List Lexeme → Prop
  | word (location : DirectiveLocation) : DerivedFrom location [.word location.text]

/-- A definition of either sort without its description, which is given; executable definitions do
not keep it. -/
inductive Definition.StatedFrom (description : Option Description) :
    Definition → List Lexeme → Prop
  | schema {directives : List Directive} {directiveLexemes : List Lexeme}
      {operations : List RootOperation} {operationLexemes : List Lexeme} :
      Many Directive.DerivedFrom directives directiveLexemes →
        Many RootOperation.DerivedFrom operations operationLexemes →
          StatedFrom description (.schema ⟨description, directives, operations, .empty 0⟩)
            (.word "schema" ::
              (directiveLexemes ++ enclosed .braceOpen .braceClose operationLexemes))
  | type {definition : TypeDefinition} {lexemes : List Lexeme} :
      definition.DerivedFrom description lexemes →
        StatedFrom description (.type definition) lexemes
  | extension {addition : TypeDefinition} {lexemes : List Lexeme} :
      addition.DerivedFrom none lexemes →
        StatedFrom description (.extension addition) (.word "extend" :: lexemes)
  | directive (text : String) {arguments : List InputValueDefinition}
      {argumentLexemes : List Lexeme} (repeatable : Bool) {locations : List DirectiveLocation}
      {locationLexemes : List Lexeme} :
      Parenthesized InputValueDefinition.DerivedFrom arguments argumentLexemes →
        Separated .pipe DirectiveLocation.DerivedFrom locations locationLexemes →
          StatedFrom description
            (.directive
              ⟨description, .ofWord text, arguments, repeatable, locations, .empty 0⟩)
            (.word "directive" :: .mark .at :: .word text ::
              (argumentLexemes ++ ((if repeatable then [.word "repeatable"] else []) ++
                .word "on" :: locationLexemes)))
  | executable {definition : Definition} {lexemes : List Lexeme} :
      definition.DerivedFrom lexemes → StatedFrom description definition lexemes

/-- Definition: a description, if there is one, and what it describes. -/
inductive Definition.WrittenFrom : Definition → List Lexeme → Prop
  | mk {description : Option Description} {descriptionLexemes : List Lexeme}
      {definition : Definition} {lexemes : List Lexeme} :
      Optional Description.DerivedFrom description descriptionLexemes →
        definition.StatedFrom description lexemes →
          WrittenFrom definition (descriptionLexemes ++ lexemes)

/-- Document: definitions one after the other. What looks like the block of a type is taken for
one, so it must not follow a type that has none. -/
inductive Document.WrittenFrom : List Definition → List Lexeme → Prop
  | nil : WrittenFrom [] []
  | cons {definition : Definition} {definitions : List Definition} {first rest : List Lexeme} :
      definition.WrittenFrom first →
        (definition.isOpen = true → ∀ next ∈ rest.head?, next.kind ≠ .punctuator .braceOpen) →
          WrittenFrom definitions rest → WrittenFrom (definition :: definitions) (first ++ rest)

end WiredGraph
