import WiredGraph.Proofs.Document.Printing
import WiredGraph.Proofs.Document.TypeSystem.Lexemes

/-!
# What printed type-system definitions are scanned as

The printed form of a definition of the type system that can be written is scanned as its lexemes.
Blocks, lists of names and descriptions are treated first, each with what may stand after it.
-/

namespace WiredGraph

open Layout
open Scan (Prints KeepsApart prints_nil prints_mark prints_word keepsApart_nil keepsApart_cons)

section Layouts

variable {Item : Type} {print : Item → List Char} {lexemes : Item → List Lexeme}
  {items : List Item} {piece : List Char} {later : List Lexeme}

theorem Layout.prints_block (level : Nat)
    (each : ∀ item ∈ items, Prints (print item) (lexemes item)) :
    Prints (block level (items.map print)) (Lexeme.braced (items.map lexemes)) := by
  cases items with
  | nil => exact prints_nil
  | cons item rest => exact (prints_braced level each).blank

theorem Layout.keepsApart_block (level : Nat) (pieces : List (List Char)) :
    KeepsApart (block level pieces) := by
  cases pieces with
  | nil => exact keepsApart_nil
  | cons first rest => exact keepsApart_cons (by decide)

/-- Items with a separator and blanks between them. -/
theorem Layout.prints_separated (separator : Punctuator)
    (each : ∀ item ∈ items, Prints (print item) (lexemes item)) :
    Prints (Text.join (' ' :: (separator.chars ++ [' '])) (items.map print))
      (Lexeme.separated separator (items.map lexemes)) := by
  induction items with
  | nil => exact prints_nil
  | cons item rest ih =>
      rcases List.forall_mem_cons.mp each with ⟨here, others⟩
      cases rest with
      | nil => simpa [Text.join, Lexeme.separated, Lexeme.afterEach] using here
      | cons next rest =>
          have following := ((ih others).blank.mark separator).blank
          have whole := here.append following (keepsApart_cons (by decide))
          simpa [Text.join, Lexeme.separated, Lexeme.afterEach] using whole

theorem Scan.Prints.colon (prints : Prints piece later) :
    Prints (": ".toList ++ piece) (.mark .colon :: later) :=
  prints.blank.mark .colon

theorem Scan.keepsApart_colon : KeepsApart (": ".toList ++ piece) := keepsApart_cons (by decide)

theorem Scan.Prints.keyword {word : String} (identifier : Ascii.isIdentifier word.toList = true)
    (prints : Prints piece later) : Prints (word.toList ++ ' ' :: piece) (.word word :: later) :=
  (prints_word identifier).append prints.blank (keepsApart_cons (by decide))

theorem Description.prints_before (level : Nat) {description : Option Description}
    (writable : ∀ text ∈ description, text.Writable False) (prints : Prints piece later) :
    Prints (printOption level description ++ piece) (lexemesOption description ++ later) := by
  cases description with
  | none => exact prints
  | some description =>
      have written : print level description =
          Quoted.encode description.text.toList ++ newline level := by
        simp [Description.print, Bool.eq_false_iff.mpr (writable description rfl)]
      rw [Description.printOption, written, List.append_assoc]
      exact (Scan.prints_quoted description.text).append (prints_newline level prints)
        (keepsApart_newline level)

theorem Name.prints_introduced {introduction separatorText : List Char} {opening : Lexeme}
    {separator : Punctuator} (separated : separatorText = ' ' :: (separator.chars ++ [' ']))
    (opens : ∀ {piece : List Char} {later : List Lexeme}, Prints piece later →
      Prints (introduction ++ piece) (opening :: later))
    {names : List Name} (identifiers : ∀ name ∈ names, name.IsIdentifier) :
    Prints (Name.printList introduction separatorText names)
      (Lexeme.introduced opening separator (names.map ([·.lexeme]))) := by
  cases names with
  | nil => exact prints_nil
  | cons first rest =>
      subst separated
      exact opens (prints_separated separator fun name name_mem =>
        prints_word (identifiers name name_mem))

theorem Name.keepsApart_printList {first : Char} {introduction separatorText : List Char}
    (ends : Scan.continuesToken first = false) (names : List Name) :
    KeepsApart (Name.printList (first :: introduction) separatorText names) := by
  cases names with
  | nil => exact keepsApart_nil
  | cons name rest => exact keepsApart_cons ends

end Layouts

section Members

theorem InputValueDefinition.WellFormed.prints {definition : InputValueDefinition}
    (wellFormed : definition.WellFormed False) : Prints definition.print definition.lexemes := by
  have directivesApart := Directive.keepsApart_printAll definition.directives
  have afterType := (Value.prints_default wellFormed.default).append
    (Directive.prints_all wellFormed.directives) directivesApart
  have typed := wellFormed.type.prints.append afterType
    ((Value.keepsApart_printDefault definition.default).append directivesApart)
  have whole := wellFormed.name.prints_before typed
  unfold InputValueDefinition.print
  simp only [List.append_assoc] at whole ⊢
  exact whole

theorem InputValueDefinition.Writable.prints {definition : InputValueDefinition}
    (writable : definition.Writable False) : Prints definition.printField definition.lexemesField :=
  Description.prints_before 1 writable.description writable.wellFormed.prints

/-- Arguments in front of a colon or a word. -/
theorem InputValueDefinition.prints_arguments {arguments : List InputValueDefinition}
    (wellFormed : ∀ argument ∈ arguments, argument.WellFormed False) :
    Prints (parenthesized (arguments.map InputValueDefinition.print))
      (Lexeme.parenthesized (arguments.map InputValueDefinition.lexemes)) :=
  prints_parenthesized fun argument argument_mem => (wellFormed argument argument_mem).prints

theorem FieldDefinition.Writable.prints {definition : FieldDefinition}
    (writable : definition.Writable False) : Prints definition.print definition.lexemes := by
  rcases writable with ⟨description, name, arguments, type, directives⟩
  have typed := type.prints.append (Directive.prints_all directives)
    (Directive.keepsApart_printAll _)
  have afterName := (InputValueDefinition.prints_arguments arguments).append typed.colon
    Scan.keepsApart_colon
  have named := (prints_word name).append afterName
    ((keepsApart_parenthesized _).append Scan.keepsApart_colon)
  have whole := Description.prints_before 1 description named
  unfold FieldDefinition.print
  simp only [List.append_assoc] at whole ⊢
  exact whole

theorem EnumValueDefinition.Writable.prints {definition : EnumValueDefinition}
    (writable : definition.Writable False) : Prints definition.print definition.lexemes := by
  rcases writable with ⟨description, name, directives⟩
  have named := (prints_word name).append (Directive.prints_all directives)
    (Directive.keepsApart_printAll _)
  have whole := Description.prints_before 1 description named
  unfold EnumValueDefinition.print
  rw [List.append_assoc]
  exact whole

theorem RootOperation.prints {root : RootOperation} (identifier : root.typeName.IsIdentifier) :
    Prints root.print root.lexemes := by
  have named : Prints root.typeName.print [root.typeName.lexeme] := prints_word identifier
  rw [RootOperation.print, List.append_assoc]
  exact (prints_word root.operation.isIdentifier_text).append named.colon Scan.keepsApart_colon

end Members

section Definitions

theorem SchemaDefinition.Writable.prints {definition : SchemaDefinition}
    (writable : definition.Writable False) :
    Prints ("schema".toList ++ (Directive.printAll definition.directives ++
      ' ' :: braced 0 (definition.operations.map RootOperation.print))) definition.lexemes := by
  have operations := prints_braced 0 fun root root_mem =>
    RootOperation.prints (writable.operations root root_mem)
  rcases Directive.prints_before writable.directives operations.blank
    (keepsApart_cons (by decide)) with ⟨after, apart⟩
  have keyword : Prints "schema".toList [.word "schema"] := prints_word (by decide)
  exact keyword.append after apart

/-- The body of an object type or an interface, and what stands before it. -/
theorem FieldDefinition.prints_body {interfaces : List Name} {directives : List Directive}
    {fields : List FieldDefinition} (identifiers : ∀ name ∈ interfaces, name.IsIdentifier)
    (wellFormed : ∀ directive ∈ directives, directive.WellFormed False)
    (writable : ∀ field ∈ fields, field.Writable False) :
    Prints (Name.printList " implements ".toList " & ".toList interfaces ++
        (Directive.printAll directives ++ block 0 (fields.map FieldDefinition.print)))
      (Lexeme.introduced (.word "implements") .ampersand (interfaces.map ([·.lexeme])) ++
        (Directive.lexemesAll directives ++
          Lexeme.braced (fields.map FieldDefinition.lexemes))) := by
  have block := prints_block 0 fun field field_mem => (writable field field_mem).prints
  rcases Directive.prints_before wellFormed block (keepsApart_block 0 _) with ⟨after, apart⟩
  refine Prints.append (Name.prints_introduced (by decide) ?_ identifiers) after apart
  intro piece later prints
  have word : Prints ("implements".toList ++ ' ' :: piece) (.word "implements" :: later) :=
    Scan.Prints.keyword (by decide) prints
  exact word.blank

theorem TypeDefinition.Body.Writable.prints {body : TypeDefinition.Body}
    (writable : body.Writable False) {directives : List Directive}
    (wellFormed : ∀ directive ∈ directives, directive.WellFormed False) :
    Prints (body.print directives) (body.lexemes directives) := by
  have directivesPrint := Directive.prints_all wellFormed
  cases body with
  | object interfaces fields | interface interfaces fields =>
      rw [TypeDefinition.Body.print, List.append_assoc]
      exact FieldDefinition.prints_body writable.interfaces wellFormed writable.fields
  | union members =>
      refine directivesPrint.append (Name.prints_introduced (by decide) ?_ writable.members)
        (Name.keepsApart_printList (by decide) members)
      intro piece later prints
      exact (prints.blank.mark .equals).blank
  | enum values =>
      exact directivesPrint.append
        (prints_block 0 fun value value_mem => (writable.values value value_mem).prints)
        (keepsApart_block 0 _)
  | input fields =>
      exact directivesPrint.append
        (prints_block 0 fun field field_mem => (writable.inputFields field field_mem).prints)
        (keepsApart_block 0 _)
  | scalar => exact directivesPrint

theorem TypeDefinition.Body.keepsApart_print (directives : List Directive)
    (body : TypeDefinition.Body) : KeepsApart (body.print directives) := by
  have directivesApart := Directive.keepsApart_printAll directives
  cases body with
  | object interfaces fields | interface interfaces fields =>
      exact ((Name.keepsApart_printList (by decide) interfaces).append directivesApart).append
        (keepsApart_block 0 _)
  | union members => exact directivesApart.append (Name.keepsApart_printList (by decide) members)
  | enum | input => exact directivesApart.append (keepsApart_block 0 _)
  | scalar => exact directivesApart

theorem TypeKind.isIdentifier_keyword (kind : TypeKind) :
    Ascii.isIdentifier kind.keyword.toList = true := by
  cases kind <;> decide

theorem TypeDefinition.Writable.prints {definition : TypeDefinition}
    (writable : definition.Writable False) : Prints definition.print definition.lexemes := by
  have named := (prints_word writable.name).append (writable.body.prints writable.directives)
    (TypeDefinition.Body.keepsApart_print definition.directives definition.body)
  rw [TypeDefinition.print, List.append_assoc]
  exact Scan.Prints.keyword definition.kind.isIdentifier_keyword named

theorem DirectiveLocation.prints (location : DirectiveLocation) :
    Prints location.text.toList [.word location.text] :=
  prints_word (by cases location <;> decide)

/-- A directive definition after its description. -/
theorem DirectiveDefinition.Writable.prints {definition : DirectiveDefinition}
    (writable : definition.Writable False) :
    Prints ("directive".toList ++ ' ' :: ('@' :: (definition.name.print ++
      (parenthesized (definition.arguments.map InputValueDefinition.print) ++
        ((if definition.repeatable then " repeatable".toList else []) ++
          ' ' :: ("on".toList ++ ' ' ::
            Text.join " | ".toList (definition.locations.map (·.text.toList))))))))
      definition.lexemes := by
  have locations : Prints (Text.join " | ".toList (definition.locations.map (·.text.toList)))
      (Lexeme.separated .pipe (definition.locations.map ([.word ·.text]))) :=
    prints_separated .pipe fun location _ => location.prints
  have on : Prints ("on".toList ++ ' ' ::
        Text.join " | ".toList (definition.locations.map (·.text.toList)))
      (.word "on" :: Lexeme.separated .pipe (definition.locations.map ([.word ·.text]))) :=
    Scan.Prints.keyword (by decide) locations
  have repeatable : Prints (if definition.repeatable then " repeatable".toList else [])
      (if definition.repeatable then [.word "repeatable"] else []) ∧
        KeepsApart (if definition.repeatable then " repeatable".toList else []) := by
    cases definition.repeatable with
    | false => exact ⟨prints_nil, keepsApart_nil⟩
    | true =>
        have word : Prints "repeatable".toList [.word "repeatable"] := prints_word (by decide)
        exact ⟨word.blank, keepsApart_cons (by decide)⟩
  have onApart : KeepsApart (' ' :: ("on".toList ++ ' ' ::
      Text.join " | ".toList (definition.locations.map (·.text.toList)))) :=
    keepsApart_cons (by decide)
  have afterArguments := repeatable.1.append on.blank onApart
  have afterApart := repeatable.2.append onApart
  have afterName := (InputValueDefinition.prints_arguments writable.arguments).append
    afterArguments afterApart
  have named := (prints_word writable.name).append afterName
    ((keepsApart_parenthesized _).append afterApart)
  exact Scan.Prints.keyword (by decide) (named.mark .at)

/-- A definition that can be written prints its lexemes. -/
theorem Definition.Writable.prints {definition : Definition}
    (writable : definition.Writable False) :
    Prints definition.print definition.writtenLexemes := by
  rcases writable with ⟨description, statement⟩
  cases definition with
  | schema definition =>
      have stated := SchemaDefinition.Writable.prints statement
      have whole := Description.prints_before 0 description stated
      change Prints definition.print _
      unfold SchemaDefinition.print
      simp only [List.append_assoc] at whole ⊢
      exact whole
  | type definition =>
      exact Description.prints_before 0 description (TypeDefinition.Writable.prints statement)
  | extension addition =>
      have keyword : "extend ".toList = "extend".toList ++ [' '] := by decide
      change Prints ("extend ".toList ++ addition.print) _
      rw [keyword, List.append_assoc]
      exact Scan.Prints.keyword (by decide) (TypeDefinition.Writable.prints statement.1)
  | directive definition =>
      have stated := DirectiveDefinition.Writable.prints statement
      have whole := Description.prints_before 0 description stated
      have keyword : "directive @".toList = "directive".toList ++ [' ', '@'] := by decide
      have on : " on ".toList = ' ' :: ("on".toList ++ [' ']) := by decide
      change Prints definition.print _
      unfold DirectiveDefinition.print
      rw [keyword, on]
      simp only [List.append_assoc, List.cons_append, List.nil_append] at whole ⊢
      exact whole
  | operation definition => exact OperationDefinition.WellFormed.prints statement
  | fragment definition => exact FragmentDefinition.WellFormed.prints statement

end Definitions

/-- The text that a document is printed as spells the lexemes of its definitions. -/
theorem Document.spells_writtenLexemes {document : Document}
    (writable : ∀ definition ∈ document.definitions, definition.Writable False) :
    Scan.Spells document.print (document.definitions.map Definition.writtenLexemes).flatten :=
  (Layout.prints_join (by decide) (fun _ => keepsApart_cons (by decide))
    fun definition definition_mem => (writable definition definition_mem).prints).spells

end WiredGraph
