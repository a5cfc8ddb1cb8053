import WiredGraph.Proofs.Document.Parser.Completeness
import WiredGraph.Proofs.Document.TypeSystem.Grammar

/-!
# What derives from the type-system grammar can be read

Lexemes that a document with definitions of the type system derives from are read as that document,
up to spans. Many parts of a type may be left out, so a definition ends only where no later part of
it may start: the next definition must not look like its interfaces, its directives, its members or
its block.
-/

namespace WiredGraph

open Grammar
open Lexeme (Avoids NoWord StartWith)

namespace Lexeme

/-- Lexemes that do not start with a text. -/
def NoText (lexemes : List Lexeme) : Prop :=
  ∀ first ∈ lexemes.head?, first.kind ≠ .string ∧ first.kind ≠ .blockString

theorem noText_word (text : String) (rest : List Lexeme) : NoText (.word text :: rest) := by
  rintro _ ⟨⟩
  have isName := word_isName text
  constructor
  all_goals
    intro same
    rw [same] at isName
    cases isName

/-- Lexemes that do not start with the word before interfaces. -/
def NoInterfaces (lexemes : List Lexeme) : Prop :=
  ∀ first ∈ lexemes.head?, first.kind ≠ .keyword .implements

theorem NoInterfaces.append {lexemes rest : List Lexeme} (here : NoInterfaces lexemes)
    (later : NoInterfaces rest) : NoInterfaces (lexemes ++ rest) := by
  cases lexemes with
  | nil => exact later
  | cons first others => exact fun first first_mem => here first first_mem

theorem StartWith.noInterfaces {mark : Punctuator} {lexemes : List Lexeme}
    (starts : StartWith mark lexemes) : NoInterfaces lexemes := by
  intro first first_mem
  rw [starts first first_mem]
  exact nofun

/-- The punctuators that go on with a definition, apart from the brace before a block. -/
def definitionMarks : List Punctuator := [.at, .parenOpen, .equals, .pipe, .ampersand]

/-- Lexemes that may follow a definition: they do not go on with it, except perhaps by a block. -/
structure FollowDefinition (lexemes : List Lexeme) : Prop where
  avoids : Avoids definitionMarks lexemes
  noInterfaces : NoInterfaces lexemes

end Lexeme

open Lexeme (NoText NoInterfaces FollowDefinition definitionMarks)

section FirstLexemes

variable {lexemes : List Lexeme}

theorem Grammar.Braced.startWith {Part : Type} {item : Part → List Lexeme → Prop}
    {parts : List Part} (derived : Braced item parts lexemes) : StartWith .braceOpen lexemes := by
  cases derived with
  | absent => exact Lexeme.startWith_nil _
  | present => exact Lexeme.startWith_mark _ _

/-- What may have a description and then a name starts with a string or a word. -/
theorem Description.avoids_described {description : Option Description}
    (derived : Optional Description.DerivedFrom description lexemes) (marks : List Punctuator)
    (text : String) (rest : List Lexeme) : Avoids marks (lexemes ++ .word text :: rest) := by
  cases derived with
  | absent => exact Lexeme.avoids_word _ _
  | present derived =>
      cases derived
      exact Lexeme.avoids_cons fun _ _ => nofun

/-- A definition without its description starts with the word of a keyword or with a brace. -/
theorem Definition.StatedFrom.noText {description : Option Description} {definition : Definition}
    (derived : definition.StatedFrom description lexemes) (rest : List Lexeme) :
    NoText (lexemes ++ rest) := by
  cases derived with
  | schema | extension | directive => exact Lexeme.noText_word _ _
  | type derived =>
      cases derived
      exact Lexeme.noText_word _ _
  | executable derived =>
      rcases derived.head with ⟨first, others, rfl, noText⟩
      rintro _ ⟨⟩
      exact noText

end FirstLexemes

namespace Reading

variable {Part : Type} {cursor : Cursor} {rest : List Lexeme}

section Items

variable {read : Reading Part} {item : Part → List Lexeme → Prop} {content : Part → Part}
  {stop : List Punctuator} {parts : List Part} {lexemes : List Lexeme} {separator : Punctuator}

/-- Items between braces can be read, and so can their absence before everything but a brace. -/
theorem succeeds_braced (listed : ∀ limit, Listed read item content limit stop .braceClose)
    (derived : Braced item parts lexemes) (before : cursor.Before (lexemes ++ rest))
    (avoids : parts = [] → Avoids [.braceOpen] rest) :
    Succeeds (enclosedItems .braceOpen .braceClose read) cursor fun found next =>
      found.map content = parts ∧ next.Before rest := by
  cases derived with
  | absent =>
      apply succeeds_bind (succeeds_eat_other (before.avoids (avoids rfl) (by simp)))
      rintro _ _ ⟨rfl, rfl⟩
      exact succeeds_pure ⟨rfl, before⟩
  | @present _ inside many =>
      rw [Lexeme.enclosed_append] at before
      apply succeeds_bind (succeeds_eat before rfl)
      rintro _ next ⟨rfl, after⟩
      exact succeeds_itemsUntil (listed inside.length) many (Nat.le_refl _) after

/-- Items after separators can be read one after the other, before everything but another
separator. -/
theorem succeeds_separatedUpTo
    (reads : ∀ part lexemes, item part lexemes →
      Reads read lexemes [] fun found => content found = part)
    (many : Many (After (.mark separator) item) parts lexemes) {bound : Nat}
    (enough : parts.length ≤ bound) (before : cursor.Before (lexemes ++ rest))
    (avoids : Avoids [separator] rest) :
    Succeeds (separatedUpTo separator read bound) cursor fun found next =>
      found.map content = parts ∧ next.Before rest := by
  induction many generalizing cursor bound with
  | nil =>
      cases bound with
      | zero => exact succeeds_pure ⟨rfl, before⟩
      | succ bound =>
          apply succeeds_bind (succeeds_eat_other (before.avoids avoids (by simp)))
          rintro _ _ ⟨rfl, rfl⟩
          exact succeeds_pure ⟨rfl, before⟩
  | @cons part others _ later derived many ih =>
      rcases derived with ⟨derived⟩
      cases bound with
      | zero => simp at enough
      | succ bound =>
          simp only [List.cons_append, List.append_assoc] at before
          apply succeeds_bind (succeeds_eat before rfl)
          rintro _ next ⟨rfl, after⟩
          apply succeeds_bind (reads part _ derived next _ after (Lexeme.avoids_none _))
          rintro found last ⟨same, ends⟩
          apply succeeds_bind (ih (by simpa using enough) ends)
          rintro founds final ⟨sames, done⟩
          exact succeeds_pure ⟨by rw [List.map_cons, same, sames], done⟩

theorem succeeds_discard {post : Part → Cursor → Prop} (succeeds : Succeeds read cursor post) :
    Succeeds (discard read) cursor fun _ next => ∃ part, post part next := by
  apply succeeds_map
  exact succeeds.imp fun part _ holds => ⟨part, holds⟩

/-- Items can be read whether or not a separator has been passed before them. -/
theorem succeeds_itemAndSeparated {part : Part} {others : List Part} {first later : List Lexeme}
    (reads : ∀ part lexemes, item part lexemes →
      Reads read lexemes [] fun found => content found = part)
    (derived : item part first) (many : Many (After (.mark separator) item) others later)
    (before : cursor.Before (first ++ (later ++ rest))) (avoids : Avoids [separator] rest) :
    Succeeds (itemAndSeparated separator read) cursor fun found next =>
      found.map content = part :: others ∧ next.Before rest := by
  apply succeeds_bind (reads part first derived cursor _ before (Lexeme.avoids_none _))
  rintro found next ⟨same, after⟩
  have enough : others.length ≤ next.ahead.length := by
    have whole := congrArg List.length after.ahead
    have each := many.length_le fun _ _ (.mk _) => List.cons_ne_nil _ _
    rw [List.length_map, List.length_append] at whole
    omega
  apply succeeds_bind (succeeds_bounded.mpr
    (succeeds_separatedUpTo reads many enough after avoids))
  rintro founds last ⟨sames, ends⟩
  exact succeeds_pure ⟨by rw [List.map_cons, same, sames], ends⟩

/-- Separated items can be read, wherever the first one is told from a separator. -/
theorem succeeds_separated
    (reads : ∀ part lexemes, item part lexemes →
      Reads read lexemes [] fun found => content found = part)
    (opens : ∀ part lexemes rest, item part lexemes → Avoids [separator] (lexemes ++ rest))
    (derived : Separated separator item parts lexemes) (before : cursor.Before (lexemes ++ rest))
    (avoids : Avoids [separator] rest) :
    Succeeds (separated separator read) cursor fun found next =>
      found.map content = parts ∧ next.Before rest := by
  rw [separated_eq]
  cases derived with
  | plain derived many =>
      rw [List.append_assoc] at before
      have noSeparator := before.avoids (opens _ _ _ derived) (List.mem_singleton.mpr rfl)
      apply succeeds_bind (succeeds_discard (succeeds_eat_other noSeparator))
      rintro _ _ ⟨_, -, rfl⟩
      exact succeeds_itemAndSeparated reads derived many before avoids
  | led derived many =>
      rw [List.cons_append, List.append_assoc] at before
      apply succeeds_bind (succeeds_discard (succeeds_eat before rfl))
      rintro _ next ⟨_, -, after⟩
      exact succeeds_itemAndSeparated reads derived many after avoids

theorem reads_name {name : Name} (derived : name.DerivedFrom lexemes) :
    Reads Reading.name lexemes [] fun found => found.content = name := by
  intro cursor rest before _
  cases derived
  exact succeeds_word before

/-- Names after an introduction can be read, and so can their absence. -/
theorem succeeds_introduced {opening : Lexeme} {wanted : TokenKind} {names : List Name}
    (derived : Introduced opening separator Name.DerivedFrom names lexemes)
    (isWanted : opening.kind = wanted) (before : cursor.Before (lexemes ++ rest))
    (other : cursor.Before rest → cursor.current.kind ≠ wanted)
    (avoids : Avoids [separator] rest) :
    Succeeds (introduced wanted separator) cursor fun found next =>
      found.map Name.content = names ∧ next.Before rest := by
  cases derived with
  | absent =>
      apply succeeds_bind (succeeds_eat_other (other before))
      rintro _ _ ⟨rfl, rfl⟩
      exact succeeds_pure ⟨rfl, before⟩
  | present derived =>
      apply succeeds_bind (succeeds_eat before isWanted)
      rintro _ next ⟨rfl, after⟩
      refine succeeds_separated (fun _ _ => reads_name) ?_ derived after avoids
      rintro _ _ later ⟨⟩
      exact Lexeme.avoids_word _ _

end Items

section Descriptions

theorem succeeds_description {description : Option Description} {lexemes : List Lexeme}
    (derived : Optional Description.DerivedFrom description lexemes)
    (before : cursor.Before (lexemes ++ rest)) (noText : NoText rest) :
    Succeeds Reading.description cursor fun found next =>
      found.map Description.content = description ∧ next.Before rest := by
  cases derived with
  | absent =>
      have other : cursor.current.kind ≠ .string ∧ cursor.current.kind ≠ .blockString := by
        cases rest with
        | nil =>
            rw [Cursor.Before.kind_of_nil before]
            exact ⟨nofun, nofun⟩
        | cons first later =>
            rw [Cursor.Before.kind_eq before]
            exact noText first rfl
      apply (succeeds_noDescription other).imp
      rintro _ _ ⟨rfl, rfl⟩
      exact ⟨rfl, before⟩
  | present derived =>
      rcases derived with @⟨written, decoded, decodes⟩
      have tokenDecodes : Quoted.decodeToken? cursor.current.text.toList = some decoded := by
        rw [Cursor.Before.text_eq before]
        exact decodes
      rw [Reading.description, succeeds_current, Cursor.Before.kind_eq before]
      apply succeeds_bind (succeeds_quotedText tokenDecodes)
      rintro _ _ ⟨rfl, rfl⟩
      apply succeeds_bind (succeeds_advance before)
      intro _ next after
      exact succeeds_pure ⟨rfl, after⟩

/-- Where a definition starts does not matter to whether it can be read. -/
theorem succeeds_startAfter {description : Option Description} {next : Nat → Reading Part}
    {post : Part → Cursor → Prop} (succeeds : ∀ start, Succeeds (next start) cursor post) :
    Succeeds (startAfter description >>= next) cursor post := by
  cases description with
  | none => exact succeeds_startOffset.mpr (succeeds _)
  | some description => exact succeeds description.span.start

end Descriptions

section Members

theorem reads_inputValue {definition : InputValueDefinition} {lexemes : List Lexeme}
    (derived : definition.DerivedFrom lexemes) :
    Reads inputValue lexemes variableMarks fun found => found.content = definition := by
  intro cursor rest before avoids
  rcases derived with
    ⟨text, descriptionDerived, typeDerived, defaultDerived, directivesDerived⟩
  simp only [List.cons_append, List.append_assoc] at before
  have afterDefault := ((Directive.startWith_many directivesDerived).avoids (by decide)).append
    (avoids.mono (by decide : [.equals] ⊆ variableMarks))
  have afterType := (defaultDerived.startWith.avoids (by decide)).append
    (((Directive.startWith_many directivesDerived).avoids (by decide)).append
      (avoids.mono (by decide : [.bang] ⊆ variableMarks)))
  rw [inputValue_eq]
  apply succeeds_bind (succeeds_description descriptionDerived before (Lexeme.noText_word _ _))
  rintro foundDescription nameCursor ⟨sameDescription, nameBefore⟩
  apply succeeds_startAfter
  intro start
  apply succeeds_bind (succeeds_word nameBefore)
  rintro foundName colonCursor ⟨sameName, colonBefore⟩
  apply succeeds_bind (succeeds_expect colonBefore rfl)
  intro _ typeCursor typeBefore
  apply succeeds_bind (reads_type typeDerived typeCursor _ typeBefore afterType)
  rintro foundType defaultCursor ⟨sameType, defaultBefore⟩
  apply succeeds_bind (succeeds_optionalDefault defaultDerived defaultBefore afterDefault)
  rintro foundDefault directivesCursor ⟨sameDefault, directivesBefore⟩
  apply succeeds_bind
    (reads_directives directivesDerived _ rest directivesBefore (avoids.mono (by decide)))
  rintro foundDirectives last ⟨sameDirectives, ends⟩
  rw [succeeds_spanFrom]
  refine succeeds_pure ⟨?_, ends⟩
  simp only [InputValueDefinition.content, sameDescription, sameName, sameType, sameDefault,
    sameDirectives]

/-- Arguments and the fields of input types can be read up to the end of their list. -/
theorem listed_inputValues {close : Punctuator} (closes : close ∉ variableMarks) (limit : Nat) :
    Listed inputValue InputValueDefinition.DerivedFrom InputValueDefinition.content limit
      variableMarks close where
  reads _ _ derived _ := reads_inputValue derived
  nonempty := by
    rintro _ _ ⟨⟩
    simp
  opens := by
    rintro _ _ ⟨text, described⟩
    exact Description.avoids_described described _ _ _
  closes := closes

theorem reads_fieldDefinition {definition : FieldDefinition} {lexemes : List Lexeme}
    (derived : definition.DerivedFrom lexemes) :
    Reads fieldDefinition lexemes variableMarks fun found => found.content = definition := by
  intro cursor rest before avoids
  rcases derived with
    ⟨text, descriptionDerived, argumentsDerived, typeDerived, directivesDerived⟩
  simp only [List.cons_append, List.append_assoc] at before
  have afterType := ((Directive.startWith_many directivesDerived).avoids (by decide)).append
    (avoids.mono (by decide : [.bang] ⊆ variableMarks))
  rw [fieldDefinition]
  apply succeeds_bind (succeeds_description descriptionDerived before (Lexeme.noText_word _ _))
  rintro foundDescription nameCursor ⟨sameDescription, nameBefore⟩
  apply succeeds_startAfter
  intro start
  apply succeeds_bind (succeeds_word nameBefore)
  rintro foundName argumentsCursor ⟨sameName, argumentsBefore⟩
  apply succeeds_bind (reads_parenthesized (listed_inputValues (by decide)) argumentsDerived _ _
    argumentsBefore (Lexeme.avoids_mark _ (by decide)))
  rintro foundArguments colonCursor ⟨sameArguments, colonBefore⟩
  apply succeeds_bind (succeeds_expect colonBefore rfl)
  intro _ typeCursor typeBefore
  apply succeeds_bind (reads_type typeDerived typeCursor _ typeBefore afterType)
  rintro foundType directivesCursor ⟨sameType, directivesBefore⟩
  apply succeeds_bind
    (reads_directives directivesDerived _ rest directivesBefore (avoids.mono (by decide)))
  rintro foundDirectives last ⟨sameDirectives, ends⟩
  rw [succeeds_spanFrom]
  refine succeeds_pure ⟨?_, ends⟩
  simp only [FieldDefinition.content, sameDescription, sameName, sameArguments, sameType,
    sameDirectives]

theorem listed_fieldDefinitions (limit : Nat) :
    Listed fieldDefinition FieldDefinition.DerivedFrom FieldDefinition.content limit
      variableMarks .braceClose where
  reads _ _ derived _ := reads_fieldDefinition derived
  nonempty := by
    rintro _ _ ⟨⟩
    simp
  opens := by
    rintro _ _ ⟨text, described⟩
    exact Description.avoids_described described _ _ _
  closes := by decide

theorem reads_enumValue {definition : EnumValueDefinition} {lexemes : List Lexeme}
    (derived : definition.DerivedFrom lexemes) :
    Reads enumValue lexemes directiveMarks fun found => found.content = definition := by
  intro cursor rest before avoids
  rcases derived with ⟨text, descriptionDerived, directivesDerived⟩
  simp only [List.cons_append, List.append_assoc] at before
  rw [enumValue]
  apply succeeds_bind (succeeds_description descriptionDerived before (Lexeme.noText_word _ _))
  rintro foundDescription nameCursor ⟨sameDescription, nameBefore⟩
  apply succeeds_startAfter
  intro start
  apply succeeds_bind (succeeds_word nameBefore)
  rintro foundName directivesCursor ⟨sameName, directivesBefore⟩
  apply succeeds_bind (reads_directives directivesDerived _ rest directivesBefore avoids)
  rintro foundDirectives last ⟨sameDirectives, ends⟩
  rw [succeeds_spanFrom]
  refine succeeds_pure ⟨?_, ends⟩
  simp only [EnumValueDefinition.content, sameDescription, sameName, sameDirectives]

theorem listed_enumValues (limit : Nat) :
    Listed enumValue EnumValueDefinition.DerivedFrom EnumValueDefinition.content limit
      directiveMarks .braceClose where
  reads _ _ derived _ := reads_enumValue derived
  nonempty := by
    rintro _ _ ⟨⟩
    simp
  opens := by
    rintro _ _ ⟨text, described⟩
    exact Description.avoids_described described _ _ _
  closes := by decide

theorem reads_rootOperation {root : RootOperation} {lexemes : List Lexeme}
    (derived : root.DerivedFrom lexemes) :
    Reads rootOperation lexemes [] fun found => found.content = root := by
  intro cursor rest before _
  rcases derived with ⟨operation, text⟩
  have keyword : ∀ word : Keyword, word.text = operation.text →
      cursor.current.kind = .keyword word := by
    intro word same
    rw [before.kind_eq, Lexeme.word, ← same]
    exact Lexeme.wordKind_keyword word
  have afterKeyword : ∀ start, Succeeds (rootOperationOf start operation) cursor
      fun found next =>
        found.content = ⟨operation, .ofWord text, .empty 0⟩ ∧ next.Before rest := by
    intro start
    apply succeeds_bind (succeeds_advance before)
    intro _ colonCursor colonBefore
    apply succeeds_bind (succeeds_expect colonBefore rfl)
    intro _ nameCursor nameBefore
    apply succeeds_bind (succeeds_word nameBefore)
    rintro foundName last ⟨sameName, ends⟩
    rw [succeeds_spanFrom]
    exact succeeds_pure ⟨by simp only [RootOperation.content, sameName], ends⟩
  rw [rootOperation_eq, succeeds_startOffset, succeeds_kind]
  cases operation with
  | query =>
      rw [keyword .query rfl]
      exact afterKeyword _
  | mutation =>
      rw [keyword .mutation rfl]
      exact afterKeyword _
  | subscription =>
      rw [keyword .subscription rfl]
      exact afterKeyword _

theorem listed_rootOperations (limit : Nat) :
    Listed rootOperation RootOperation.DerivedFrom RootOperation.content limit [] .braceClose where
  reads _ _ derived _ := reads_rootOperation derived
  nonempty := by
    rintro _ _ ⟨⟩
    simp
  opens := by
    rintro _ _ ⟨⟩
    exact Lexeme.avoids_word _ _
  closes := by simp

theorem reads_directiveLocation {location : DirectiveLocation} {lexemes : List Lexeme}
    (derived : location.DerivedFrom lexemes) :
    Reads directiveLocation lexemes [] fun found => id found = location := by
  intro cursor rest before _
  cases derived
  have isName : cursor.current.kind = .name := by
    rw [before.kind_eq]
    cases location <;> decide
  rw [directiveLocation, succeeds_current, isName, before.text_eq, Lexeme.word,
    DirectiveLocation.ofText?_text]
  apply succeeds_bind (succeeds_advance before)
  intro _ next after
  exact succeeds_pure ⟨rfl, after⟩

end Members

section Types

variable {directives : List Directive} {directiveLexemes : List Lexeme}

/-- What stands before a block that may be missing ends there. -/
theorem avoids_braced {Item : Type} {item : Item → List Lexeme → Prop} {parts : List Item}
    {blockLexemes : List Lexeme} (derived : Braced item parts blockLexemes)
    (follow : FollowDefinition rest) {marks : List Punctuator}
    (fewer : marks ⊆ definitionMarks) : Avoids marks (blockLexemes ++ rest) := by
  have noBrace : Punctuator.braceOpen ∉ marks :=
    fun brace_mem => absurd (fewer brace_mem) (by decide)
  exact (derived.startWith.avoids noBrace).append (follow.avoids.mono fewer)

/-- Object types and interfaces are read in the same way. -/
theorem succeeds_fieldsBody (body : List Name → List FieldDefinition → TypeDefinition.Body)
    (sameBody : ∀ interfaces fields, (body interfaces fields).content =
      body (interfaces.map Name.content) (fields.map FieldDefinition.content))
    {interfaces : List Name} {interfaceLexemes : List Lexeme} {fields : List FieldDefinition}
    {fieldLexemes : List Lexeme}
    (interfacesDerived :
      Introduced (.word "implements") .ampersand Name.DerivedFrom interfaces interfaceLexemes)
    (directivesDerived : Many Directive.DerivedFrom directives directiveLexemes)
    (fieldsDerived : Braced FieldDefinition.DerivedFrom fields fieldLexemes)
    (before : cursor.Before (interfaceLexemes ++ (directiveLexemes ++ fieldLexemes) ++ rest))
    (follow : FollowDefinition rest) (apart : fields = [] → Avoids [.braceOpen] rest) :
    Succeeds (fieldsBody body) cursor fun found next =>
      (found.1.map (Directive.content id) = directives ∧ found.2.content = body interfaces fields) ∧
        next.Before rest := by
  rw [List.append_assoc, List.append_assoc] at before
  have startWithAt := Directive.startWith_many directivesDerived
  have afterInterfaces : Avoids [.ampersand] (directiveLexemes ++ (fieldLexemes ++ rest)) :=
    (startWithAt.avoids (by decide)).append (avoids_braced fieldsDerived follow (by decide))
  have noInterfaces : NoInterfaces (directiveLexemes ++ (fieldLexemes ++ rest)) :=
    startWithAt.noInterfaces.append
      (fieldsDerived.startWith.noInterfaces.append follow.noInterfaces)
  have other : cursor.Before (directiveLexemes ++ (fieldLexemes ++ rest)) →
      cursor.current.kind ≠ .keyword .implements := by
    intro here
    rcases shown : directiveLexemes ++ (fieldLexemes ++ rest) with - | ⟨first, later⟩
    · rw [shown] at here
      rw [here.kind_of_nil]
      exact nofun
    · rw [shown] at here noInterfaces
      rw [here.kind_eq]
      exact noInterfaces first rfl
  apply succeeds_bind (succeeds_introduced interfacesDerived
    (Lexeme.wordKind_keyword .implements) before other afterInterfaces)
  rintro foundInterfaces directivesCursor ⟨sameInterfaces, directivesBefore⟩
  apply succeeds_bind (reads_directives directivesDerived _ _ directivesBefore
    (avoids_braced fieldsDerived follow (by decide)))
  rintro foundDirectives fieldsCursor ⟨sameDirectives, fieldsBefore⟩
  apply succeeds_bind (succeeds_braced listed_fieldDefinitions fieldsDerived fieldsBefore apart)
  rintro foundFields last ⟨sameFields, ends⟩
  refine succeeds_pure ⟨⟨sameDirectives, ?_⟩, ends⟩
  rw [sameBody, sameInterfaces, sameFields]

/-- The body of an enum or an input type is read after the directives before it. -/
theorem succeeds_bracedBody {Item : Type} {read : Reading Item} {item : Item → List Lexeme → Prop}
    {content : Item → Item} {stop : List Punctuator}
    (listed : ∀ limit, Listed read item content limit stop .braceClose)
    (body : List Item → TypeDefinition.Body)
    (sameBody : ∀ items, (body items).content = body (items.map content)) {items : List Item}
    {itemLexemes : List Lexeme}
    (directivesDerived : Many Directive.DerivedFrom directives directiveLexemes)
    (itemsDerived : Braced item items itemLexemes)
    (before : cursor.Before (directiveLexemes ++ itemLexemes ++ rest))
    (follow : FollowDefinition rest) (apart : items = [] → Avoids [.braceOpen] rest) :
    Succeeds (bracedBody read body) cursor fun found next =>
      (found.1.map (Directive.content id) = directives ∧ found.2.content = body items) ∧
        next.Before rest := by
  rw [List.append_assoc] at before
  apply succeeds_bind (reads_directives directivesDerived _ _ before
    (avoids_braced itemsDerived follow (by decide)))
  rintro foundDirectives itemsCursor ⟨sameDirectives, itemsBefore⟩
  apply succeeds_bind (succeeds_braced listed itemsDerived itemsBefore apart)
  rintro foundItems last ⟨sameItems, ends⟩
  refine succeeds_pure ⟨⟨sameDirectives, ?_⟩, ends⟩
  rw [sameBody, sameItems]

/-- What stands after the name of a type can be read before everything that does not go on with
it. -/
theorem succeeds_typeBody {kind : TypeKind} {body : TypeDefinition.Body} {lexemes : List Lexeme}
    (derived : body.DerivedFrom kind directives lexemes) (before : cursor.Before (lexemes ++ rest))
    (follow : FollowDefinition rest)
    (apart : body.hasEmptyBlock = true → Avoids [.braceOpen] rest) :
    Succeeds (typeBody kind) cursor fun found next =>
      (found.1.map (Directive.content id) = directives ∧ found.2.content = body) ∧
        next.Before rest := by
  rw [typeBody_eq]
  cases derived with
  | object interfacesDerived directivesDerived fieldsDerived =>
      exact succeeds_fieldsBody .object (fun _ _ => rfl) interfacesDerived directivesDerived
        fieldsDerived before follow fun empty => apart (List.isEmpty_iff.mpr empty)
  | interface interfacesDerived directivesDerived fieldsDerived =>
      exact succeeds_fieldsBody .interface (fun _ _ => rfl) interfacesDerived directivesDerived
        fieldsDerived before follow fun empty => apart (List.isEmpty_iff.mpr empty)
  | @union _ _ members memberLexemes directivesDerived membersDerived =>
      rw [List.append_assoc] at before
      have noEquals : Avoids [.equals] rest := follow.avoids.mono (by decide)
      have afterDirectives : Avoids directiveMarks (memberLexemes ++ rest) := by
        cases membersDerived with
        | absent => exact follow.avoids.mono (by decide)
        | present => exact Lexeme.avoids_mark _ (by decide)
      apply succeeds_bind (reads_directives directivesDerived _ _ before afterDirectives)
      rintro foundDirectives membersCursor ⟨sameDirectives, membersBefore⟩
      apply succeeds_bind (succeeds_introduced membersDerived rfl membersBefore
        (fun here => here.avoids noEquals (by decide)) (follow.avoids.mono (by decide)))
      rintro foundMembers last ⟨sameMembers, ends⟩
      exact succeeds_pure
        ⟨⟨sameDirectives, by rw [TypeDefinition.Body.content, sameMembers]⟩, ends⟩
  | enum directivesDerived valuesDerived =>
      exact succeeds_bracedBody listed_enumValues .enum (fun _ => rfl) directivesDerived
        valuesDerived before follow fun empty => apart (List.isEmpty_iff.mpr empty)
  | input directivesDerived fieldsDerived =>
      exact succeeds_bracedBody (listed_inputValues (by decide)) .input (fun _ => rfl)
        directivesDerived fieldsDerived before follow fun empty =>
          apart (List.isEmpty_iff.mpr empty)
  | scalar directivesDerived =>
      apply succeeds_bind
        (reads_directives directivesDerived _ _ before (follow.avoids.mono (by decide)))
      rintro foundDirectives last ⟨sameDirectives, ends⟩
      exact succeeds_pure ⟨⟨sameDirectives, rfl⟩, ends⟩

variable {description : Option Description}

theorem succeeds_typeDefinition {definition : TypeDefinition} {lexemes : List Lexeme}
    (derived : definition.DerivedFrom (description.map Description.content) lexemes)
    (before : cursor.Before (lexemes ++ rest)) (follow : FollowDefinition rest)
    (apart : definition.body.hasEmptyBlock = true → Avoids [.braceOpen] rest) :
    Succeeds (typeDefinition description) cursor fun found next =>
      found.content = definition ∧ next.Before rest := by
  rcases derived with ⟨kind, text, bodyDerived⟩
  have kindFound : typeKind? cursor.current.kind = some kind := by
    rw [before.kind_eq]
    cases kind <;> decide
  rw [typeDefinition]
  apply succeeds_startAfter
  intro start
  rw [succeeds_kind, kindFound]
  apply succeeds_bind (succeeds_advance before)
  intro _ nameCursor nameBefore
  apply succeeds_bind (succeeds_word nameBefore)
  rintro foundName bodyCursor ⟨sameName, bodyBefore⟩
  apply succeeds_bind (succeeds_typeBody bodyDerived bodyBefore follow apart)
  rintro ⟨foundDirectives, foundBody⟩ last ⟨⟨sameDirectives, sameBody⟩, ends⟩
  rw [succeeds_spanFrom]
  refine succeeds_pure ⟨?_, ends⟩
  simp only [TypeDefinition.content, sameName, sameDirectives, sameBody]

end Types

section Definitions

variable {description : Option Description}

theorem succeeds_schemaDefinition {directives : List Directive} {directiveLexemes : List Lexeme}
    {operations : List RootOperation} {operationLexemes : List Lexeme}
    (directivesDerived : Many Directive.DerivedFrom directives directiveLexemes)
    (operationsDerived : Many RootOperation.DerivedFrom operations operationLexemes)
    (before : cursor.Before (.word "schema" ::
      (directiveLexemes ++ Lexeme.enclosed .braceOpen .braceClose operationLexemes) ++ rest)) :
    Succeeds (schemaDefinition description) cursor fun found next =>
      found.content =
        ⟨description.map Description.content, directives, operations, .empty 0⟩ ∧
          next.Before rest := by
  rw [List.cons_append, List.append_assoc, Lexeme.enclosed_append] at before
  rw [schemaDefinition]
  apply succeeds_startAfter
  intro start
  apply succeeds_bind (succeeds_expect before (Lexeme.wordKind_keyword .schema))
  intro _ directivesCursor directivesBefore
  apply succeeds_bind (reads_directives directivesDerived _ _ directivesBefore
    (Lexeme.avoids_mark _ (by decide)))
  rintro foundDirectives braceCursor ⟨sameDirectives, braceBefore⟩
  apply succeeds_bind (succeeds_expect braceBefore rfl)
  intro _ operationsCursor operationsBefore
  apply succeeds_spannedItems (listed_rootOperations operationLexemes.length) operationsDerived
    (Nat.le_refl _) operationsBefore
  intro foundOperations span sameOperations
  simp only [SchemaDefinition.content, sameDirectives, sameOperations]

/-- The word that tells whether a directive may be repeated can be read, and so can its absence. -/
theorem succeeds_repeatable {repeatable : Bool}
    (before : cursor.Before
      ((if repeatable then [.word "repeatable"] else []) ++ .word "on" :: rest)) :
    Succeeds (eat (.keyword .repeatable)) cursor fun found next =>
      found = repeatable ∧ next.Before (.word "on" :: rest) := by
  cases repeatable with
  | true => exact succeeds_eat before (Lexeme.wordKind_keyword .repeatable)
  | false =>
      have other : cursor.current.kind ≠ .keyword .repeatable := by
        rw [Cursor.Before.kind_eq before]
        decide
      apply (succeeds_eat_other other).imp
      rintro _ _ ⟨rfl, rfl⟩
      exact ⟨rfl, before⟩

theorem succeeds_directiveDefinition (text : String) {arguments : List InputValueDefinition}
    {argumentLexemes : List Lexeme} (repeatable : Bool) {locations : List DirectiveLocation}
    {locationLexemes : List Lexeme}
    (argumentsDerived :
      Parenthesized InputValueDefinition.DerivedFrom arguments argumentLexemes)
    (locationsDerived : Separated .pipe DirectiveLocation.DerivedFrom locations locationLexemes)
    (before : cursor.Before (.word "directive" :: .mark .at :: .word text ::
      (argumentLexemes ++ ((if repeatable then [.word "repeatable"] else []) ++
        .word "on" :: locationLexemes)) ++ rest))
    (follow : FollowDefinition rest) :
    Succeeds (directiveDefinition description) cursor fun found next =>
      found.content = ⟨description.map Description.content, .ofWord text, arguments, repeatable,
        locations, .empty 0⟩ ∧ next.Before rest := by
  simp only [List.cons_append, List.append_assoc] at before
  have afterArguments : Avoids [.parenOpen]
      ((if repeatable then [.word "repeatable"] else []) ++ .word "on" ::
        (locationLexemes ++ rest)) := by
    cases repeatable <;> exact Lexeme.avoids_word _ _
  rw [directiveDefinition]
  apply succeeds_startAfter
  intro start
  apply succeeds_bind (succeeds_expect before (Lexeme.wordKind_keyword .directive))
  intro _ atCursor atBefore
  apply succeeds_bind (succeeds_expect atBefore rfl)
  intro _ nameCursor nameBefore
  apply succeeds_bind (succeeds_word nameBefore)
  rintro foundName argumentsCursor ⟨sameName, argumentsBefore⟩
  apply succeeds_bind (reads_parenthesized (listed_inputValues (by decide)) argumentsDerived _ _
    argumentsBefore afterArguments)
  rintro foundArguments repeatableCursor ⟨sameArguments, repeatableBefore⟩
  apply succeeds_bind (succeeds_repeatable repeatableBefore)
  rintro _ onCursor ⟨rfl, onBefore⟩
  apply succeeds_bind (succeeds_expect onBefore (Lexeme.wordKind_keyword .on))
  intro _ locationsCursor locationsBefore
  have opens : ∀ location lexemes rest, DirectiveLocation.DerivedFrom location lexemes →
      Avoids [.pipe] (lexemes ++ rest) := by
    rintro _ _ later ⟨⟩
    exact Lexeme.avoids_word _ _
  apply succeeds_bind (succeeds_separated (fun _ _ => reads_directiveLocation) opens
    locationsDerived locationsBefore (follow.avoids.mono (by decide)))
  rintro foundLocations last ⟨sameLocations, ends⟩
  rw [List.map_id] at sameLocations
  rw [succeeds_spanFrom]
  refine succeeds_pure ⟨?_, ends⟩
  simp only [DirectiveDefinition.content, sameName, sameArguments, sameLocations]

theorem fullContent_of_derivedFrom {found written : Definition} {lexemes : List Lexeme}
    (derived : written.DerivedFrom lexemes) (same : found.content id = written) :
    found.fullContent = written := by
  cases derived <;> cases found <;> cases same <;> rfl

/-- A definition is read by what its first lexeme says that it is. -/
theorem succeeds_statedDefinition {definition : Definition} {lexemes : List Lexeme}
    (derived : definition.StatedFrom (description.map Description.content) lexemes)
    (before : cursor.Before (lexemes ++ rest)) (follow : FollowDefinition rest)
    (apart : definition.isOpen = true → Avoids [.braceOpen] rest) :
    Succeeds (describedDefinition description) cursor fun found next =>
      found.fullContent = definition ∧ next.Before rest := by
  cases derived with
  | schema directivesDerived operationsDerived =>
      rw [describedDefinition, succeeds_kind,
        before.kind_eq.trans (Lexeme.wordKind_keyword .schema)]
      apply succeeds_map
      apply (succeeds_schemaDefinition directivesDerived operationsDerived before).imp
      rintro found next ⟨same, ends⟩
      exact ⟨congrArg Definition.schema same, ends⟩
  | @type definition _ derived =>
      have read : Succeeds (Definition.type <$> typeDefinition description) cursor
          fun found next => found.fullContent = .type definition ∧ next.Before rest := by
        apply succeeds_map
        apply (succeeds_typeDefinition derived before follow apart).imp
        rintro found next ⟨same, ends⟩
        exact ⟨congrArg Definition.type same, ends⟩
      rcases derived with ⟨kind, text, bodyDerived⟩
      rw [describedDefinition, succeeds_kind, before.kind_eq]
      cases kind <;> exact read
  | extension derived =>
      rw [describedDefinition, succeeds_kind,
        before.kind_eq.trans (Lexeme.wordKind_keyword .extend)]
      apply succeeds_bind (succeeds_advance before)
      intro _ typeCursor typeBefore
      apply succeeds_map
      have described : (none : Option Description).map Description.content = none := rfl
      rw [← described] at derived
      apply (succeeds_typeDefinition derived typeBefore follow apart).imp
      rintro found next ⟨same, ends⟩
      exact ⟨congrArg Definition.extension same, ends⟩
  | directive text repeatable argumentsDerived locationsDerived =>
      rw [describedDefinition, succeeds_kind,
        before.kind_eq.trans (Lexeme.wordKind_keyword .directive)]
      apply succeeds_map
      apply (succeeds_directiveDefinition text repeatable argumentsDerived locationsDerived before
        follow).imp
      rintro found next ⟨same, ends⟩
      exact ⟨congrArg Definition.directive same, ends⟩
  | executable derived =>
      apply (reads_describedDefinition description derived cursor rest before
        (Lexeme.avoids_none _)).imp
      rintro found next ⟨same, ends⟩
      exact ⟨fullContent_of_derivedFrom derived same, ends⟩

theorem succeeds_writtenDefinition {written : Definition} {lexemes : List Lexeme}
    (derived : written.WrittenFrom lexemes) (before : cursor.Before (lexemes ++ rest))
    (follow : FollowDefinition rest) (apart : written.isOpen = true → Avoids [.braceOpen] rest) :
    Succeeds definition cursor fun found next =>
      found.fullContent = written ∧ next.Before rest := by
  rcases derived with ⟨descriptionDerived, stated⟩
  rw [List.append_assoc] at before
  rw [definition_eq]
  apply succeeds_bind (succeeds_description descriptionDerived before (stated.noText rest))
  rintro foundDescription next ⟨rfl, after⟩
  exact succeeds_statedDefinition stated after follow apart

/-- What a definition derives from has a first lexeme, which goes on with no other definition. -/
theorem follow_of_writtenFrom {written : Definition} {lexemes : List Lexeme}
    (derived : written.WrittenFrom lexemes) (rest : List Lexeme) :
    lexemes ≠ [] ∧ FollowDefinition (lexemes ++ rest) := by
  have keyword : ∀ (text : String) (later : List Lexeme),
      (Lexeme.word text).kind ≠ .keyword .implements → FollowDefinition (.word text :: later) := by
    intro text later other
    refine ⟨Lexeme.avoids_word _ _, ?_⟩
    rintro _ ⟨⟩
    exact other
  rcases derived with ⟨descriptionDerived, stated⟩
  cases descriptionDerived with
  | present derived =>
      rcases derived with ⟨decodes⟩
      refine ⟨List.cons_ne_nil _ _, Lexeme.avoids_cons fun _ _ => nofun, ?_⟩
      rintro _ ⟨⟩
      exact nofun
  | absent =>
      cases stated with
      | schema | extension | directive =>
          exact ⟨List.cons_ne_nil _ _, keyword _ _ (by decide)⟩
      | type derived =>
          rcases derived with ⟨kind, text, -⟩
          exact ⟨List.cons_ne_nil _ _, keyword _ _ (by cases kind <;> decide)⟩
      | executable derived =>
          cases derived with
          | operation derived =>
              cases derived with
              | shorthand derived =>
                  have starts := derived.startWith rest
                  exact ⟨derived.ne_nil, starts.avoids (by decide), starts.noInterfaces⟩
              | named operation =>
                  exact ⟨List.cons_ne_nil _ _, keyword _ _ (by cases operation <;> decide)⟩
          | fragment derived =>
              cases derived
              exact ⟨List.cons_ne_nil _ _, keyword _ _ (by decide)⟩

theorem follow_of_documentWrittenFrom {definitions : List Definition} {lexemes : List Lexeme}
    (derived : Document.WrittenFrom definitions lexemes) : FollowDefinition lexemes := by
  cases derived with
  | nil => exact ⟨by simp [Avoids], by simp [NoInterfaces]⟩
  | cons derived => exact (follow_of_writtenFrom derived _).2

/-- The definitions of a document can be read one after the other to its end. -/
theorem definitionsUpTo_of_writtenFrom {definitions : List Definition} {lexemes : List Lexeme}
    (derived : Document.WrittenFrom definitions lexemes) {bound : Nat}
    (before : cursor.Before lexemes) (enough : lexemes.length ≤ bound) :
    ∃ found last, definitionsUpTo bound cursor = (found, .ok last) ∧
      found.map Definition.fullContent = definitions := by
  induction derived generalizing cursor bound with
  | nil =>
      cases bound with
      | zero => exact ⟨[], cursor, rfl, rfl⟩
      | succ bound => exact ⟨[], cursor, by rw [definitionsUpTo, if_pos before.kind_of_nil], rfl⟩
  | @cons written others lexemes later derived apart others_derived ih =>
      rcases follow_of_writtenFrom derived later with ⟨nonempty, -⟩
      rcases shown : lexemes with - | ⟨first, more⟩
      · exact absurd shown nonempty
      have goesOn : cursor.current.kind ≠ .endOfInput := by
        rw [shown] at before
        rw [Cursor.Before.kind_eq before]
        exact (before.valid first (by simp)).2
      have noBlock : written.isOpen = true → Avoids [.braceOpen] later := by
        intro isOpen next next_mem mark mark_mem
        rw [List.mem_singleton.mp mark_mem]
        exact apart isOpen next next_mem
      rcases succeeds_writtenDefinition derived before
        (follow_of_documentWrittenFrom others_derived) noBlock with
        ⟨found, next, read, same, after⟩
      rw [List.length_append, shown, List.length_cons] at enough
      rcases bound with - | bound
      · omega
      have shorter : later.length ≤ bound := by omega
      rcases ih after shorter with ⟨founds, last, reads, sames⟩
      refine ⟨found :: founds, last, ?_, by rw [List.map_cons, same, sames]⟩
      rw [definitionsUpTo, if_neg goesOn, read]
      simp only [reads]

end Definitions

end Reading

namespace Document

open Reading

variable {source : List Char} {definitions : List Definition}

/-- A source whose lexemes are those of a document is read as this document. -/
theorem parse_of_writtenFrom (valid : ∀ lexeme ∈ Scan.lexemes source, lexeme.IsValid)
    (derived : Document.WrittenFrom definitions (Scan.lexemes source)) :
    ∃ found span, parse source = .ok ⟨⟨found, span⟩, none⟩ ∧
      found.map Definition.fullContent = definitions :=
  parse_of_definitionsUpTo valid fun before enough =>
    definitionsUpTo_of_writtenFrom derived before enough

end Document

end WiredGraph
