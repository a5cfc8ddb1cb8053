import WiredGraph.Proofs.Document.Parser.Parts
import WiredGraph.Proofs.Document.Parser.Reads
import WiredGraph.Proofs.Token.Spelling

/-!
# What is derived can be read

Lexemes that a part of a document derives from are read as that part, up to spans, before everything
that does not go on with the part. Types, values and selection sets are treated by induction on the
bounds of their readings; a bound is never met, since there are at most as many lexemes.
-/

namespace WiredGraph

open Grammar
open Lexeme (Avoids NoWord StartWith)

section FirstLexemes

variable {lexemes : List Lexeme}

theorem TypeExpr.DerivedFrom.ne_nil {type : TypeExpr} (derived : type.DerivedFrom lexemes) :
    lexemes ≠ [] := by
  cases derived with
  | base derived => cases derived <;> exact List.cons_ne_nil _ _
  | nonNull => simp

theorem Value.DerivedFrom.ne_nil {value : Value} (derived : value.DerivedFrom lexemes) :
    lexemes ≠ [] := by
  cases derived <;> exact List.cons_ne_nil _ _

/-- No value starts with a closing bracket. -/
theorem Value.DerivedFrom.avoids_close {value : Value} (derived : value.DerivedFrom lexemes) :
    Avoids [.bracketClose] lexemes := by
  cases derived with
  | enum | null | boolean => exact Lexeme.avoids_word _ _
  | _ => exact Lexeme.avoids_cons (by simp [Lexeme.mark])

theorem Grammar.Parenthesized.startWith {Part : Type} {item : Part → List Lexeme → Prop}
    {parts : List Part} (derived : Parenthesized item parts lexemes) :
    StartWith .parenOpen lexemes := by
  cases derived with
  | absent => exact Lexeme.startWith_nil _
  | present => exact Lexeme.startWith_mark _ _

theorem Directive.startWith_many {directives : List Directive}
    (many : Many Directive.DerivedFrom directives lexemes) : StartWith .at lexemes := by
  cases many with
  | nil => exact Lexeme.startWith_nil _
  | cons derived =>
      cases derived
      exact Lexeme.startWith_mark _ _

theorem Grammar.Optional.startWith {mark : Punctuator} {Part : Type} {part : Option Part}
    {item : Part → List Lexeme → Prop}
    (derived : Optional (After (.mark mark) item) part lexemes) : StartWith mark lexemes := by
  cases derived with
  | absent => exact Lexeme.startWith_nil _
  | present after =>
      cases after
      exact Lexeme.startWith_mark _ _

theorem SelectionSet.DerivedFrom.startWith {set : SelectionSet}
    (derived : set.DerivedFrom lexemes) (rest : List Lexeme) :
    StartWith .braceOpen (lexemes ++ rest) := by
  cases derived
  rw [Lexeme.enclosed_append]
  exact Lexeme.startWith_mark _ _

theorem SelectionSet.DerivedFrom.ne_nil {set : SelectionSet} (derived : set.DerivedFrom lexemes) :
    lexemes ≠ [] := by
  cases derived
  exact List.cons_ne_nil _ _

theorem SelectionSet.startWith_optional {set : Option SelectionSet}
    (derived : Optional SelectionSet.DerivedFrom set lexemes) : StartWith .braceOpen lexemes := by
  cases derived with
  | absent => exact Lexeme.startWith_nil _
  | present derived => simpa using derived.startWith []

theorem Selection.DerivedFrom.ne_nil {selection : Selection}
    (derived : selection.DerivedFrom lexemes) : lexemes ≠ [] := by
  cases derived <;> simp

/-- A field starts with a word, that of its alias or that of its name. -/
theorem Name.avoids_alias {aliasName : Option Name}
    (derived : Optional Name.AliasDerivedFrom aliasName lexemes) (marks : List Punctuator)
    (text : String) (rest : List Lexeme) : Avoids marks (lexemes ++ .word text :: rest) := by
  cases derived with
  | absent => exact Lexeme.avoids_word _ _
  | present derived =>
      cases derived
      exact Lexeme.avoids_word _ _

/-- A selection starts with a word or with three points. -/
theorem Selection.DerivedFrom.avoids {selection : Selection}
    (derived : selection.DerivedFrom lexemes) {marks : List Punctuator} (other : .spread ∉ marks) :
    Avoids marks lexemes := by
  cases derived with
  | field text aliasDerived => exact Name.avoids_alias aliasDerived marks text _
  | spread => exact Lexeme.avoids_mark _ other
  | inline => exact Lexeme.avoids_mark _ other

/-- No definition starts with a text. -/
theorem Definition.DerivedFrom.head {definition : Definition}
    (derived : definition.DerivedFrom lexemes) :
    ∃ first rest, lexemes = first :: rest ∧ first.kind ≠ .string ∧ first.kind ≠ .blockString := by
  have noText : ∀ text, (Lexeme.word text).kind ≠ .string ∧
      (Lexeme.word text).kind ≠ .blockString := by
    intro text
    have isName := Lexeme.word_isName text
    constructor
    all_goals
      intro same
      rw [same] at isName
      cases isName
  cases derived with
  | operation derived =>
      cases derived with
      | shorthand derived =>
          cases derived
          exact ⟨_, _, rfl, nofun, nofun⟩
      | named operation => exact ⟨_, _, rfl, noText operation.text⟩
  | fragment derived =>
      cases derived
      exact ⟨_, _, rfl, noText "fragment"⟩

theorem Definition.DescribedFrom.ne_nil {definition : Definition}
    (derived : definition.DescribedFrom lexemes) : lexemes ≠ [] := by
  cases derived with
  | plain derived =>
      rcases derived.head with ⟨first, rest, rfl, -⟩
      exact List.cons_ne_nil _ _
  | described => exact List.cons_ne_nil _ _

end FirstLexemes

namespace Reading

variable {cursor : Cursor} {rest : List Lexeme}

/-- The punctuators that go on with directives. -/
def directiveMarks : List Punctuator := [.at, .parenOpen]

theorem succeeds_word {text : String} (before : cursor.Before (.word text :: rest)) :
    Succeeds name cursor fun found next => found.content = .ofWord text ∧ next.Before rest := by
  apply (succeeds_name before).imp
  rintro found next ⟨same, after⟩
  exact ⟨by rw [Name.content, Name.ofWord, same], after⟩

section Types

/-- What stands before the exclamation mark of a type is read whatever follows. A word is no opening
bracket, so it is not read as a list. -/
theorem readsWithin_typeBase {bound : Nat}
    (types : ReadsWithin bound (typeUpTo bound) TypeExpr.DerivedFrom TypeExpr.content [.bang])
    (start : Nat) :
    ReadsWithin (bound + 1) (typeBase bound start) TypeExpr.BaseDerivedFrom TypeExpr.content
      [] := by
  intro type lexemes derived enough cursor rest before _
  cases derived with
  | named text =>
      have noList : cursor.current.kind ≠ .punctuator .bracketOpen :=
        before.avoids (Lexeme.avoids_word text rest) (List.mem_singleton.mpr rfl)
      apply succeeds_bind (succeeds_eat_other noList)
      rintro _ _ ⟨rfl, rfl⟩
      apply succeeds_bind (succeeds_word before)
      rintro found next ⟨same, after⟩
      exact succeeds_pure ⟨by simp only [TypeExpr.content, same], after⟩
  | @list item inside derived =>
      rw [Lexeme.length_enclosed] at enough
      rw [Lexeme.enclosed_append] at before
      apply succeeds_bind (succeeds_eat before rfl)
      rintro _ opened ⟨rfl, insideBefore⟩
      rw [if_pos rfl]
      have closing : Avoids [.bang] (.mark .bracketClose :: rest) :=
        Lexeme.avoids_mark _ (by decide)
      apply succeeds_bind (types item inside derived (by omega) opened _ insideBefore closing)
      rintro found next ⟨same, after⟩
      apply succeeds_bind (succeeds_expect after rfl)
      intro _ last ends
      rw [succeeds_spanFrom]
      exact succeeds_pure ⟨by simp only [TypeExpr.content, same], ends⟩

theorem readsWithin_typeUpTo (bound : Nat) :
    ReadsWithin bound (typeUpTo bound) TypeExpr.DerivedFrom TypeExpr.content [.bang] := by
  induction bound with
  | zero => exact readsWithin_zero fun _ _ => TypeExpr.DerivedFrom.ne_nil
  | succ bound ih =>
      intro type lexemes derived enough cursor rest before avoids
      rw [typeUpTo_succ, succeeds_startOffset]
      cases derived with
      | base derived =>
          apply succeeds_bind (readsWithin_typeBase ih _ type lexemes derived enough cursor rest
            before (Lexeme.avoids_none rest))
          rintro found next ⟨same, after⟩
          apply succeeds_bind (succeeds_eat_other (after.avoids avoids (by simp)))
          rintro _ _ ⟨rfl, rfl⟩
          exact succeeds_pure ⟨same, after⟩
      | @nonNull inner lexemes derived =>
          rw [List.length_append, List.length_singleton] at enough
          rw [List.append_assoc] at before
          apply succeeds_bind (readsWithin_typeBase ih _ inner lexemes derived (by omega) cursor _
            before (Lexeme.avoids_none _))
          rintro found next ⟨same, after⟩
          apply succeeds_bind (succeeds_eat after rfl)
          rintro _ last ⟨rfl, ends⟩
          rw [if_pos rfl, succeeds_spanFrom]
          exact succeeds_pure ⟨by simp only [TypeExpr.content, same], ends⟩

/-- A type can be read before everything but an exclamation mark. -/
theorem reads_type {type : TypeExpr} {lexemes : List Lexeme} (derived : type.DerivedFrom lexemes) :
    Reads Reading.type lexemes [.bang] fun found => found.content = type :=
  reads_bounded readsWithin_typeUpTo derived

end Types

section Values

theorem succeeds_quotedText {token : Token} {decoded : List Char}
    (decodes : Quoted.decodeToken? token.text.toList = some decoded) :
    Succeeds (quotedText token) cursor fun found next =>
      found = String.ofList decoded ∧ next = cursor := by
  rw [quotedText, decodes]
  exact succeeds_pure ⟨rfl, rfl⟩

/-- A value that is one lexeme is read by passing the lexeme. -/
theorem succeeds_leaf {lexeme : Lexeme} {value : Value} {Good : Value → Prop}
    (before : cursor.Before (lexeme :: rest)) (good : Good value) :
    Succeeds (do advance; return value) cursor fun found next => Good found ∧ next.Before rest := by
  apply succeeds_bind (succeeds_advance before)
  intro _ next after
  exact succeeds_pure ⟨good, after⟩

/-- A word that is no value of its own is read as an enum value. -/
theorem succeeds_enum {post : Value → Cursor → Prop} (bound : Nat)
    (isName : cursor.current.kind.isName = true)
    (noWord : ∀ word ∈ [Keyword.true, .false, .null], cursor.current.kind ≠ .keyword word)
    (succeeds : Succeeds name cursor fun found next => post (.enum found) next) :
    Succeeds (valueUpTo (bound + 1)) cursor post := by
  have elsewhere : ∀ kind, cursor.current.kind = kind → kind.isName = true ∧
      kind ∉ [.keyword .true, .keyword .false, .keyword .null] := by
    rintro _ rfl
    simpa [isName] using noWord
  rw [valueUpTo, succeeds_current]
  split
  case h_11 =>
    rw [if_pos isName]
    apply succeeds_bind succeeds
    intro found next holds
    exact succeeds_pure holds
  all_goals
    next found => exact absurd (elsewhere _ found) (by decide)

/-- The items of a list can be read up to its bracket. -/
theorem listed_values {limit : Nat} {read : Reading Value}
    (values : ReadsWithin limit read Value.DerivedFrom (Value.content id) []) :
    Listed read Value.DerivedFrom (Value.content id) limit [] .bracketClose where
  reads := values
  nonempty _ _ := Value.DerivedFrom.ne_nil
  opens _ _ := Value.DerivedFrom.avoids_close
  closes := by simp

/-- The fields of an object can be read up to its brace. -/
theorem listed_objectFields {limit : Nat} {read : Reading Value}
    (values : ReadsWithin limit read Value.DerivedFrom (Value.content id) []) :
    Listed (objectField read) ObjectField.DerivedFrom (ObjectField.content id) limit []
      .braceClose where
  reads := by
    intro field lexemes derived short cursor rest before avoids
    cases derived with
    | @mk text value lexemes derived =>
        rw [List.length_cons, List.length_cons] at short
        rw [objectField, succeeds_startOffset]
        apply succeeds_bind (succeeds_word before)
        rintro found next ⟨sameName, after⟩
        apply succeeds_bind (succeeds_expect after rfl)
        intro _ valueCursor valueBefore
        apply succeeds_bind
          (values value lexemes derived (by omega) valueCursor rest valueBefore avoids)
        rintro foundValue last ⟨sameValue, ends⟩
        rw [succeeds_spanFrom]
        exact succeeds_pure ⟨by simp only [ObjectField.content, sameName, sameValue], ends⟩
  nonempty := by
    rintro _ _ ⟨⟩
    exact List.cons_ne_nil _ _
  opens := by
    rintro _ _ ⟨⟩
    exact Lexeme.avoids_word _ _
  closes := by simp

/-- A value can be read under a bound for the number of its lexemes. The words of the values of
their own come first, and no enum value is one. Brackets leave a bound that is large enough for what
is between them. -/
theorem readsWithin_valueUpTo (bound : Nat) :
    ReadsWithin bound (valueUpTo bound) Value.DerivedFrom (Value.content id) [] := by
  induction bound with
  | zero => exact readsWithin_zero fun _ _ => Value.DerivedFrom.ne_nil
  | succ bound ih =>
      intro value lexemes derived enough cursor rest before _
      cases derived with
      | var text =>
          rw [valueUpTo, succeeds_current, before.kind_eq]
          apply succeeds_bind (succeeds_advance before)
          intro _ next after
          apply succeeds_bind (succeeds_word after)
          rintro found last ⟨same, ends⟩
          exact succeeds_pure ⟨by simp only [Value.content, same], ends⟩
      | int digits =>
          rw [valueUpTo, succeeds_current, before.kind_eq]
          exact succeeds_leaf before (by simp only [Value.content, before.text_eq])
      | float digits =>
          rw [valueUpTo, succeeds_current, before.kind_eq]
          exact succeeds_leaf before (by simp only [Value.content, before.text_eq])
      | @string written decoded decodes =>
          have tokenDecodes : Quoted.decodeToken? cursor.current.text.toList = some decoded := by
            rw [before.text_eq]
            exact decodes
          rw [valueUpTo, succeeds_current, before.kind_eq]
          apply succeeds_bind (succeeds_quotedText tokenDecodes)
          rintro _ _ ⟨rfl, rfl⟩
          exact succeeds_leaf before rfl
      | boolean value =>
          cases value with
          | false =>
              have kind : cursor.current.kind = .keyword .false :=
                before.kind_eq.trans (Lexeme.wordKind_keyword .false)
              rw [valueUpTo, succeeds_current, kind]
              exact succeeds_leaf before rfl
          | true =>
              have kind : cursor.current.kind = .keyword .true :=
                before.kind_eq.trans (Lexeme.wordKind_keyword .true)
              rw [valueUpTo, succeeds_current, kind]
              exact succeeds_leaf before rfl
      | null =>
          have kind : cursor.current.kind = .keyword .null :=
            before.kind_eq.trans (Lexeme.wordKind_keyword .null)
          rw [valueUpTo, succeeds_current, kind]
          exact succeeds_leaf before rfl
      | @enum text noWord =>
          have kind : cursor.current.kind = Lexeme.wordKind text := before.kind_eq
          have isName : cursor.current.kind.isName = true := kind ▸ Lexeme.word_isName text
          refine succeeds_enum bound isName ?_ ?_
          · intro word word_mem same
            apply noWord
            rw [← Lexeme.text_of_wordKind (kind.symm.trans same)]
            exact List.mem_map_of_mem (f := Keyword.text) word_mem
          · apply (succeeds_word before).imp
            rintro found next ⟨same, after⟩
            exact ⟨by simp only [Value.content, same], after⟩
      | @list items inside many =>
          rw [Lexeme.length_enclosed] at enough
          rw [Lexeme.enclosed_append] at before
          rw [valueUpTo, succeeds_current, before.kind_eq]
          apply succeeds_bind (succeeds_advance before)
          intro _ opened insideBefore
          apply succeeds_spannedItems (listed_values ih) many (by omega) insideBefore
          intro found span same
          simp only [Value.content, Value.contentEach_eq_map, same]
      | @object fields inside many =>
          rw [Lexeme.length_enclosed] at enough
          rw [Lexeme.enclosed_append] at before
          rw [valueUpTo, succeeds_current, before.kind_eq]
          apply succeeds_bind (succeeds_advance before)
          intro _ opened insideBefore
          apply succeeds_spannedItems (listed_objectFields ih) many (by omega) insideBefore
          intro found span same
          simp only [Value.content, ObjectField.contentEach_eq_map, same]

theorem reads_value {value : Value} {lexemes : List Lexeme}
    (derived : value.DerivedFrom lexemes) :
    Reads Reading.value lexemes [] fun found => found.content id = value :=
  reads_bounded readsWithin_valueUpTo derived

end Values

section Directives

theorem reads_argument {argument : Argument} {lexemes : List Lexeme}
    (derived : argument.DerivedFrom lexemes) :
    Reads Reading.argument lexemes [] fun found => found.content id = argument := by
  intro cursor rest before avoids
  cases derived with
  | mk text derived =>
      rw [Reading.argument, succeeds_startOffset]
      apply succeeds_bind (succeeds_word before)
      rintro found next ⟨sameName, after⟩
      apply succeeds_bind (succeeds_expect after rfl)
      intro _ valueCursor valueBefore
      apply succeeds_bind (reads_value derived valueCursor rest valueBefore avoids)
      rintro foundValue last ⟨sameValue, ends⟩
      rw [succeeds_spanFrom]
      exact succeeds_pure ⟨by simp only [Argument.content, sameName, sameValue], ends⟩

theorem reads_arguments {arguments : List Argument} {lexemes : List Lexeme}
    (derived : Parenthesized Argument.DerivedFrom arguments lexemes) :
    Reads Reading.arguments lexemes [.parenOpen] fun found =>
      found.map (Argument.content id) = arguments := by
  have listed : ∀ limit, Listed Reading.argument Argument.DerivedFrom (Argument.content id) limit
      [] .parenClose := by
    intro limit
    refine ⟨fun _ _ derived _ => reads_argument derived, ?_, ?_, by simp⟩
    · rintro _ _ ⟨⟩
      exact List.cons_ne_nil _ _
    · rintro _ _ ⟨⟩
      exact Lexeme.avoids_word _ _
  exact reads_parenthesized listed derived

/-- Directives can be read under a bound for the number of their lexemes. What follows the name of
one without arguments is no list of arguments. -/
theorem reads_directivesUpTo {directives : List Directive} {lexemes : List Lexeme}
    (many : Many Directive.DerivedFrom directives lexemes) {bound : Nat}
    (enough : lexemes.length ≤ bound) :
    Reads (directivesUpTo bound) lexemes directiveMarks fun found =>
      found.map (Directive.content id) = directives := by
  induction many generalizing bound with
  | nil =>
      intro cursor rest before avoids
      cases bound with
      | zero => exact succeeds_pure ⟨rfl, before⟩
      | succ bound =>
          rw [directivesUpTo, succeeds_startOffset]
          apply succeeds_bind (succeeds_eat_other (before.avoids avoids (by decide)))
          rintro _ _ ⟨rfl, rfl⟩
          exact succeeds_pure ⟨rfl, before⟩
  | @cons directive others lexemes later derived many ih =>
      intro cursor rest before avoids
      cases derived with
      | @mk text arguments argumentLexemes derived =>
          simp only [List.cons_append, List.length_cons, List.length_append] at enough
          simp only [List.cons_append, List.append_assoc] at before
          rcases bound with - | bound
          · omega
          rw [directivesUpTo, succeeds_startOffset]
          apply succeeds_bind (succeeds_eat before rfl)
          rintro _ nameCursor ⟨rfl, nameBefore⟩
          apply succeeds_bind (succeeds_word nameBefore)
          rintro foundName next ⟨sameName, after⟩
          have noArguments : Avoids [.parenOpen] (later ++ rest) :=
            ((Directive.startWith_many many).avoids (by decide)).append (avoids.mono (by decide))
          apply succeeds_bind (reads_arguments derived next _ after noArguments)
          rintro foundArguments last ⟨sameArguments, ends⟩
          rw [succeeds_spanFrom]
          apply succeeds_bind (ih (by omega) last rest ends avoids)
          rintro found final ⟨same, done⟩
          refine succeeds_pure ⟨?_, done⟩
          simp only [List.map_cons, Directive.content, sameName, sameArguments, same]

theorem reads_directives {directives : List Directive} {lexemes : List Lexeme}
    (many : Many Directive.DerivedFrom directives lexemes) :
    Reads Reading.directives lexemes directiveMarks fun found =>
      found.map (Directive.content id) = directives := by
  intro cursor rest before avoids
  have enough : lexemes.length ≤ cursor.ahead.length := by
    have whole := congrArg List.length before.ahead
    rw [List.length_map, List.length_append] at whole
    omega
  exact succeeds_bounded.mpr (reads_directivesUpTo many enough cursor rest before avoids)

end Directives

section Selections

/-- The punctuators that go on with a selection. -/
def selectionMarks : List Punctuator := [.colon, .parenOpen, .at, .braceOpen]

variable {arguments : List Argument} {argumentLexemes : List Lexeme}
  {directives : List Directive} {directiveLexemes : List Lexeme} {set : Option SelectionSet}
  {setLexemes : List Lexeme} {limit : Nat} {readSet : Reading SelectionSet}

theorem succeeds_optionalSet
    (sets : ReadsWithin limit readSet SelectionSet.DerivedFrom (SelectionSet.content id) [])
    (derived : Optional SelectionSet.DerivedFrom set setLexemes)
    (short : setLexemes.length ≤ limit) (before : cursor.Before (setLexemes ++ rest))
    (avoids : Avoids selectionMarks rest) :
    Succeeds (optionalSet readSet) cursor fun found next =>
      found.map (SelectionSet.content id) = set ∧ next.Before rest := by
  rw [optionalSet, succeeds_kind]
  cases derived with
  | absent =>
      rw [if_neg (before.avoids avoids (by decide))]
      exact succeeds_pure ⟨rfl, before⟩
  | @present inner _ derived =>
      have opened : cursor.current.kind = .punctuator .braceOpen := by
        cases derived
        rw [Lexeme.enclosed_append] at before
        exact before.kind_eq
      rw [if_pos opened]
      apply succeeds_map
      apply (sets inner _ derived short cursor rest before (Lexeme.avoids_none rest)).imp
      rintro found next ⟨same, after⟩
      exact ⟨by rw [Option.map_some, same], after⟩

/-- What stands after the name of a field can be read. Every part of it may be missing, so each has
to end where one of the later ones may start. -/
theorem succeeds_fieldRest
    (sets : ReadsWithin limit readSet SelectionSet.DerivedFrom (SelectionSet.content id) [])
    (argumentsDerived : Parenthesized Argument.DerivedFrom arguments argumentLexemes)
    (many : Many Directive.DerivedFrom directives directiveLexemes)
    (setDerived : Optional SelectionSet.DerivedFrom set setLexemes)
    (short : setLexemes.length ≤ limit)
    (before : cursor.Before (argumentLexemes ++ (directiveLexemes ++ (setLexemes ++ rest))))
    (avoids : Avoids selectionMarks rest) (start : Nat) {foundAlias : Option Name}
    {foundName : Name} {aliasName : Option Name} {name : Name}
    (sameAlias : foundAlias.map Name.content = aliasName) (sameName : foundName.content = name) :
    Succeeds (fieldRest readSet start foundAlias foundName) cursor fun found next =>
      found.content id = .field aliasName name arguments directives set (.empty 0) ∧
        next.Before rest := by
  have afterDirectives : Avoids directiveMarks (setLexemes ++ rest) :=
    ((SelectionSet.startWith_optional setDerived).avoids (by decide)).append
      (avoids.mono (by decide))
  have afterArguments : Avoids [.parenOpen] (directiveLexemes ++ (setLexemes ++ rest)) :=
    ((Directive.startWith_many many).avoids (by decide)).append
      (afterDirectives.mono (by decide))
  apply succeeds_bind (reads_arguments argumentsDerived cursor _ before afterArguments)
  rintro foundArguments directivesCursor ⟨sameArguments, directivesBefore⟩
  apply succeeds_bind (reads_directives many _ _ directivesBefore afterDirectives)
  rintro foundDirectives setCursor ⟨sameDirectives, setBefore⟩
  apply succeeds_bind (succeeds_optionalSet sets setDerived short setBefore avoids)
  rintro foundSet last ⟨sameSet, ends⟩
  rw [succeeds_spanFrom]
  refine succeeds_pure ⟨?_, ends⟩
  rw [Selection.content_field, sameAlias, sameName, sameArguments, sameDirectives, sameSet]

/-- A field can be read with and without an alias; a name that no colon follows is none. -/
theorem reads_fieldSelection
    (sets : ReadsWithin limit readSet SelectionSet.DerivedFrom (SelectionSet.content id) [])
    {aliasName : Option Name} {aliasLexemes : List Lexeme}
    (aliasDerived : Optional Name.AliasDerivedFrom aliasName aliasLexemes) (text : String)
    (argumentsDerived : Parenthesized Argument.DerivedFrom arguments argumentLexemes)
    (many : Many Directive.DerivedFrom directives directiveLexemes)
    (setDerived : Optional SelectionSet.DerivedFrom set setLexemes)
    (short : setLexemes.length ≤ limit) :
    Reads (fieldSelection readSet)
      (aliasLexemes ++ .word text :: (argumentLexemes ++ (directiveLexemes ++ setLexemes)))
      selectionMarks fun found =>
        found.content id =
          .field aliasName (.ofWord text) arguments directives set (.empty 0) := by
  intro cursor rest before avoids
  rw [fieldSelection_eq, succeeds_startOffset]
  cases aliasDerived with
  | absent =>
      simp only [List.nil_append, List.cons_append, List.append_assoc] at before
      apply succeeds_bind (succeeds_word before)
      rintro foundName next ⟨sameName, after⟩
      have noColon : Avoids [.colon]
          (argumentLexemes ++ (directiveLexemes ++ (setLexemes ++ rest))) :=
        (argumentsDerived.startWith.avoids (by decide)).append
          (((Directive.startWith_many many).avoids (by decide)).append
            (((SelectionSet.startWith_optional setDerived).avoids (by decide)).append
              (avoids.mono (by decide))))
      apply succeeds_bind (succeeds_eat_other (after.avoids noColon (by decide)))
      rintro _ _ ⟨rfl, rfl⟩
      exact succeeds_fieldRest sets argumentsDerived many setDerived short after avoids _ rfl
        sameName
  | present aliasDerived =>
      cases aliasDerived with
      | word aliasText =>
          simp only [List.nil_append, List.cons_append, List.append_assoc] at before
          apply succeeds_bind (succeeds_word before)
          rintro foundAlias next ⟨sameAlias, after⟩
          apply succeeds_bind (succeeds_eat after rfl)
          rintro _ nameCursor ⟨rfl, nameBefore⟩
          apply succeeds_bind (succeeds_word nameBefore)
          rintro foundName last ⟨sameName, ends⟩
          exact succeeds_fieldRest sets argumentsDerived many setDerived short ends avoids _
            (by rw [Option.map_some, sameAlias]) sameName

theorem succeeds_spread {text : String} (noCondition : text ≠ "on")
    (many : Many Directive.DerivedFrom directives directiveLexemes)
    (before : cursor.Before (.word text :: (directiveLexemes ++ rest)))
    (avoids : Avoids selectionMarks rest) (start : Nat) :
    Succeeds (afterSpread readSet start) cursor fun found next =>
      found.content id = .spread (.ofWord text) directives (.empty 0) ∧ next.Before rest := by
  have isFragment : cursor.current.kind.isName = true ∧ cursor.current.kind ≠ .keyword .on := by
    have kind : cursor.current.kind = Lexeme.wordKind text := before.kind_eq
    refine ⟨kind ▸ Lexeme.word_isName text, fun same => noCondition ?_⟩
    exact (Lexeme.text_of_wordKind (kind.symm.trans same)).symm
  rw [afterSpread, succeeds_kind, if_pos isFragment]
  apply succeeds_bind (succeeds_word before)
  rintro foundName next ⟨sameName, after⟩
  apply succeeds_bind (reads_directives many next rest after (avoids.mono (by decide)))
  rintro foundDirectives last ⟨sameDirectives, ends⟩
  rw [succeeds_spanFrom]
  exact succeeds_pure ⟨by simp only [Selection.content, sameName, sameDirectives], ends⟩

/-- A type condition is read if there is one, before everything but a word. -/
theorem succeeds_optionalCondition {condition : Option Name} {lexemes : List Lexeme}
    (derived : Optional (After (.word "on") Name.DerivedFrom) condition lexemes)
    (before : cursor.Before (lexemes ++ rest)) (noWord : NoWord rest) :
    ¬ (cursor.current.kind.isName = true ∧ cursor.current.kind ≠ .keyword .on) ∧
      Succeeds optionalCondition cursor fun found next =>
        found.map Name.content = condition ∧ next.Before rest := by
  cases derived with
  | absent =>
      have notNamed : cursor.current.kind.isName = false := before.not_isName noWord
      have notOn : cursor.current.kind ≠ .keyword .on := by
        intro same
        rw [same] at notNamed
        cases notNamed
      refine ⟨by simp [notNamed], ?_⟩
      apply succeeds_bind (succeeds_eat_other notOn)
      rintro _ _ ⟨rfl, rfl⟩
      exact succeeds_pure ⟨rfl, before⟩
  | present after =>
      rcases after with ⟨⟨text⟩⟩
      have on : cursor.current.kind = .keyword .on :=
        before.kind_eq.trans (Lexeme.wordKind_keyword .on)
      refine ⟨fun named => named.2 on, ?_⟩
      apply succeeds_bind (succeeds_eat before (Lexeme.wordKind_keyword .on))
      rintro _ next ⟨rfl, after⟩
      rw [if_pos rfl]
      apply succeeds_map
      apply (succeeds_word after).imp
      rintro found last ⟨same, ends⟩
      exact ⟨by rw [Option.map_some, same], ends⟩

/-- An inline fragment can be read. Its directives and its set start with punctuators, so no word
follows a missing condition. -/
theorem succeeds_inline
    (sets : ReadsWithin limit readSet SelectionSet.DerivedFrom (SelectionSet.content id) [])
    {condition : Option Name} {conditionLexemes : List Lexeme} {inner : SelectionSet}
    (conditionDerived :
      Optional (After (.word "on") Name.DerivedFrom) condition conditionLexemes)
    (many : Many Directive.DerivedFrom directives directiveLexemes)
    (setDerived : inner.DerivedFrom setLexemes) (short : setLexemes.length ≤ limit)
    (before : cursor.Before (conditionLexemes ++ (directiveLexemes ++ (setLexemes ++ rest))))
    (start : Nat) :
    Succeeds (afterSpread readSet start) cursor fun found next =>
      found.content id = .inline condition directives inner (.empty 0) ∧ next.Before rest := by
  have opens := setDerived.startWith rest
  have noWord : NoWord (directiveLexemes ++ (setLexemes ++ rest)) :=
    (Directive.startWith_many many).noWord.append opens.noWord
  rcases succeeds_optionalCondition conditionDerived before noWord with ⟨noFragment, conditionRead⟩
  rw [afterSpread, succeeds_kind, if_neg noFragment]
  apply succeeds_bind conditionRead
  rintro foundCondition next ⟨sameCondition, after⟩
  apply succeeds_bind (reads_directives many next _ after (opens.avoids (by decide)))
  rintro foundDirectives setCursor ⟨sameDirectives, setBefore⟩
  apply succeeds_bind
    (sets inner _ setDerived short setCursor rest setBefore (Lexeme.avoids_none rest))
  rintro foundSet last ⟨sameSet, ends⟩
  rw [succeeds_spanFrom]
  refine succeeds_pure ⟨?_, ends⟩
  simp only [Selection.content, sameCondition, sameDirectives, sameSet]

/-- Selections are read if the sets in them are. -/
theorem readsWithin_selection
    (sets : ReadsWithin limit readSet SelectionSet.DerivedFrom (SelectionSet.content id) []) :
    ReadsWithin limit (selection readSet) Selection.DerivedFrom (Selection.content id)
      selectionMarks := by
  intro selected lexemes derived short cursor rest before avoids
  rw [selection_eq, succeeds_startOffset]
  cases derived with
  | @field _ _ text _ argumentLexemes _ directiveLexemes _ setLexemes aliasDerived
      argumentsDerived many setDerived =>
      simp only [List.length_append, List.length_cons] at short
      have noSpread : cursor.current.kind ≠ .punctuator .spread := by
        have starts := Name.avoids_alias aliasDerived [.spread] text
          (argumentLexemes ++ (directiveLexemes ++ setLexemes) ++ rest)
        rw [← List.cons_append, ← List.append_assoc] at starts
        exact before.avoids starts (by decide)
      apply succeeds_bind (succeeds_eat_other noSpread)
      rintro _ next ⟨rfl, rfl⟩
      exact reads_fieldSelection sets aliasDerived text argumentsDerived many setDerived
        (by omega) next rest before avoids
  | spread noCondition many =>
      apply succeeds_bind (succeeds_eat before rfl)
      rintro _ next ⟨rfl, after⟩
      exact succeeds_spread noCondition many after avoids _
  | inline conditionDerived many setDerived =>
      simp only [List.length_append, List.length_cons] at short
      simp only [List.cons_append, List.append_assoc] at before
      apply succeeds_bind (succeeds_eat before rfl)
      rintro _ next ⟨rfl, after⟩
      exact succeeds_inline sets conditionDerived many setDerived (by omega) after _

/-- A selection set can be read under a bound for the number of its lexemes. -/
theorem readsWithin_selectionSetUpTo (bound : Nat) :
    ReadsWithin bound (selectionSetUpTo bound) SelectionSet.DerivedFrom (SelectionSet.content id)
      [] := by
  induction bound with
  | zero => exact readsWithin_zero fun _ _ => SelectionSet.DerivedFrom.ne_nil
  | succ bound ih =>
      intro set lexemes derived enough cursor rest before _
      cases derived with
      | @mk selections inside many =>
          rw [Lexeme.length_enclosed] at enough
          rw [Lexeme.enclosed_append] at before
          have listed : Listed (selection (selectionSetUpTo bound)) Selection.DerivedFrom
              (Selection.content id) bound selectionMarks .braceClose :=
            ⟨readsWithin_selection ih, fun _ _ => Selection.DerivedFrom.ne_nil,
              fun _ _ derived => derived.avoids (by decide), by decide⟩
          rw [selectionSetUpTo, succeeds_startOffset]
          apply succeeds_bind (succeeds_expect before rfl)
          intro _ opened insideBefore
          apply succeeds_spannedItems listed many (by omega) insideBefore
          intro found span same
          simp only [SelectionSet.content, Selection.contentEach_eq_map, same]

theorem reads_selectionSet {set : SelectionSet} {lexemes : List Lexeme}
    (derived : set.DerivedFrom lexemes) :
    Reads selectionSet lexemes [] fun found => found.content id = set :=
  reads_bounded readsWithin_selectionSetUpTo derived

end Selections

section Definitions

/-- The punctuators that go on with a variable of an operation. -/
def variableMarks : List Punctuator := [.bang, .equals, .at, .parenOpen]

theorem succeeds_optionalDefault {default : Option Value} {lexemes : List Lexeme}
    (derived : Optional (After (.mark .equals) Value.DerivedFrom) default lexemes)
    (before : cursor.Before (lexemes ++ rest)) (avoids : Avoids [.equals] rest) :
    Succeeds optionalDefault cursor fun found next =>
      found.map (Value.content id) = default ∧ next.Before rest := by
  cases derived with
  | absent =>
      apply succeeds_bind (succeeds_eat_other (before.avoids avoids (by decide)))
      rintro _ _ ⟨rfl, rfl⟩
      exact succeeds_pure ⟨rfl, before⟩
  | present after =>
      rcases after with ⟨derived⟩
      apply succeeds_bind (succeeds_eat before rfl)
      rintro _ next ⟨rfl, after⟩
      rw [if_pos rfl]
      apply succeeds_map
      apply (reads_value derived next rest after (Lexeme.avoids_none rest)).imp
      rintro found last ⟨same, ends⟩
      exact ⟨by rw [Option.map_some, same], ends⟩

theorem reads_variableDefinition {definition : VariableDefinition} {lexemes : List Lexeme}
    (derived : definition.DerivedFrom lexemes) :
    Reads variableDefinition lexemes variableMarks fun found =>
      found.content id = definition := by
  intro cursor rest before avoids
  cases derived with
  | @mk text type typeLexemes default defaultLexemes directives directiveLexemes typeDerived
      defaultDerived many =>
      simp only [List.cons_append, List.append_assoc] at before
      have afterDefault : Avoids [.equals] (directiveLexemes ++ rest) :=
        ((Directive.startWith_many many).avoids (by decide)).append (avoids.mono (by decide))
      have afterType : Avoids [.bang] (defaultLexemes ++ (directiveLexemes ++ rest)) :=
        (defaultDerived.startWith.avoids (by decide)).append
          (((Directive.startWith_many many).avoids (by decide)).append (avoids.mono (by decide)))
      rw [variableDefinition_eq, succeeds_startOffset]
      apply succeeds_bind (succeeds_expect before rfl)
      intro _ nameCursor nameBefore
      apply succeeds_bind (succeeds_word nameBefore)
      rintro foundName colonCursor ⟨sameName, colonBefore⟩
      apply succeeds_bind (succeeds_expect colonBefore rfl)
      intro _ typeCursor typeBefore
      apply succeeds_bind (reads_type typeDerived typeCursor _ typeBefore afterType)
      rintro foundType defaultCursor ⟨sameType, defaultBefore⟩
      apply succeeds_bind (succeeds_optionalDefault defaultDerived defaultBefore afterDefault)
      rintro foundDefault directivesCursor ⟨sameDefault, directivesBefore⟩
      apply succeeds_bind (reads_directives many _ rest directivesBefore
        (avoids.mono (by decide)))
      rintro foundDirectives last ⟨sameDirectives, ends⟩
      rw [succeeds_spanFrom]
      refine succeeds_pure ⟨?_, ends⟩
      simp only [VariableDefinition.content, sameName, sameType, sameDefault, sameDirectives]

theorem reads_variableDefinitions {definitions : List VariableDefinition} {lexemes : List Lexeme}
    (derived : Parenthesized VariableDefinition.DerivedFrom definitions lexemes) :
    Reads (enclosedItems .parenOpen .parenClose variableDefinition) lexemes [.parenOpen]
      fun found => found.map (VariableDefinition.content id) = definitions := by
  have listed : ∀ limit, Listed variableDefinition VariableDefinition.DerivedFrom
      (VariableDefinition.content id) limit variableMarks .parenClose := by
    intro limit
    refine ⟨fun _ _ derived _ => reads_variableDefinition derived, ?_, ?_, by decide⟩
    · rintro _ _ ⟨⟩
      exact List.cons_ne_nil _ _
    · rintro _ _ ⟨⟩
      exact Lexeme.avoids_mark _ (by decide)
  exact reads_parenthesized listed derived

theorem succeeds_optionalName {name : Option Name} {lexemes : List Lexeme}
    (derived : Optional Name.DerivedFrom name lexemes) (before : cursor.Before (lexemes ++ rest))
    (noWord : NoWord rest) :
    Succeeds optionalName cursor fun found next =>
      found.map Name.content = name ∧ next.Before rest := by
  rw [optionalName, succeeds_kind]
  cases derived with
  | absent =>
      have notNamed : cursor.current.kind.isName = false := before.not_isName noWord
      rw [notNamed]
      exact succeeds_pure ⟨rfl, before⟩
  | present derived =>
      rcases derived with ⟨text⟩
      have isName : cursor.current.kind.isName = true := by
        rw [Cursor.Before.kind_eq before]
        exact Lexeme.word_isName text
      rw [if_pos isName]
      apply succeeds_map
      apply (succeeds_word before).imp
      rintro found last ⟨same, ends⟩
      exact ⟨by rw [Option.map_some, same], ends⟩

variable {directives : List Directive} {directiveLexemes : List Lexeme} {set : SelectionSet}
  {setLexemes : List Lexeme}

theorem reads_namedOperation (operation : OperationType) {name : Option Name}
    {nameLexemes : List Lexeme} {declared : List VariableDefinition}
    {variableLexemes : List Lexeme} (nameDerived : Optional Name.DerivedFrom name nameLexemes)
    (variablesDerived : Parenthesized VariableDefinition.DerivedFrom declared variableLexemes)
    (many : Many Directive.DerivedFrom directives directiveLexemes)
    (setDerived : set.DerivedFrom setLexemes) :
    Reads (namedOperation operation)
      (.word operation.text ::
        (nameLexemes ++ (variableLexemes ++ (directiveLexemes ++ setLexemes)))) []
      fun found =>
        found.content id = ⟨operation, name, declared, directives, set, .empty 0⟩ := by
  intro cursor rest before _
  simp only [List.cons_append, List.append_assoc] at before
  have opens := setDerived.startWith rest
  have noVariable : Avoids [.parenOpen] (directiveLexemes ++ (setLexemes ++ rest)) :=
    ((Directive.startWith_many many).avoids (by decide)).append (opens.avoids (by decide))
  have noName : NoWord (variableLexemes ++ (directiveLexemes ++ (setLexemes ++ rest))) :=
    variablesDerived.startWith.noWord.append
      ((Directive.startWith_many many).noWord.append opens.noWord)
  rw [namedOperation_eq, succeeds_startOffset]
  apply succeeds_bind (succeeds_advance before)
  intro _ nameCursor nameBefore
  apply succeeds_bind (succeeds_optionalName nameDerived nameBefore noName)
  rintro foundName variablesCursor ⟨sameName, variablesBefore⟩
  apply succeeds_bind (reads_variableDefinitions variablesDerived _ _ variablesBefore noVariable)
  rintro foundVariables directivesCursor ⟨sameVariables, directivesBefore⟩
  apply succeeds_bind (reads_directives many _ _ directivesBefore (opens.avoids (by decide)))
  rintro foundDirectives setCursor ⟨sameDirectives, setBefore⟩
  apply succeeds_bind (reads_selectionSet setDerived _ rest setBefore (Lexeme.avoids_none rest))
  rintro foundSet last ⟨sameSet, ends⟩
  rw [succeeds_spanFrom]
  refine succeeds_pure ⟨?_, ends⟩
  simp only [OperationDefinition.content, sameName, sameVariables, sameDirectives, sameSet]

theorem reads_shorthandQuery (setDerived : set.DerivedFrom setLexemes) :
    Reads shorthandQuery setLexemes [] fun found =>
      found.content id = ⟨.query, none, [], [], set, .empty 0⟩ := by
  intro cursor rest before avoids
  rw [shorthandQuery, succeeds_startOffset]
  apply succeeds_bind (reads_selectionSet setDerived cursor rest before avoids)
  rintro foundSet last ⟨sameSet, ends⟩
  rw [succeeds_spanFrom]
  refine succeeds_pure ⟨?_, ends⟩
  simp only [OperationDefinition.content, sameSet, Option.map_none, List.map_nil]

theorem reads_fragmentDefinition {definition : FragmentDefinition} {lexemes : List Lexeme}
    (derived : definition.DerivedFrom lexemes) :
    Reads fragmentDefinition lexemes [] fun found => found.content id = definition := by
  intro cursor rest before _
  cases derived with
  | @mk text condition directives directiveLexemes set setLexemes noCondition many setDerived =>
      simp only [List.cons_append, List.append_assoc] at before
      rw [fragmentDefinition, succeeds_startOffset]
      apply succeeds_bind (succeeds_expect before (Lexeme.wordKind_keyword .fragment))
      intro _ nameCursor nameBefore
      have notOn : nameCursor.current.kind ≠ .keyword .on := by
        intro same
        exact noCondition (Lexeme.text_of_wordKind (nameBefore.kind_eq.symm.trans same)).symm
      rw [succeeds_kind, if_neg notOn]
      apply succeeds_bind (succeeds_word nameBefore)
      rintro foundName onCursor ⟨sameName, onBefore⟩
      apply succeeds_bind (succeeds_expect onBefore (Lexeme.wordKind_keyword .on))
      intro _ conditionCursor conditionBefore
      apply succeeds_bind (succeeds_word conditionBefore)
      rintro foundCondition directivesCursor ⟨sameCondition, directivesBefore⟩
      apply succeeds_bind (reads_directives many _ _ directivesBefore
        ((setDerived.startWith rest).avoids (by decide)))
      rintro foundDirectives setCursor ⟨sameDirectives, setBefore⟩
      apply succeeds_bind
        (reads_selectionSet setDerived _ rest setBefore (Lexeme.avoids_none rest))
      rintro foundSet last ⟨sameSet, ends⟩
      rw [succeeds_spanFrom]
      refine succeeds_pure ⟨?_, ends⟩
      simp only [FragmentDefinition.content, sameName, sameCondition, sameDirectives, sameSet]

/-- A definition is read by what its first lexeme says that it is. -/
theorem reads_describedDefinition (description : Option Description) {definition : Definition}
    {lexemes : List Lexeme} (derived : definition.DerivedFrom lexemes) :
    Reads (describedDefinition description) lexemes [] fun found =>
      found.content id = definition := by
  intro cursor rest before avoids
  rw [describedDefinition, succeeds_kind]
  cases derived with
  | operation derived =>
      cases derived with
      | shorthand derived =>
          have kind : cursor.current.kind = .punctuator .braceOpen := by
            cases derived
            rw [Lexeme.enclosed_append] at before
            exact before.kind_eq
          rw [kind]
          apply succeeds_map
          apply (reads_shorthandQuery derived cursor rest before avoids).imp
          rintro found last ⟨same, ends⟩
          exact ⟨by simp only [Definition.content, same], ends⟩
      | @named operation name _ declared _ directives _ set _ nameDerived variablesDerived many
          setDerived =>
          have read : Succeeds (namedOperation operation) cursor fun found next =>
              (Definition.operation found).content id =
                .operation ⟨operation, name, declared, directives, set, .empty 0⟩ ∧
                  next.Before rest := by
            apply (reads_namedOperation operation nameDerived variablesDerived many setDerived
              cursor rest before avoids).imp
            rintro found last ⟨same, ends⟩
            exact ⟨congrArg Definition.operation same, ends⟩
          cases operation with
          | query =>
              rw [before.kind_eq.trans (Lexeme.wordKind_keyword .query)]
              exact succeeds_map read
          | mutation =>
              rw [before.kind_eq.trans (Lexeme.wordKind_keyword .mutation)]
              exact succeeds_map read
          | subscription =>
              rw [before.kind_eq.trans (Lexeme.wordKind_keyword .subscription)]
              exact succeeds_map read
  | fragment derived =>
      have kind : cursor.current.kind = .keyword .fragment := by
        cases derived
        exact before.kind_eq.trans (Lexeme.wordKind_keyword .fragment)
      rw [kind]
      apply succeeds_map
      apply (reads_fragmentDefinition derived cursor rest before avoids).imp
      rintro found last ⟨same, ends⟩
      exact ⟨by simp only [Definition.content, same], ends⟩

/-- Nothing but a string is a description. -/
theorem succeeds_noDescription
    (other : cursor.current.kind ≠ .string ∧ cursor.current.kind ≠ .blockString) :
    Succeeds description cursor fun found next => found = none ∧ next = cursor := by
  rw [description, succeeds_current]
  split
  · next isString => exact absurd isString other.1
  · next isBlock => exact absurd isBlock other.2
  · exact succeeds_pure ⟨rfl, rfl⟩

/-- An executable definition can be read whatever follows. -/
theorem reads_definition {written : Definition} {lexemes : List Lexeme}
    (derived : written.DescribedFrom lexemes) :
    Reads definition lexemes [] fun found => found.content id = written := by
  intro cursor rest before avoids
  rw [definition_eq]
  cases derived with
  | plain derived =>
      have other : cursor.current.kind ≠ .string ∧ cursor.current.kind ≠ .blockString := by
        rcases derived.head with ⟨first, others, rfl, other⟩
        rw [before.kind_eq]
        exact other
      apply succeeds_bind (succeeds_noDescription other)
      rintro _ next ⟨rfl, rfl⟩
      exact reads_describedDefinition none derived next rest before avoids
  | @described text decoded _ lexemes decodes derived =>
      have tokenDecodes : Quoted.decodeToken? cursor.current.text.toList = some decoded := by
        rw [before.text_eq]
        exact decodes
      rw [description, bind_assoc, succeeds_current, before.kind_eq]
      simp only [bind_assoc, pure_bind]
      apply succeeds_bind (succeeds_quotedText tokenDecodes)
      rintro _ _ ⟨rfl, rfl⟩
      apply succeeds_bind (succeeds_advance before)
      intro _ next after
      exact reads_describedDefinition _ derived next rest after avoids

/-- Executable definitions can be read one after the other to the end of the document. -/
theorem definitionsUpTo_eq {definitions : List Definition} {lexemes : List Lexeme}
    (derived : Document.DerivedFrom definitions lexemes) {bound : Nat}
    (before : cursor.Before lexemes) (enough : lexemes.length ≤ bound) :
    ∃ found last, definitionsUpTo bound cursor = (found, .ok last) ∧
      found.map (Definition.content id) = definitions := by
  rw [Document.DerivedFrom] at derived
  induction derived generalizing cursor bound with
  | nil =>
      cases bound with
      | zero => exact ⟨[], cursor, rfl, rfl⟩
      | succ bound => exact ⟨[], cursor, by rw [definitionsUpTo, if_pos before.kind_of_nil], rfl⟩
  | @cons written others lexemes later derived many ih =>
      rcases shown : lexemes with - | ⟨first, more⟩
      · exact absurd shown derived.ne_nil
      have goesOn : cursor.current.kind ≠ .endOfInput := by
        rw [shown] at before
        rw [before.kind_eq]
        exact (before.valid first (by simp)).2
      rcases reads_definition derived cursor _ before (Lexeme.avoids_none _) with
        ⟨found, next, read, same, after⟩
      rw [List.length_append, shown, List.length_cons] at enough
      rcases bound with - | bound
      · omega
      have shorter : later.length ≤ bound := by omega
      rcases ih after shorter with ⟨founds, last, reads, sames⟩
      refine ⟨found :: founds, last, ?_, by rw [List.map_cons, same, sames]⟩
      rw [definitionsUpTo, if_neg goesOn, read]
      simp only [reads]

end Definitions

end Reading

namespace Document

open Reading

variable {source : List Char} {definitions : List Definition}

/-- A source is read without a fault if its definitions can be read up to its end. -/
theorem parse_of_definitionsUpTo {Good : List Definition → Prop}
    (valid : ∀ lexeme ∈ Scan.lexemes source, lexeme.IsValid)
    (reads : ∀ {cursor : Cursor} {bound : Nat}, cursor.Before (Scan.lexemes source) →
      (Scan.lexemes source).length ≤ bound →
        ∃ found last, definitionsUpTo bound cursor = (found, .ok last) ∧ Good found) :
    ∃ found span, parse source = .ok ⟨⟨found, span⟩, none⟩ ∧ Good found := by
  have before : (startCursor source).Before (Scan.lexemes source) := ⟨rfl, valid⟩
  have enough : (Scan.lexemes source).length ≤ (startCursor source).ahead.length := by
    rw [Scan.lexemes, List.length_map]
    exact Nat.le_refl _
  rcases reads before enough with ⟨found, last, reads, good⟩
  have outcome : readDefinitions source = (found, .ok last) := by
    rw [readDefinitions, before.check_eq]
    exact reads
  have parsed : ∃ span, parse source = .ok ⟨⟨found, span⟩, none⟩ := by
    rw [parse, outcome]
    exact ⟨_, rfl⟩
  rcases parsed with ⟨span, parsed⟩
  exact ⟨found, span, parsed, good⟩

/-- A source whose lexemes are those of executable definitions is read as a document of them. -/
theorem parse_of_derivedFrom (valid : ∀ lexeme ∈ Scan.lexemes source, lexeme.IsValid)
    (derived : Document.DerivedFrom definitions (Scan.lexemes source)) :
    ∃ found span, parse source = .ok ⟨⟨found, span⟩, none⟩ ∧
      found.map (Definition.content id) = definitions :=
  parse_of_definitionsUpTo valid fun before enough => definitionsUpTo_eq derived before enough

/-- A text that spells executable definitions is read as a document of these definitions. -/
theorem parse_of_spells
    (wellFormed : ∀ written ∈ definitions, written.WellFormed False)
    (spells : Scan.Spells source (definitions.map Definition.lexemes).flatten) :
    ∃ found span, parse source = .ok ⟨⟨found, span⟩, none⟩ ∧
      found.map (Definition.content id) = definitions.map (Definition.content id) := by
  have lexemes : Scan.lexemes source = (definitions.map Definition.lexemes).flatten :=
    spells.lexemes_eq
  apply parse_of_derivedFrom
  · rw [lexemes]
    exact spells.valid
  · rw [lexemes]
    exact derivedFrom_lexemes wellFormed

end Document

end WiredGraph
