import WiredGraph.Proofs.Document.Content
import WiredGraph.Proofs.Document.Parser.Parts
import WiredGraph.Proofs.SameOutcome
import WiredGraph.Proofs.Token.Lexeme

/-!
# Reading the same lexemes twice

What is read depends on the lexemes of a source and not on where they stand: offsets and spans end
up in the parts that are read, but no decision is made on them. Two readings agree if, started
before the same lexemes, they pass the same lexemes and yield parts that are the same up to spans,
or stop for the same reason.
-/

namespace WiredGraph

/-- A finding without the places that it points at. -/
def Diagnostic.content (diagnostic : Diagnostic) : Diagnostic :=
  { diagnostic with labels := diagnostic.labels.map fun label => ⟨.empty 0, label.message⟩ }

/-- Why reading stopped: a finding, or none for a block string without a value. -/
def Halt.reason? : Halt → Option Diagnostic
  | .fault diagnostic _ => some diagnostic.content
  | .misalignedBlock _ => none

/-- Two readings stop for the same reason. -/
def Halt.SameReason (halt other : Halt) : Prop := halt.reason? = other.reason?

/-- Two cursors stand before the same lexemes. -/
def Cursor.SameAhead (cursor other : Cursor) : Prop :=
  cursor.ahead.map Token.lexeme = other.ahead.map Token.lexeme

namespace Cursor.SameAhead

variable {cursor other : Cursor}

theorem current (same : cursor.SameAhead other) : cursor.current.lexeme = other.current.lexeme := by
  rcases cursor with ⟨passed, - | ⟨token, ahead⟩, finish⟩
  · rw [SameAhead, List.map_nil, eq_comm, List.map_eq_nil_iff] at same
    simp [Cursor.current, same, Token.lexeme]
  · rcases other with ⟨otherPassed, - | ⟨otherToken, others⟩, otherFinish⟩
    · cases same
    · exact (List.cons.inj same).1

theorem kind (same : cursor.SameAhead other) : cursor.current.kind = other.current.kind :=
  congrArg Lexeme.kind same.current

theorem text (same : cursor.SameAhead other) : cursor.current.text = other.current.text :=
  congrArg Lexeme.text same.current

theorem length (same : cursor.SameAhead other) : cursor.ahead.length = other.ahead.length := by
  simpa using congrArg List.length same

theorem halt (same : cursor.SameAhead other) (code : DiagnosticCode) (title message : String) :
    (cursor.halt code title message).SameReason (other.halt code title message) := by
  simp only [Halt.SameReason, Cursor.halt, Halt.reason?, same.kind, Diagnostic.content,
    List.map_cons, List.map_nil]

theorem check (same : cursor.SameAhead other) :
    SameOutcome Halt.SameReason SameAhead cursor.check other.check := by
  simp only [Cursor.check, same.kind, same.text]
  split
  · split
    · exact .error (same.halt _ _ _)
    · exact .error (same.halt _ _ _)
  · exact .ok same

theorem next (same : cursor.SameAhead other) :
    SameOutcome Halt.SameReason SameAhead cursor.next other.next := by
  apply check
  have dropped := congrArg (List.drop 1) same
  rwa [← List.map_drop, ← List.map_drop] at dropped

end Cursor.SameAhead

namespace Reading

/-- Two readings that are started before the same lexemes pass the same lexemes and yield related
parts, or stop for the same reason. -/
def Agree {Part : Type} (read other : Reading Part) (Same : Part → Part → Prop) : Prop :=
  ∀ cursor otherCursor, cursor.SameAhead otherCursor →
    SameOutcome Halt.SameReason
      (fun found otherFound => Same found.1 otherFound.1 ∧ found.2.SameAhead otherFound.2)
      (read cursor) (other otherCursor)

/-- Two readings agree on what they pass, whatever the parts that they yield. -/
def InStep {Part : Type} (read other : Reading Part) : Prop := Agree read other fun _ _ => True

/-- The content of what is read does not depend on where the lexemes stand. -/
def Placeless {Part Content : Type} (read : Reading Part) (content : Part → Content) : Prop :=
  Agree read read fun part other => content part = content other

section Steps

variable {Part Whole : Type} {read other : Reading Part} {Between : Part → Part → Prop}
  {Same : Whole → Whole → Prop}

theorem Agree.bind {next otherNext : Part → Reading Whole} (first : Agree read other Between)
    (second : ∀ part otherPart, Between part otherPart →
      Agree (next part) (otherNext otherPart) Same) :
    Agree (read >>= next) (other >>= otherNext) Same := by
  intro cursor otherCursor same
  apply (first cursor otherCursor same).bind
  rintro ⟨part, after⟩ ⟨otherPart, otherAfter⟩ ⟨sameParts, sameAfter⟩
  exact second part otherPart sameParts after otherAfter sameAfter

theorem agree_pure {part otherPart : Part} (same : Between part otherPart) :
    Agree (pure part) (pure otherPart) Between :=
  fun _ _ sameAhead => .ok ⟨same, sameAhead⟩

theorem Agree.map {change otherChange : Part → Whole} (agree : Agree read other Between)
    (keeps : ∀ part otherPart, Between part otherPart →
      Same (change part) (otherChange otherPart)) :
    Agree (change <$> read) (otherChange <$> other) Same := by
  rw [map_eq_pure_bind, map_eq_pure_bind]
  exact agree.bind fun part otherPart same => agree_pure (keeps part otherPart same)

theorem Agree.imp {Weaker : Part → Part → Prop} (agree : Agree read other Between)
    (implies : ∀ part otherPart, Between part otherPart → Weaker part otherPart) :
    Agree read other Weaker := by
  intro cursor otherCursor same
  exact (agree cursor otherCursor same).imp fun _ _ found => ⟨implies _ _ found.1, found.2⟩

theorem Agree.inStep (agree : Agree read other Between) : InStep read other :=
  agree.imp fun _ _ _ => trivial

theorem agree_ite {condition : Prop} [Decidable condition] {first otherFirst second
    otherSecond : Reading Part} (whenTrue : condition → Agree first otherFirst Between)
    (whenFalse : ¬ condition → Agree second otherSecond Between) :
    Agree (if condition then first else second)
      (if condition then otherFirst else otherSecond) Between := by
  split
  · exact whenTrue ‹_›
  · exact whenFalse ‹_›

theorem agree_current : Agree current current fun token other => token.lexeme = other.lexeme :=
  fun _ _ same => .ok ⟨same.current, same⟩

theorem agree_kind : Agree kind kind Eq := fun _ _ same => .ok ⟨same.kind, same⟩

theorem inStep_startOffset : InStep startOffset startOffset :=
  fun _ _ same => .ok ⟨trivial, same⟩

theorem inStep_spanFrom (start otherStart : Nat) : InStep (spanFrom start) (spanFrom otherStart) :=
  fun _ _ same => .ok ⟨trivial, same⟩

theorem agree_advance : Agree advance advance Eq :=
  fun _ _ same => same.next.bind fun _ _ sameAfter => .ok ⟨rfl, sameAfter⟩

theorem agree_malformed (message : String) :
    Agree (malformed message) (malformed message) Between :=
  fun _ _ same => .error (same.halt _ _ _)

theorem agree_expected (wanted : String) : Agree (expected wanted) (expected wanted) Between := by
  intro cursor otherCursor same
  simp only [expected, same.kind]
  exact .error (same.halt _ _ _)

theorem agree_eat (wanted : TokenKind) : Agree (eat wanted) (eat wanted) Eq := by
  apply agree_kind.bind
  rintro kind _ rfl
  exact agree_ite (fun _ => agree_advance.bind fun _ _ _ => agree_pure rfl)
    fun _ => agree_pure rfl

theorem agree_expect (wanted : TokenKind) : Agree (expect wanted) (expect wanted) Eq := by
  apply agree_kind.bind
  rintro kind _ rfl
  exact agree_ite (fun _ => agree_advance) fun _ => agree_expected _

/-- The bound of a reading is the number of tokens ahead, which no offset goes into. -/
theorem agree_bounded {bounded otherBounded : Nat → Reading Part}
    (agree : ∀ bound, Agree (bounded bound) (otherBounded bound) Between) :
    Agree (Reading.bounded bounded) (Reading.bounded otherBounded) Between := by
  intro cursor otherCursor same
  rw [Reading.bounded, Reading.bounded, same.length]
  exact agree _ cursor otherCursor same

end Steps

section Lists

variable {Part : Type} {item other : Reading Part} {Same : Part → Part → Prop}

theorem agree_itemsUpTo (agree : Agree item other Same) (close : Punctuator) (bound : Nat) :
    Agree (itemsUpTo close item bound) (itemsUpTo close other bound) (List.Forall₂ Same) := by
  induction bound with
  | zero => exact agree_pure .nil
  | succ bound ih =>
      apply agree_kind.bind
      rintro kind _ rfl
      refine agree_ite (fun _ => agree_pure .nil) fun _ => ?_
      apply agree.bind
      intro first otherFirst same
      exact ih.bind fun _ _ rest => agree_pure (.cons same rest)

theorem agree_itemsUntil (agree : Agree item other Same) (close : Punctuator) :
    Agree (itemsUntil close item) (itemsUntil close other) (List.Forall₂ Same) := by
  apply (agree_bounded (agree_itemsUpTo agree close)).bind
  intro items others same
  exact (agree_expect _).bind fun _ _ _ => agree_pure same

theorem agree_spannedItems {Whole : Type} {whole otherWhole : List Part → Span → Whole}
    {SameWhole : Whole → Whole → Prop} (agree : Agree item other Same) (close : Punctuator)
    (start otherStart : Nat)
    (same : ∀ parts others span otherSpan, List.Forall₂ Same parts others →
      SameWhole (whole parts span) (otherWhole others otherSpan)) :
    Agree (spannedItems close item whole start) (spannedItems close other otherWhole otherStart)
      SameWhole := by
  apply (agree_itemsUntil agree close).bind
  intro parts others each
  exact (inStep_spanFrom _ _).bind fun span otherSpan _ =>
    agree_pure (same parts others span otherSpan each)

theorem agree_enclosedItems (agree : Agree item other Same) (openMark close : Punctuator) :
    Agree (enclosedItems openMark close item) (enclosedItems openMark close other)
      (List.Forall₂ Same) := by
  apply (agree_eat _).bind
  rintro eaten _ rfl
  exact agree_ite (fun _ => agree_itemsUntil agree close) fun _ => agree_pure .nil

theorem agree_separatedUpTo (agree : Agree item other Same) (separator : Punctuator)
    (bound : Nat) :
    Agree (separatedUpTo separator item bound) (separatedUpTo separator other bound)
      (List.Forall₂ Same) := by
  induction bound with
  | zero => exact agree_pure .nil
  | succ bound ih =>
      apply (agree_eat _).bind
      rintro eaten _ rfl
      refine agree_ite (fun _ => ?_) fun _ => agree_pure .nil
      apply agree.bind
      intro first otherFirst same
      exact ih.bind fun _ _ rest => agree_pure (.cons same rest)

theorem agree_separated (agree : Agree item other Same) (separator : Punctuator) :
    Agree (separated separator item) (separated separator other) (List.Forall₂ Same) := by
  have first : InStep (discard (eat (.punctuator separator)))
      (discard (eat (.punctuator separator))) := by
    rw [Functor.discard]
    exact (agree_eat _).map fun _ _ _ => trivial
  apply first.bind
  intro _ _ _
  apply agree.bind
  intro first otherFirst same
  exact (agree_bounded (agree_separatedUpTo agree separator)).bind fun _ _ rest =>
    agree_pure (.cons same rest)

theorem Placeless.spannedItems {Content Whole WholeContent : Type} {content : Part → Content}
    {whole : List Part → Span → Whole} {wholeContent : Whole → WholeContent}
    (placeless : Placeless item content) (close : Punctuator) (start otherStart : Nat)
    (same : ∀ parts others span otherSpan, parts.map content = others.map content →
      wholeContent (whole parts span) = wholeContent (whole others otherSpan)) :
    Agree (spannedItems close item whole start) (spannedItems close item whole otherStart)
      fun found other => wholeContent found = wholeContent other :=
  agree_spannedItems placeless close start otherStart fun parts others span otherSpan each =>
    same parts others span otherSpan (forall₂_same_image_iff.mp each)

theorem Placeless.enclosedItems {Content : Type} {content : Part → Content}
    (placeless : Placeless item content) (openMark close : Punctuator) :
    Placeless (enclosedItems openMark close item) (List.map content) :=
  (agree_enclosedItems placeless openMark close).imp fun _ _ => forall₂_same_image_iff.mp

end Lists

section Values

theorem placeless_name : Placeless name Name.content := by
  apply agree_current.bind
  rintro ⟨kind, text, span⟩ ⟨_, _, otherSpan⟩ same
  obtain ⟨rfl, rfl⟩ := Lexeme.mk.inj same
  refine agree_ite (fun _ => ?_) fun _ => agree_expected _
  exact agree_advance.bind fun _ _ _ => agree_pure rfl

theorem agree_quotedText (kind : TokenKind) (text : String) (span otherSpan : Span) :
    Agree (quotedText ⟨kind, text, span⟩) (quotedText ⟨kind, text, otherSpan⟩) Eq := by
  simp only [quotedText]
  split
  · exact agree_pure rfl
  · exact agree_malformed _

theorem agree_blockText (kind : TokenKind) (text : String) (span otherSpan : Span) :
    Agree (blockText ⟨kind, text, span⟩) (blockText ⟨kind, text, otherSpan⟩) Eq := by
  simp only [blockText]
  split
  · exact agree_pure rfl
  · exact fun _ _ _ => .error rfl

theorem agree_typeBase {bound : Nat} (placeless : Placeless (typeUpTo bound) TypeExpr.content)
    (start otherStart : Nat) :
    Agree (typeBase bound start) (typeBase bound otherStart) fun type other =>
      type.content = other.content := by
  apply (agree_eat _).bind
  rintro eaten _ rfl
  refine agree_ite (fun _ => ?_) fun _ => ?_
  · apply placeless.bind
    intro item other same
    apply (agree_expect _).bind
    intro _ _ _
    exact (inStep_spanFrom _ _).bind fun _ _ _ =>
      agree_pure (by rw [TypeExpr.content, TypeExpr.content, same])
  · exact placeless_name.bind fun _ _ same =>
      agree_pure (by rw [TypeExpr.content, TypeExpr.content, same])

theorem placeless_typeUpTo (bound : Nat) : Placeless (typeUpTo bound) TypeExpr.content := by
  induction bound with
  | zero => exact agree_expected _
  | succ bound ih =>
      rw [typeUpTo_succ]
      apply inStep_startOffset.bind
      intro start otherStart _
      apply (agree_typeBase ih start otherStart).bind
      intro base other same
      apply (agree_eat _).bind
      rintro eaten _ rfl
      refine agree_ite (fun _ => ?_) fun _ => agree_pure same
      exact (inStep_spanFrom _ _).bind fun _ _ _ =>
        agree_pure (by rw [TypeExpr.content, TypeExpr.content, same])

theorem placeless_type : Placeless type TypeExpr.content := agree_bounded placeless_typeUpTo

theorem placeless_objectField {read : Reading Value}
    (placeless : Placeless read (Value.content id)) :
    Placeless (objectField read) (ObjectField.content id) := by
  apply inStep_startOffset.bind
  intro _ _ _
  apply placeless_name.bind
  intro name otherName sameName
  apply (agree_expect _).bind
  intro _ _ _
  apply placeless.bind
  intro value other same
  exact (inStep_spanFrom _ _).bind fun _ _ _ =>
    agree_pure (by rw [ObjectField.content, ObjectField.content, sameName, same])

/-- The tokens in view differ in their spans only, so both readings of a value take the same
branch. -/
theorem placeless_valueUpTo (bound : Nat) : Placeless (valueUpTo bound) (Value.content id) := by
  induction bound with
  | zero => exact agree_expected _
  | succ bound ih =>
      apply agree_current.bind
      rintro ⟨kind, text, span⟩ ⟨_, _, otherSpan⟩ same
      obtain ⟨rfl, rfl⟩ := Lexeme.mk.inj same
      dsimp only
      split
      · exact agree_advance.bind fun _ _ _ => placeless_name.bind fun _ _ same =>
          agree_pure (by rw [Value.content, Value.content, same])
      · exact agree_advance.bind fun _ _ _ => agree_pure rfl
      · exact agree_advance.bind fun _ _ _ => agree_pure rfl
      · apply (agree_quotedText _ _ _ _).bind
        rintro text _ rfl
        exact agree_advance.bind fun _ _ _ => agree_pure rfl
      · apply (agree_blockText _ _ _ _).bind
        rintro text _ rfl
        exact agree_advance.bind fun _ _ _ => agree_pure rfl
      · exact agree_advance.bind fun _ _ _ => agree_pure rfl
      · exact agree_advance.bind fun _ _ _ => agree_pure rfl
      · exact agree_advance.bind fun _ _ _ => agree_pure rfl
      · apply agree_advance.bind
        intro _ _ _
        apply ih.spannedItems
        intro items others _ _ same
        simp only [Value.content, Value.contentEach_eq_map, same]
      · apply agree_advance.bind
        intro _ _ _
        apply (placeless_objectField ih).spannedItems
        intro fields others _ _ same
        simp only [Value.content, ObjectField.contentEach_eq_map, same]
      · refine agree_ite (fun _ => ?_) fun _ => agree_expected _
        exact placeless_name.bind fun _ _ same =>
          agree_pure (by rw [Value.content, Value.content, same])

theorem placeless_value : Placeless value (Value.content id) := agree_bounded placeless_valueUpTo

theorem placeless_argument : Placeless argument (Argument.content id) := by
  apply inStep_startOffset.bind
  intro _ _ _
  apply placeless_name.bind
  intro name otherName sameName
  apply (agree_expect _).bind
  intro _ _ _
  apply placeless_value.bind
  intro value other same
  exact (inStep_spanFrom _ _).bind fun _ _ _ =>
    agree_pure (by rw [Argument.content, Argument.content, sameName, same])

theorem placeless_arguments : Placeless arguments (List.map (Argument.content id)) :=
  placeless_argument.enclosedItems _ _

theorem placeless_directivesUpTo (bound : Nat) :
    Placeless (directivesUpTo bound) (List.map (Directive.content id)) := by
  induction bound with
  | zero => exact agree_pure rfl
  | succ bound ih =>
      apply inStep_startOffset.bind
      intro _ _ _
      apply (agree_eat _).bind
      rintro eaten _ rfl
      refine agree_ite (fun _ => ?_) fun _ => agree_pure rfl
      apply placeless_name.bind
      intro name otherName sameName
      apply placeless_arguments.bind
      intro arguments others same
      apply (inStep_spanFrom _ _).bind
      intro _ _ _
      apply ih.bind
      intro rest otherRest sameRest
      apply agree_pure
      rw [List.map_cons, List.map_cons, sameRest, Directive.content, Directive.content, sameName,
        same]

theorem placeless_directives : Placeless directives (List.map (Directive.content id)) :=
  agree_bounded placeless_directivesUpTo

end Values

section Selections

theorem placeless_optional {Part Content : Type} {read : Reading Part} {content : Part → Content}
    (placeless : Placeless read content) {condition : Prop} [Decidable condition] :
    Placeless (if condition then some <$> read else pure none) (Option.map content) := by
  refine agree_ite (fun _ => ?_) fun _ => agree_pure rfl
  exact placeless.map fun _ _ same => congrArg some same

theorem agree_fieldRest {set : Reading SelectionSet}
    (placeless : Placeless set (SelectionSet.content id)) (start otherStart : Nat)
    {aliasName otherAlias : Option Name}
    (sameAlias : aliasName.map Name.content = otherAlias.map Name.content) {name otherName : Name}
    (sameName : name.content = otherName.content) :
    Agree (fieldRest set start aliasName name) (fieldRest set otherStart otherAlias otherName)
      fun selection other => selection.content id = other.content id := by
  apply placeless_arguments.bind
  intro arguments otherArguments sameArguments
  apply placeless_directives.bind
  intro directives otherDirectives sameDirectives
  have optional : Placeless (optionalSet set) (Option.map (SelectionSet.content id)) := by
    apply agree_kind.bind
    rintro kind _ rfl
    exact placeless_optional placeless
  apply optional.bind
  intro found otherFound sameSet
  exact (inStep_spanFrom _ _).bind fun _ _ _ => agree_pure (by
    simp only [Selection.content_field, sameAlias, sameName, sameArguments, sameDirectives,
      sameSet])

theorem placeless_fieldSelection {set : Reading SelectionSet}
    (placeless : Placeless set (SelectionSet.content id)) :
    Placeless (fieldSelection set) (Selection.content id) := by
  rw [fieldSelection_eq]
  apply inStep_startOffset.bind
  intro start otherStart _
  apply placeless_name.bind
  intro first otherFirst same
  apply (agree_eat _).bind
  rintro eaten _ rfl
  refine agree_ite (fun _ => ?_) fun _ => ?_
  · apply placeless_name.bind
    intro name otherName sameName
    exact agree_fieldRest placeless _ _ (by rw [Option.map_some, Option.map_some, same]) sameName
  · exact agree_fieldRest placeless _ _ rfl same

theorem agree_afterSpread {set : Reading SelectionSet}
    (placeless : Placeless set (SelectionSet.content id)) (start otherStart : Nat) :
    Agree (afterSpread set start) (afterSpread set otherStart) fun selection other =>
      selection.content id = other.content id := by
  apply agree_kind.bind
  rintro kind _ rfl
  refine agree_ite (fun _ => ?_) fun _ => ?_
  · apply placeless_name.bind
    intro name otherName sameName
    apply placeless_directives.bind
    intro directives otherDirectives same
    exact (inStep_spanFrom _ _).bind fun _ _ _ =>
      agree_pure (by rw [Selection.content, Selection.content, sameName, same])
  · have optional : Placeless optionalCondition (Option.map Name.content) := by
      apply (agree_eat _).bind
      rintro eaten _ rfl
      exact placeless_optional placeless_name
    apply optional.bind
    intro condition otherCondition sameCondition
    apply placeless_directives.bind
    intro directives otherDirectives same
    apply placeless.bind
    intro found otherFound sameSet
    exact (inStep_spanFrom _ _).bind fun _ _ _ =>
      agree_pure (by rw [Selection.content, Selection.content, sameCondition, same, sameSet])

theorem placeless_selection {set : Reading SelectionSet}
    (placeless : Placeless set (SelectionSet.content id)) :
    Placeless (selection set) (Selection.content id) := by
  rw [selection_eq]
  apply inStep_startOffset.bind
  intro start otherStart _
  apply (agree_eat _).bind
  rintro eaten _ rfl
  exact agree_ite (fun _ => agree_afterSpread placeless start otherStart) fun _ =>
    placeless_fieldSelection placeless

theorem placeless_selectionSetUpTo (bound : Nat) :
    Placeless (selectionSetUpTo bound) (SelectionSet.content id) := by
  induction bound with
  | zero => exact agree_expected _
  | succ bound ih =>
      apply inStep_startOffset.bind
      intro _ _ _
      apply (agree_expect _).bind
      intro _ _ _
      apply (placeless_selection ih).spannedItems
      intro selections others _ _ same
      simp only [SelectionSet.content, Selection.contentEach_eq_map, same]

theorem placeless_selectionSet : Placeless selectionSet (SelectionSet.content id) :=
  agree_bounded placeless_selectionSetUpTo

end Selections

end Reading

end WiredGraph
