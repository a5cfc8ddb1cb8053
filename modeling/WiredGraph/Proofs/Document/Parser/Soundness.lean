import WiredGraph.Proofs.Document.Parser.Parts
import WiredGraph.Proofs.Document.TypeSystem.WellFormed

/-!
# What is read can be written

The definitions that are read from a source are well-formed, because names, numbers and words are
taken from tokens that have the characters of their kind. Every reading keeps the tokens ahead of
it genuine in this sense; each lemma adds what the reading yields.
-/

namespace WiredGraph

/-- A token that can have been scanned, and is no block string unless those are allowed. -/
structure Token.Genuine (blocks : Prop) (token : Token) : Prop where
  scanned : Scan.IsGenuine token.kind token.text
  block : token.kind = .blockString → blocks

/-- The tokens ahead of a cursor can have been scanned. -/
def Cursor.Genuine (blocks : Prop) (cursor : Cursor) : Prop :=
  ∀ token ∈ cursor.ahead, token.Genuine blocks

theorem Cursor.Genuine.current {blocks : Prop} {cursor : Cursor} (genuine : cursor.Genuine blocks) :
    cursor.current.Genuine blocks := by
  rcases cursor with ⟨passed, ahead, finish⟩
  cases ahead with
  | nil => exact ⟨Scan.isGenuine_of_other _ rfl ⟨nofun, nofun⟩, nofun⟩
  | cons token ahead => exact genuine token (by simp)

namespace Reading

variable {blocks : Prop} {Part Whole : Type} {cursor : Cursor}

/-- What a reading yields from a cursor is good, and the tokens that it leaves are genuine. -/
def KeepsFrom (blocks : Prop) (cursor : Cursor) (read : Reading Part) (Good : Part → Prop) :
    Prop :=
  ∀ part next, cursor.Genuine blocks → read cursor = .ok (part, next) →
    Good part ∧ next.Genuine blocks

/-- What a reading yields is good, and the tokens that it leaves are genuine. -/
def Keeps (blocks : Prop) (read : Reading Part) (Good : Part → Prop) : Prop :=
  ∀ cursor, KeepsFrom blocks cursor read Good

/-- The tokens that a reading leaves are genuine. -/
def Passes (blocks : Prop) (read : Reading Part) : Prop := Keeps blocks read fun _ => True

/-- What a reading keeps may be shown with genuine tokens ahead. -/
theorem keepsFrom_of_genuine {read : Reading Part} {Good : Part → Prop}
    (keeps : cursor.Genuine blocks → KeepsFrom blocks cursor read Good) :
    KeepsFrom blocks cursor read Good :=
  fun part next genuine found => keeps genuine part next genuine found

section Rules

variable {read : Reading Part} {next : Part → Reading Whole} {Between : Part → Prop}
  {Good : Whole → Prop}

theorem KeepsFrom.bind (first : KeepsFrom blocks cursor read Between)
    (second : ∀ part, Between part → Keeps blocks (next part) Good) :
    KeepsFrom blocks cursor (read >>= next) Good := by
  intro whole last genuine found
  change (read cursor >>= fun result => next result.1 result.2) = _ at found
  cases firstRead : read cursor with
  | error halt =>
      rw [firstRead] at found
      cases found
  | ok result =>
      rw [firstRead] at found
      rcases first result.1 result.2 genuine firstRead with ⟨holds, stillGenuine⟩
      exact second result.1 holds result.2 whole last stillGenuine found

theorem Keeps.bind (first : Keeps blocks read Between)
    (second : ∀ part, Between part → Keeps blocks (next part) Good) :
    Keeps blocks (read >>= next) Good :=
  fun cursor => (first cursor).bind second

theorem keeps_pure {whole : Whole} (good : Good whole) : Keeps blocks (pure whole) Good := by
  rintro cursor _ _ genuine ⟨⟩
  exact ⟨good, genuine⟩

theorem Keeps.map {change : Part → Whole}
    (keeps : Keeps blocks read fun part => Good (change part)) :
    Keeps blocks (change <$> read) Good := by
  rw [map_eq_pure_bind]
  exact keeps.bind fun _ good => keeps_pure good

theorem Keeps.imp (keeps : Keeps blocks read Between) {Weaker : Part → Prop}
    (implies : ∀ part, Between part → Weaker part) : Keeps blocks read Weaker := by
  intro cursor part next genuine found
  rcases keeps cursor part next genuine found with ⟨good, stillGenuine⟩
  exact ⟨implies part good, stillGenuine⟩

theorem keeps_ite {condition : Prop} [Decidable condition] {first second : Reading Whole}
    (whenTrue : condition → Keeps blocks first Good)
    (whenFalse : ¬ condition → Keeps blocks second Good) :
    Keeps blocks (if condition then first else second) Good := by
  split
  · next holds => exact whenTrue holds
  · next fails => exact whenFalse fails

theorem keeps_malformed (message : String) : Keeps blocks (malformed message) Good := nofun

theorem keeps_expected (wanted : String) : Keeps blocks (expected wanted) Good := nofun

end Rules

section Tokens

theorem keeps_current : Keeps blocks current fun token => token.Genuine blocks := by
  rintro cursor _ _ genuine ⟨⟩
  exact ⟨genuine.current, genuine⟩

theorem passes_kind : Passes blocks kind := by
  rintro cursor _ _ genuine ⟨⟩
  exact ⟨trivial, genuine⟩

theorem passes_startOffset : Passes blocks startOffset := by
  rintro cursor _ _ genuine ⟨⟩
  exact ⟨trivial, genuine⟩

theorem passes_spanFrom (start : Nat) : Passes blocks (spanFrom start) := by
  rintro cursor _ _ genuine ⟨⟩
  exact ⟨trivial, genuine⟩

theorem passes_advance : Passes blocks advance := by
  intro cursor part last genuine found
  have ahead : last.ahead = cursor.ahead.drop 1 := by
    change (cursor.next >>= fun next => pure ((), next)) = _ at found
    rw [Cursor.next, Cursor.check] at found
    split at found
    · split at found <;> cases found
    · cases found
      rfl
  refine ⟨trivial, fun token token_mem => genuine token ?_⟩
  rw [ahead] at token_mem
  exact List.mem_of_mem_drop token_mem

theorem passes_eat (wanted : TokenKind) : Passes blocks (eat wanted) := by
  apply passes_kind.bind
  intro kind _
  exact keeps_ite (fun _ => passes_advance.bind fun _ _ => keeps_pure trivial)
    (fun _ => keeps_pure trivial)

theorem passes_expect (wanted : TokenKind) : Passes blocks (expect wanted) := by
  apply passes_kind.bind
  intro kind _
  exact keeps_ite (fun _ => passes_advance) (fun _ => keeps_expected _)

theorem keepsFrom_current {next : Token → Reading Part} {Good : Part → Prop} :
    KeepsFrom blocks cursor (current >>= next) Good ↔
      KeepsFrom blocks cursor (next cursor.current) Good := Iff.rfl

theorem keepsFrom_kind {next : TokenKind → Reading Part} {Good : Part → Prop} :
    KeepsFrom blocks cursor (kind >>= next) Good ↔
      KeepsFrom blocks cursor (next cursor.current.kind) Good := Iff.rfl

theorem keepsFrom_name (cursor : Cursor) :
    KeepsFrom blocks cursor name fun name =>
      name.IsIdentifier ∧ cursor.current.kind = Lexeme.wordKind name.text := by
  intro part last genuine found
  rw [name] at found
  by_cases isName : cursor.current.kind.isName = true
  · change (if cursor.current.kind.isName = true then _ else _ : Reading Name) cursor = _ at found
    rw [if_pos isName] at found
    have whole : KeepsFrom blocks cursor
        (advance >>= fun _ => pure (⟨cursor.current.text, cursor.current.span⟩ : Name))
        fun name => name.IsIdentifier ∧ cursor.current.kind = Lexeme.wordKind name.text :=
      (passes_advance cursor).bind fun _ _ => keeps_pure (genuine.current.scanned.word isName)
    exact whole part last genuine found
  · change (if cursor.current.kind.isName = true then _ else _ : Reading Name) cursor = _ at found
    rw [if_neg isName] at found
    cases found

theorem keeps_name : Keeps blocks name Name.IsIdentifier := by
  intro cursor part next genuine found
  rcases keepsFrom_name cursor part next genuine found with ⟨⟨identifier, -⟩, stillGenuine⟩
  exact ⟨identifier, stillGenuine⟩

theorem passes_quotedText (token : Token) : Passes blocks (quotedText token) := by
  unfold quotedText
  split
  · exact keeps_pure trivial
  · exact keeps_malformed _

theorem passes_blockText (token : Token) : Passes blocks (blockText token) := by
  unfold blockText
  split
  · exact keeps_pure trivial
  · exact nofun

theorem keeps_description :
    Keeps blocks description fun found => ∀ text ∈ found, text.Writable blocks := by
  apply keeps_current.bind
  intro token genuine
  split
  · apply (passes_quotedText token).bind
    intro text _
    apply passes_advance.bind
    rintro _ _
    refine keeps_pure ?_
    rintro _ ⟨⟩
    exact nofun
  · next isBlock =>
      apply (passes_blockText token).bind
      intro text _
      apply passes_advance.bind
      rintro _ _
      refine keeps_pure ?_
      rintro _ ⟨⟩
      exact fun _ => genuine.block isBlock
  · exact keeps_pure (by simp)

theorem passes_startAfter (description : Option Description) :
    Passes blocks (startAfter description) := by
  cases description with
  | none => exact passes_startOffset
  | some description => exact keeps_pure trivial

end Tokens

section Lists

variable {read : Reading Part} {Good : Part → Prop}

theorem keeps_bounded {read : Nat → Reading Part}
    (keeps : ∀ bound, Keeps blocks (read bound) Good) :
    Keeps blocks (bounded read) Good :=
  fun cursor => keeps cursor.ahead.length cursor

theorem keeps_itemsUpTo (keeps : Keeps blocks read Good) (close : Punctuator) (bound : Nat) :
    Keeps blocks (itemsUpTo close read bound) fun parts => ∀ part ∈ parts, Good part := by
  induction bound with
  | zero => exact keeps_pure (by simp)
  | succ bound ih =>
      apply passes_kind.bind
      intro kind _
      refine keeps_ite (fun _ => keeps_pure (by simp)) fun _ => ?_
      apply keeps.bind
      intro first firstGood
      apply ih.bind
      intro rest restGood
      exact keeps_pure (List.forall_mem_cons.mpr ⟨firstGood, restGood⟩)

theorem keeps_itemsUntil (keeps : Keeps blocks read Good) (close : Punctuator) :
    Keeps blocks (itemsUntil close read) fun parts => ∀ part ∈ parts, Good part := by
  apply (keeps_bounded (keeps_itemsUpTo keeps close)).bind
  intro items good
  exact (passes_expect _).bind fun _ _ => keeps_pure good

theorem keeps_spannedItems {Whole : Type} {whole : List Part → Span → Whole}
    {GoodWhole : Whole → Prop} (keeps : Keeps blocks read Good) (close : Punctuator) (start : Nat)
    (good : ∀ parts span, (∀ part ∈ parts, Good part) → GoodWhole (whole parts span)) :
    Keeps blocks (spannedItems close read whole start) GoodWhole := by
  apply (keeps_itemsUntil keeps close).bind
  intro parts each
  exact (passes_spanFrom start).bind fun span _ => keeps_pure (good parts span each)

theorem keeps_enclosedItems (keeps : Keeps blocks read Good) (openMark close : Punctuator) :
    Keeps blocks (enclosedItems openMark close read) fun parts => ∀ part ∈ parts, Good part := by
  apply (passes_eat _).bind
  intro eaten _
  exact keeps_ite (fun _ => keeps_itemsUntil keeps close) fun _ => keeps_pure (by simp)

theorem keeps_separatedUpTo (keeps : Keeps blocks read Good) (separator : Punctuator)
    (bound : Nat) :
    Keeps blocks (separatedUpTo separator read bound) fun parts => ∀ part ∈ parts, Good part := by
  induction bound with
  | zero => exact keeps_pure (by simp)
  | succ bound ih =>
      apply (passes_eat _).bind
      intro eaten _
      refine keeps_ite (fun _ => ?_) fun _ => keeps_pure (by simp)
      apply keeps.bind
      intro first firstGood
      exact ih.bind fun _ restGood =>
        keeps_pure (List.forall_mem_cons.mpr ⟨firstGood, restGood⟩)

/-- There is at least one item. -/
theorem keeps_separated (keeps : Keeps blocks read Good) (separator : Punctuator) :
    Keeps blocks (separated separator read) fun parts =>
      parts ≠ [] ∧ ∀ part ∈ parts, Good part := by
  have first : Passes blocks (discard (eat (.punctuator separator))) := by
    rw [Functor.discard]
    exact Keeps.map (passes_eat _)
  apply first.bind
  intro _ _
  apply keeps.bind
  intro first firstGood
  exact (keeps_bounded (keeps_separatedUpTo keeps separator)).bind fun _ restGood =>
    keeps_pure ⟨List.cons_ne_nil _ _, List.forall_mem_cons.mpr ⟨firstGood, restGood⟩⟩

end Lists

section Values

theorem keeps_typeBase {bound : Nat} (keeps : Keeps blocks (typeUpTo bound) TypeExpr.WellFormed)
    (start : Nat) :
    Keeps blocks (typeBase bound start) fun type =>
      type.WellFormed ∧ type.isNonNull = false := by
  apply (passes_eat _).bind
  intro eaten _
  refine keeps_ite (fun _ => ?_) fun _ => ?_
  · apply keeps.bind
    intro item wellFormed
    exact (passes_expect _).bind fun _ _ =>
      (passes_spanFrom _).bind fun _ _ => keeps_pure ⟨.list wellFormed, rfl⟩
  · exact keeps_name.bind fun _ identifier => keeps_pure ⟨.named identifier, rfl⟩

theorem keeps_typeUpTo (bound : Nat) : Keeps blocks (typeUpTo bound) TypeExpr.WellFormed := by
  induction bound with
  | zero => exact keeps_expected _
  | succ bound ih =>
      rw [typeUpTo_succ]
      apply passes_startOffset.bind
      intro start _
      apply (keeps_typeBase ih start).bind
      rintro base ⟨wellFormed, once⟩
      apply (passes_eat _).bind
      intro eaten _
      refine keeps_ite (fun _ => ?_) fun _ => keeps_pure wellFormed
      exact (passes_spanFrom _).bind fun _ _ => keeps_pure (.nonNull wellFormed once)

theorem keeps_type : Keeps blocks type TypeExpr.WellFormed := keeps_bounded keeps_typeUpTo

theorem keeps_objectField {read : Reading Value}
    (keeps : Keeps blocks read (Value.WellFormed blocks)) :
    Keeps blocks (objectField read) fun field =>
      field.name.IsIdentifier ∧ field.value.WellFormed blocks := by
  apply passes_startOffset.bind
  intro start _
  apply keeps_name.bind
  intro name identifier
  apply (passes_expect _).bind
  intro _ _
  apply keeps.bind
  intro value wellFormed
  exact (passes_spanFrom _).bind fun _ _ => keeps_pure ⟨identifier, wellFormed⟩

/-- A word in view that is no value of its own is an enum value. -/
theorem keepsFrom_enum (noTrue : cursor.current.kind ≠ .keyword .true)
    (noFalse : cursor.current.kind ≠ .keyword .false)
    (noNull : cursor.current.kind ≠ .keyword .null) :
    KeepsFrom blocks cursor (do return Value.enum (← name)) (Value.WellFormed blocks) := by
  apply (keepsFrom_name cursor).bind
  rintro name ⟨identifier, sameKind⟩
  refine keeps_pure (.enum identifier ?_)
  intro word
  rcases (by simpa [Value.words] using word : name.text = "true" ∨ name.text = "false" ∨
    name.text = "null") with same | same | same
  · exact noTrue (sameKind.trans (same ▸ Lexeme.wordKind_keyword .true))
  · exact noFalse (sameKind.trans (same ▸ Lexeme.wordKind_keyword .false))
  · exact noNull (sameKind.trans (same ▸ Lexeme.wordKind_keyword .null))

/-- Numbers and block strings are taken from the token in view, which has been scanned. -/
theorem keeps_valueUpTo (bound : Nat) :
    Keeps blocks (valueUpTo bound) (Value.WellFormed blocks) := by
  induction bound with
  | zero => exact keeps_expected _
  | succ bound ih =>
      intro cursor
      apply keepsFrom_of_genuine
      intro genuine
      have current := genuine.current
      rw [valueUpTo, keepsFrom_current]
      split
      · apply (passes_advance cursor).bind
        intro _ _
        exact keeps_name.bind fun _ identifier => keeps_pure (.var identifier)
      · next isInt =>
          have digits := current.scanned.number (.inl isInt)
          rw [isInt] at digits
          exact (passes_advance cursor).bind fun _ _ => keeps_pure (.int digits)
      · next isFloat =>
          have digits := current.scanned.number (.inr isFloat)
          rw [isFloat] at digits
          exact (passes_advance cursor).bind fun _ _ => keeps_pure (.float digits)
      · apply (passes_quotedText _ cursor).bind
        intro text _
        exact passes_advance.bind fun _ _ => keeps_pure (.string nofun)
      · next isBlock =>
          apply (passes_blockText _ cursor).bind
          intro text _
          exact passes_advance.bind fun _ _ => keeps_pure (.string fun _ => current.block isBlock)
      · exact (passes_advance cursor).bind fun _ _ => keeps_pure (.boolean _ _)
      · exact (passes_advance cursor).bind fun _ _ => keeps_pure (.boolean _ _)
      · exact (passes_advance cursor).bind fun _ _ => keeps_pure (.null _)
      · apply (passes_advance cursor).bind
        intro _ _
        exact keeps_spannedItems ih _ _ fun _ _ wellFormed => .list wellFormed
      · apply (passes_advance cursor).bind
        intro _ _
        refine keeps_spannedItems (keeps_objectField ih) _ _ fun _ _ wellFormed => .object ?_ ?_
        · exact fun field field_mem => (wellFormed field field_mem).1
        · exact fun field field_mem => (wellFormed field field_mem).2
      · next noTrue noFalse noNull _ _ =>
          split
          · exact keepsFrom_enum noTrue noFalse noNull
          · exact keeps_expected _ cursor

theorem keeps_value : Keeps blocks value (Value.WellFormed blocks) := keeps_bounded keeps_valueUpTo

theorem keeps_argument : Keeps blocks argument (Argument.WellFormed blocks) := by
  apply passes_startOffset.bind
  intro start _
  apply keeps_name.bind
  intro name identifier
  apply (passes_expect _).bind
  intro _ _
  apply keeps_value.bind
  intro value wellFormed
  exact (passes_spanFrom _).bind fun _ _ => keeps_pure ⟨identifier, wellFormed⟩

theorem keeps_arguments :
    Keeps blocks arguments fun arguments => ∀ argument ∈ arguments, argument.WellFormed blocks :=
  keeps_enclosedItems keeps_argument _ _

theorem keeps_directivesUpTo (bound : Nat) :
    Keeps blocks (directivesUpTo bound) fun directives =>
      ∀ directive ∈ directives, directive.WellFormed blocks := by
  induction bound with
  | zero => exact keeps_pure (by simp)
  | succ bound ih =>
      apply passes_startOffset.bind
      intro start _
      apply (passes_eat _).bind
      intro eaten _
      refine keeps_ite (fun _ => ?_) fun _ => keeps_pure (by simp)
      apply keeps_name.bind
      intro name identifier
      apply keeps_arguments.bind
      intro arguments wellFormed
      apply (passes_spanFrom _).bind
      intro span _
      apply ih.bind
      intro rest restWellFormed
      exact keeps_pure (List.forall_mem_cons.mpr ⟨⟨identifier, wellFormed⟩, restWellFormed⟩)

theorem keeps_directives :
    Keeps blocks directives fun directives =>
      ∀ directive ∈ directives, directive.WellFormed blocks :=
  keeps_bounded keeps_directivesUpTo

end Values

section Selections

variable {readSet : Reading SelectionSet}

theorem keeps_optionalSet (keeps : Keeps blocks readSet (SelectionSet.WellFormed blocks)) :
    Keeps blocks (optionalSet readSet) fun set => ∀ inner ∈ set, inner.WellFormed blocks := by
  apply passes_kind.bind
  intro kind _
  refine keeps_ite (fun _ => Keeps.map (keeps.imp ?_)) fun _ => keeps_pure (by simp)
  rintro set wellFormed _ ⟨⟩
  exact wellFormed

theorem keeps_fieldRest (keeps : Keeps blocks readSet (SelectionSet.WellFormed blocks))
    {aliasName : Option Name} {name : Name} (start : Nat)
    (aliasIdentifier : ∀ other ∈ aliasName, other.IsIdentifier) (identifier : name.IsIdentifier) :
    Keeps blocks (fieldRest readSet start aliasName name) (Selection.WellFormed blocks) := by
  apply keeps_arguments.bind
  intro arguments argumentsWellFormed
  apply keeps_directives.bind
  intro directives directivesWellFormed
  apply (keeps_optionalSet keeps).bind
  intro set setWellFormed
  refine (passes_spanFrom _).bind fun _ _ => keeps_pure ?_
  exact Selection.wellFormed_field
    ⟨aliasIdentifier, identifier, argumentsWellFormed, directivesWellFormed⟩ setWellFormed _

theorem keeps_fieldSelection (keeps : Keeps blocks readSet (SelectionSet.WellFormed blocks)) :
    Keeps blocks (fieldSelection readSet) (Selection.WellFormed blocks) := by
  rw [fieldSelection_eq]
  apply passes_startOffset.bind
  intro start _
  apply keeps_name.bind
  intro first identifier
  apply (passes_eat _).bind
  intro eaten _
  refine keeps_ite (fun _ => ?_) fun _ => keeps_fieldRest keeps start (by simp) identifier
  apply keeps_name.bind
  intro name nameIdentifier
  refine keeps_fieldRest keeps start ?_ nameIdentifier
  rintro _ ⟨⟩
  exact identifier

theorem keeps_optionalCondition :
    Keeps blocks optionalCondition fun condition => ∀ name ∈ condition, name.IsIdentifier := by
  apply (passes_eat _).bind
  intro eaten _
  refine keeps_ite (fun _ => Keeps.map (keeps_name.imp ?_)) fun _ => keeps_pure (by simp)
  rintro name identifier _ ⟨⟩
  exact identifier

theorem keeps_afterSpread (keeps : Keeps blocks readSet (SelectionSet.WellFormed blocks))
    (start : Nat) : Keeps blocks (afterSpread readSet start) (Selection.WellFormed blocks) := by
  intro cursor
  rw [afterSpread, keepsFrom_kind]
  split
  · next isFragment =>
      apply (keepsFrom_name cursor).bind
      rintro name ⟨identifier, sameKind⟩
      have notOn : name.text ≠ "on" := by
        intro same
        exact isFragment.2 (sameKind.trans (same ▸ Lexeme.wordKind_keyword .on))
      apply keeps_directives.bind
      intro directives wellFormed
      exact (passes_spanFrom _).bind fun _ _ => keeps_pure (.spread ⟨identifier, notOn⟩ wellFormed)
  · apply (keeps_optionalCondition cursor).bind
    intro condition identifier
    apply keeps_directives.bind
    intro directives wellFormed
    apply keeps.bind
    rintro ⟨selections, setSpan⟩ setWellFormed
    exact (passes_spanFrom _).bind fun _ _ =>
      keeps_pure (.inline identifier wellFormed setWellFormed)

theorem keeps_selection (keeps : Keeps blocks readSet (SelectionSet.WellFormed blocks)) :
    Keeps blocks (selection readSet) (Selection.WellFormed blocks) := by
  rw [selection_eq]
  apply passes_startOffset.bind
  intro start _
  apply (passes_eat _).bind
  intro eaten _
  exact keeps_ite (fun _ => keeps_afterSpread keeps start) fun _ => keeps_fieldSelection keeps

theorem keeps_selectionSetUpTo (bound : Nat) :
    Keeps blocks (selectionSetUpTo bound) (SelectionSet.WellFormed blocks) := by
  induction bound with
  | zero => exact keeps_expected _
  | succ bound ih =>
      apply passes_startOffset.bind
      intro start _
      apply (passes_expect _).bind
      intro _ _
      exact keeps_spannedItems (keeps_selection ih) _ _ fun _ _ wellFormed => wellFormed

theorem keeps_selectionSet : Keeps blocks selectionSet (SelectionSet.WellFormed blocks) :=
  keeps_bounded keeps_selectionSetUpTo

end Selections

section TypeSystem

theorem keeps_rootOperation :
    Keeps blocks rootOperation fun root => root.typeName.IsIdentifier := by
  rw [rootOperation_eq]
  apply passes_startOffset.bind
  intro start _
  apply passes_kind.bind
  intro kind _
  have rest : ∀ operation : OperationType, Keeps blocks (rootOperationOf start operation)
      fun root => root.typeName.IsIdentifier := by
    intro operation
    apply passes_advance.bind
    intro _ _
    apply (passes_expect _).bind
    intro _ _
    apply keeps_name.bind
    intro typeName identifier
    exact (passes_spanFrom _).bind fun _ _ => keeps_pure identifier
  split
  · exact rest .query
  · exact rest .mutation
  · exact rest .subscription
  · exact keeps_malformed _

theorem keeps_schemaDefinition (description : Option Description) :
    Keeps blocks (schemaDefinition description) fun definition =>
      definition.description = description ∧ definition.Writable blocks := by
  apply (passes_startAfter description).bind
  intro start _
  apply (passes_expect _).bind
  intro _ _
  apply keeps_directives.bind
  intro directives directivesWellFormed
  apply (passes_expect _).bind
  intro _ _
  exact keeps_spannedItems keeps_rootOperation _ _ fun _ _ identifiers =>
    ⟨rfl, directivesWellFormed, identifiers⟩

theorem keeps_optionalDefault :
    Keeps blocks optionalDefault fun default => ∀ value ∈ default, value.WellFormed blocks := by
  apply (passes_eat _).bind
  intro eaten _
  refine keeps_ite (fun _ => Keeps.map (keeps_value.imp ?_)) fun _ => keeps_pure (by simp)
  rintro value wellFormed _ ⟨⟩
  exact wellFormed

theorem keeps_inputValue : Keeps blocks inputValue (InputValueDefinition.Writable blocks) := by
  rw [inputValue_eq]
  apply keeps_description.bind
  intro description descriptionWritable
  apply (passes_startAfter description).bind
  intro start _
  apply keeps_name.bind
  intro name identifier
  apply (passes_expect _).bind
  intro _ _
  apply keeps_type.bind
  intro type typeWellFormed
  apply keeps_optionalDefault.bind
  intro default defaultWellFormed
  apply keeps_directives.bind
  intro directives directivesWellFormed
  exact (passes_spanFrom _).bind fun _ _ => keeps_pure
    ⟨descriptionWritable, identifier, typeWellFormed, defaultWellFormed, directivesWellFormed⟩

/-- Arguments are well-formed, whatever their descriptions are. -/
theorem keeps_argumentDefinitions :
    Keeps blocks (enclosedItems .parenOpen .parenClose inputValue) fun arguments =>
      ∀ argument ∈ arguments, argument.WellFormed blocks :=
  keeps_enclosedItems (keeps_inputValue.imp fun _ writable => writable.wellFormed) _ _

theorem keeps_fieldDefinition :
    Keeps blocks fieldDefinition (FieldDefinition.Writable blocks) := by
  apply keeps_description.bind
  intro description descriptionWritable
  apply (passes_startAfter description).bind
  intro start _
  apply keeps_name.bind
  intro name identifier
  apply keeps_argumentDefinitions.bind
  intro arguments argumentsWellFormed
  apply (passes_expect _).bind
  intro _ _
  apply keeps_type.bind
  intro type typeWellFormed
  apply keeps_directives.bind
  intro directives directivesWellFormed
  exact (passes_spanFrom _).bind fun _ _ => keeps_pure
    ⟨descriptionWritable, identifier, argumentsWellFormed, typeWellFormed, directivesWellFormed⟩

theorem keeps_enumValue : Keeps blocks enumValue (EnumValueDefinition.Writable blocks) := by
  apply keeps_description.bind
  intro description descriptionWritable
  apply (passes_startAfter description).bind
  intro start _
  apply keeps_name.bind
  intro name identifier
  apply keeps_directives.bind
  intro directives directivesWellFormed
  exact (passes_spanFrom _).bind fun _ _ =>
    keeps_pure ⟨descriptionWritable, identifier, directivesWellFormed⟩

/-- Names after an introduction; there may be none. -/
theorem keeps_introduced (introduction : TokenKind) (separator : Punctuator) :
    Keeps blocks (introduced introduction separator) fun names =>
      ∀ name ∈ names, name.IsIdentifier := by
  apply (passes_eat _).bind
  intro eaten _
  refine keeps_ite (fun _ => ?_) fun _ => keeps_pure (by simp)
  exact (keeps_separated keeps_name separator).imp fun _ names => names.2

/-- What may stand after the name in a type definition. -/
def WritableBody (blocks : Prop) (read : List Directive × TypeDefinition.Body) : Prop :=
  (∀ directive ∈ read.1, directive.WellFormed blocks) ∧ read.2.Writable blocks

theorem keeps_fieldsBody (body : List Name → List FieldDefinition → TypeDefinition.Body)
    (writable : ∀ interfaces fields, (∀ name ∈ interfaces, name.IsIdentifier) →
      (∀ field ∈ fields, field.Writable blocks) → (body interfaces fields).Writable blocks) :
    Keeps blocks (fieldsBody body) (WritableBody blocks) := by
  apply (keeps_introduced _ _).bind
  intro interfaces identifiers
  apply keeps_directives.bind
  intro directives directivesWellFormed
  exact (keeps_enclosedItems keeps_fieldDefinition _ _).bind fun fields fieldsWritable =>
    keeps_pure ⟨directivesWellFormed, writable interfaces fields identifiers fieldsWritable⟩

theorem keeps_bracedBody {read : Reading Part} {Good : Part → Prop}
    (keeps : Keeps blocks read Good) (body : List Part → TypeDefinition.Body)
    (writable : ∀ items, (∀ item ∈ items, Good item) → (body items).Writable blocks) :
    Keeps blocks (bracedBody read body) (WritableBody blocks) := by
  apply keeps_directives.bind
  intro directives directivesWellFormed
  exact (keeps_enclosedItems keeps _ _).bind fun items itemsGood =>
    keeps_pure ⟨directivesWellFormed, writable items itemsGood⟩

theorem keeps_typeBody (kind : TypeKind) : Keeps blocks (typeBody kind) (WritableBody blocks) := by
  rw [typeBody_eq]
  cases kind with
  | object =>
      exact keeps_fieldsBody .object fun _ _ names fields => ⟨names, fields, nofun, nofun, nofun⟩
  | interface =>
      exact keeps_fieldsBody .interface fun _ _ names fields => ⟨names, fields, nofun, nofun, nofun⟩
  | union =>
      apply keeps_directives.bind
      intro directives directivesWellFormed
      exact (keeps_introduced _ _).bind fun _ names =>
        keeps_pure ⟨directivesWellFormed, nofun, nofun, nofun, nofun, names⟩
  | enum =>
      exact keeps_bracedBody keeps_enumValue .enum fun _ values =>
        ⟨nofun, nofun, nofun, values, nofun⟩
  | input =>
      exact keeps_bracedBody keeps_inputValue .input fun _ fields =>
        ⟨nofun, nofun, fields, nofun, nofun⟩
  | scalar =>
      exact keeps_directives.bind fun _ directivesWellFormed =>
        keeps_pure ⟨directivesWellFormed, nofun, nofun, nofun, nofun, nofun⟩

theorem keeps_typeDefinition (description : Option Description) :
    Keeps blocks (typeDefinition description) fun definition =>
      definition.description = description ∧ definition.Writable blocks := by
  apply (passes_startAfter description).bind
  intro start _
  apply passes_kind.bind
  intro kind _
  split
  · exact keeps_malformed _
  · apply passes_advance.bind
    intro _ _
    apply keeps_name.bind
    intro name identifier
    apply (keeps_typeBody _).bind
    rintro ⟨directives, body⟩ ⟨directivesWellFormed, bodyWritable⟩
    exact (passes_spanFrom _).bind fun _ _ =>
      keeps_pure ⟨rfl, identifier, directivesWellFormed, bodyWritable⟩

theorem passes_directiveLocation : Passes blocks directiveLocation := by
  apply keeps_current.bind
  intro token _
  split
  · exact passes_advance.bind fun _ _ => keeps_pure trivial
  · exact keeps_expected _

theorem keeps_directiveDefinition (description : Option Description) :
    Keeps blocks (directiveDefinition description) fun definition =>
      definition.description = description ∧ definition.Writable blocks := by
  apply (passes_startAfter description).bind
  intro start _
  apply (passes_expect _).bind
  intro _ _
  apply (passes_expect _).bind
  intro _ _
  apply keeps_name.bind
  intro name identifier
  apply keeps_argumentDefinitions.bind
  intro arguments argumentsWellFormed
  apply (passes_eat _).bind
  intro repeatable _
  apply (passes_expect _).bind
  intro _ _
  apply (keeps_separated passes_directiveLocation _).bind
  intro locations present
  exact (passes_spanFrom _).bind fun _ _ =>
    keeps_pure ⟨rfl, identifier, argumentsWellFormed, present.1⟩

end TypeSystem

section Definitions

theorem keeps_variableDefinition :
    Keeps blocks variableDefinition (VariableDefinition.WellFormed blocks) := by
  rw [variableDefinition_eq]
  apply passes_startOffset.bind
  intro start _
  apply (passes_expect _).bind
  intro _ _
  apply keeps_name.bind
  intro name identifier
  apply (passes_expect _).bind
  intro _ _
  apply keeps_type.bind
  intro type typeWellFormed
  apply keeps_optionalDefault.bind
  intro default defaultWellFormed
  apply keeps_directives.bind
  intro directives directivesWellFormed
  exact (passes_spanFrom _).bind fun _ _ =>
    keeps_pure ⟨identifier, typeWellFormed, defaultWellFormed, directivesWellFormed⟩

theorem keeps_optionalName :
    Keeps blocks optionalName fun name => ∀ other ∈ name, other.IsIdentifier := by
  apply passes_kind.bind
  intro kind _
  refine keeps_ite (fun _ => Keeps.map (keeps_name.imp ?_)) fun _ => keeps_pure (by simp)
  rintro name identifier _ ⟨⟩
  exact identifier

theorem keeps_namedOperation (operation : OperationType) :
    Keeps blocks (namedOperation operation) (OperationDefinition.WellFormed blocks) := by
  rw [namedOperation_eq]
  apply passes_startOffset.bind
  intro start _
  apply passes_advance.bind
  intro _ _
  apply keeps_optionalName.bind
  intro name identifier
  apply (keeps_enclosedItems keeps_variableDefinition _ _).bind
  intro declared declaredWellFormed
  apply keeps_directives.bind
  intro directives directivesWellFormed
  apply keeps_selectionSet.bind
  intro set setWellFormed
  exact (passes_spanFrom _).bind fun _ _ =>
    keeps_pure ⟨identifier, declaredWellFormed, directivesWellFormed, setWellFormed⟩

theorem keeps_shorthandQuery :
    Keeps blocks shorthandQuery (OperationDefinition.WellFormed blocks) := by
  apply passes_startOffset.bind
  intro start _
  apply keeps_selectionSet.bind
  intro set wellFormed
  exact (passes_spanFrom _).bind fun _ _ =>
    keeps_pure ⟨by simp, by simp, by simp, wellFormed⟩

theorem keeps_fragmentDefinition :
    Keeps blocks fragmentDefinition (FragmentDefinition.WellFormed blocks) := by
  apply passes_startOffset.bind
  intro start _
  apply (passes_expect _).bind
  intro _ _ cursor
  rw [keepsFrom_kind]
  split
  · exact (keeps_malformed _ cursor).bind fun _ (impossible : False) => impossible.elim
  · next notOn =>
      apply (keepsFrom_name cursor).bind
      rintro name ⟨identifier, sameKind⟩
      have named : name.NamesFragment :=
        ⟨identifier, fun same => notOn (sameKind.trans (same ▸ Lexeme.wordKind_keyword .on))⟩
      apply (passes_expect _).bind
      intro _ _
      apply keeps_name.bind
      intro condition conditionIdentifier
      apply keeps_directives.bind
      intro directives directivesWellFormed
      apply keeps_selectionSet.bind
      intro set setWellFormed
      exact (passes_spanFrom _).bind fun _ _ =>
        keeps_pure ⟨named, conditionIdentifier, directivesWellFormed, setWellFormed⟩

/-- Whatever is read is written with the description before it, if that is kept. -/
theorem keeps_definition : Keeps blocks definition (Definition.Writable blocks) := by
  apply keeps_description.bind
  intro description descriptionWritable
  apply passes_kind.bind
  intro kind _
  split
  · refine Keeps.map ((keeps_schemaDefinition description).imp ?_)
    rintro definition ⟨rfl, writable⟩
    exact ⟨descriptionWritable, writable⟩
  · refine passes_advance.bind fun _ _ => Keeps.map ((keeps_typeDefinition none).imp ?_)
    rintro addition ⟨undescribed, writable⟩
    exact ⟨nofun, writable, undescribed⟩
  · refine Keeps.map ((keeps_directiveDefinition description).imp ?_)
    rintro definition ⟨rfl, writable⟩
    exact ⟨descriptionWritable, writable⟩
  · exact Keeps.map ((keeps_namedOperation .query).imp fun _ wellFormed => ⟨nofun, wellFormed⟩)
  · exact Keeps.map ((keeps_namedOperation .mutation).imp fun _ wellFormed => ⟨nofun, wellFormed⟩)
  · exact Keeps.map
      ((keeps_namedOperation .subscription).imp fun _ wellFormed => ⟨nofun, wellFormed⟩)
  · exact Keeps.map (keeps_shorthandQuery.imp fun _ wellFormed => ⟨nofun, wellFormed⟩)
  · exact Keeps.map (keeps_fragmentDefinition.imp fun _ wellFormed => ⟨nofun, wellFormed⟩)
  · refine keeps_ite (fun _ => Keeps.map ((keeps_typeDefinition description).imp ?_)) fun _ =>
      keeps_malformed _
    rintro definition ⟨rfl, writable⟩
    exact ⟨descriptionWritable, writable⟩

/-- All definitions completed before a fault can be written. -/
theorem writable_of_mem_definitionsUpTo {bound : Nat} (genuine : cursor.Genuine blocks) :
    ∀ found ∈ (definitionsUpTo bound cursor).1, found.Writable blocks := by
  induction bound generalizing cursor with
  | zero => simp [definitionsUpTo]
  | succ bound ih =>
      rw [definitionsUpTo]
      split
      · simp
      · split
        · simp
        · next first next read =>
            rcases keeps_definition cursor first next genuine read with ⟨writable, stillGenuine⟩
            exact List.forall_mem_cons.mpr ⟨writable, ih stillGenuine⟩

/-- The operations, fragments and types among the definitions are well-formed. -/
def GoodDefinition (blocks : Prop) : Definition → Prop
  | .type definition => definition.WellFormed blocks
  | .extension addition => addition.WellFormed blocks
  | .operation definition => definition.WellFormed blocks
  | .fragment definition => definition.WellFormed blocks
  | _ => True

theorem good_of_writable {definition : Definition} (writable : definition.Writable blocks) :
    GoodDefinition blocks definition := by
  rcases writable with ⟨-, statement⟩
  cases definition with
  | type definition => exact TypeDefinition.Writable.wellFormed statement
  | extension addition => exact statement.1.wellFormed
  | operation definition | fragment definition => exact statement
  | schema | directive => trivial

end Definitions

end Reading

namespace Document

open Reading (GoodDefinition)

variable {source : List Char} {parsed : ParsedDocument} {blocks : Prop}

/-- The definitions of a parsed source can be written, without block strings if the source has
none. -/
theorem writable_of_parse
    (allowed : ∀ token ∈ Scan.tokens source, token.kind = .blockString → blocks)
    (found : Document.parse source = .ok parsed) :
    ∀ definition ∈ parsed.document.definitions, definition.Writable blocks := by
  have genuine : (startCursor source).Genuine blocks := by
    intro token token_mem
    have scanned := Scan.isGenuine_of_mem_lexemes source token.lexeme
      (List.mem_map_of_mem token_mem)
    exact ⟨scanned, allowed token token_mem⟩
  have definitions :
      ∀ definition ∈ (readDefinitions source).1, definition.Writable blocks := by
    rw [readDefinitions]
    split
    · simp
    · next cursor checked =>
        have same : startCursor source = cursor := by
          rw [Cursor.check] at checked
          split at checked
          · split at checked <;> cases checked
          · exact Except.ok.inj checked
        exact Reading.writable_of_mem_definitionsUpTo (same ▸ genuine)
  rw [Document.parse] at found
  split at found
  · next outcome =>
      cases found
      rw [outcome] at definitions
      exact definitions
  · next outcome =>
      cases found
      rw [outcome] at definitions
      exact definitions
  · cases found

/-- The operations, fragments and types of a parsed source are well-formed, without block strings
if the source has none. -/
theorem good_of_parse
    (allowed : ∀ token ∈ Scan.tokens source, token.kind = .blockString → blocks)
    (found : Document.parse source = .ok parsed) :
    ∀ definition ∈ parsed.document.definitions, GoodDefinition blocks definition :=
  fun definition definition_mem =>
    Reading.good_of_writable (writable_of_parse allowed found definition definition_mem)

end Document

end WiredGraph
