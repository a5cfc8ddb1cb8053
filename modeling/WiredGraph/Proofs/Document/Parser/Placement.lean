import WiredGraph.Proofs.Document.Parser.Places

/-!
# The readings place what they read

Every reading of a part of a document places it: the node of the part starts with the first token
that is read for it, or with its description, and ends with the last one, around the nodes of the
parts that it is made of. Where a part may be made of none, the mark that opens it has been passed.
-/

namespace WiredGraph

namespace Reading

variable {source : List Char} {origin cursor : Cursor} {parts : List SpanTree}

section Lists

variable {Part : Type} {item : Reading Part}

theorem Places.pure_nil {trees : List Part → List SpanTree} (empty : trees [] = []) :
    Places source (pure []) trees := by
  intro origin parts cursor gathered
  apply leads_pure
  rwa [empty, List.append_nil]

section Items

variable {tree : Part → SpanTree}

theorem Places.itemsUpTo (places : Places source item fun part => [tree part])
    (close : Punctuator) (bound : Nat) :
    Places source (itemsUpTo close item bound) (List.map tree) := by
  induction bound with
  | zero => exact .pure_nil rfl
  | succ bound ih =>
      intro origin parts cursor gathered
      rw [Reading.itemsUpTo, leads_kind]
      refine leads_ite (fun _ => Places.pure_nil rfl _ _ _ gathered) fun _ => ?_
      apply (places _ _ _ gathered).bind
      intro first _ gathered
      apply (ih _ _ _ gathered).bind
      intro rest _ gathered
      apply leads_pure
      rwa [List.append_assoc, List.singleton_append] at gathered

theorem Places.itemsUntil (places : Places source item fun part => [tree part])
    (close : Punctuator) : Places source (itemsUntil close item) (List.map tree) := by
  intro origin parts cursor gathered
  apply (leads_bounded.mpr (places.itemsUpTo close _ _ _ _ gathered)).bind
  intro items _ gathered
  apply (leads_expect gathered (by nofun)).bind
  exact fun _ _ gathered => leads_pure gathered

/-- The items and what was gathered before them, some marks left out, are what stands below one
node. -/
theorem Places.spannedItems {Whole : Type} {whole : List Part → Span → Whole}
    {wholeTree : Whole → SpanTree} (places : Places source item fun part => [tree part])
    (close : Punctuator) (gathered : Gathered source origin parts cursor)
    (some_parts : parts ≠ []) (children : List Part → List SpanTree)
    (kept : ∀ found, (children found).Sublist (parts ++ found.map tree))
    (same : ∀ found span, wholeTree (whole found span) = .node span none (children found)) :
    Leads origin cursor (spannedItems close item whole origin.current.span.start) fun found next =>
      Gathered source origin [wholeTree found] next := by
  apply (places.itemsUntil close _ _ _ gathered).bind
  intro found _ gathered
  apply leads_spanned
  rw [same]
  exact gathered.node (kept found) (by simp [some_parts])

theorem Places.enclosedItems (places : Places source item fun part => [tree part])
    (openMark close : Punctuator) :
    Places source (enclosedItems openMark close item) (List.map tree) := by
  intro origin parts cursor gathered
  apply (leads_eat gathered (by nofun)).bind
  intro eaten _ gathered
  exact leads_ite (fun _ => places.itemsUntil close _ _ _ gathered) fun _ =>
    Places.pure_nil rfl _ _ _ gathered

end Items

section Separated

variable {trees : Part → List SpanTree}

theorem Places.separatedUpTo (places : Places source item trees) (separator : Punctuator)
    (bound : Nat) :
    Places source (separatedUpTo separator item bound) (List.flatMap trees) := by
  induction bound with
  | zero => exact .pure_nil rfl
  | succ bound ih =>
      intro origin parts cursor gathered
      apply (leads_eat gathered (by nofun)).bind
      intro eaten _ gathered
      refine leads_ite (fun _ => ?_) fun _ => Places.pure_nil rfl _ _ _ gathered
      apply (places _ _ _ gathered).bind
      intro first _ gathered
      apply (ih _ _ _ gathered).bind
      intro rest _ gathered
      apply leads_pure
      rwa [List.append_assoc] at gathered

theorem Places.separated (places : Places source item trees) (separator : Punctuator) :
    Places source (separated separator item) (List.flatMap trees) := by
  intro origin parts cursor gathered
  have start : Leads origin cursor (discard (eat (.punctuator separator))) fun _ next =>
      Gathered source origin parts next :=
    (leads_eat gathered (by nofun)).map fun _ _ gathered => gathered
  apply start.bind
  intro _ _ gathered
  apply (places _ _ _ gathered).bind
  intro first _ gathered
  apply (leads_bounded.mpr (places.separatedUpTo separator _ _ _ _ gathered)).bind
  intro rest _ gathered
  apply leads_pure
  rwa [List.append_assoc] at gathered

end Separated

/-- A part that may be left out adds its tree if it is there. -/
theorem places_optional {tree : Part → SpanTree}
    (places : Places source item fun part => [tree part]) {condition : Prop}
    [Decidable condition] :
    Places source (if condition then some <$> item else pure none) fun found =>
      found.toList.map tree := by
  intro origin parts cursor gathered
  refine leads_ite (fun _ => ?_) fun _ => leads_pure (gathered.sublist (by simp))
  exact (places _ _ _ gathered).map fun _ _ gathered => gathered

end Lists

section Values

theorem places_name : Places source name fun name => [name.spanTree] := by
  intro origin parts cursor gathered
  rw [name, leads_current]
  refine leads_ite (fun isName => ?_) fun _ => leads_expected gathered _
  have visible : cursor.current.kind ≠ .endOfInput := by
    intro ended
    rw [ended] at isName
    cases isName
  apply (leads_advance_leaf gathered visible (some cursor.current.text) (by simp)).bind
  exact fun _ _ gathered => leads_pure gathered

theorem leads_quotedText (gathered : Gathered source origin parts cursor) (token : Token) :
    Leads origin cursor (quotedText token) fun _ next => next = cursor := by
  rw [quotedText]
  split
  · exact leads_pure rfl
  · exact leads_malformed gathered _

theorem leads_blockText (token : Token) :
    Leads origin cursor (blockText token) fun _ next => next = cursor := by
  rw [blockText]
  split
  · exact leads_pure rfl
  · constructor
    · intro part next found
      cases found
    · rintro _ ⟨⟩
      exact .inr ⟨_, rfl⟩

theorem leads_typeBase {bound : Nat}
    (places : Places source (typeUpTo bound) fun type => [type.spanTree])
    (gathered : Gathered source origin [] origin) :
    Leads origin origin (typeBase bound origin.current.span.start) fun type next =>
      Gathered source origin [type.spanTree] next := by
  apply (leads_eat gathered (by nofun)).bind
  intro eaten _ gathered
  refine leads_ite (fun _ => ?_) fun _ => ?_
  · apply (places _ _ _ gathered).bind
    intro item _ gathered
    apply (leads_expect gathered (by nofun)).bind
    intro _ _ gathered
    exact leads_spanned (gathered.node (.refl _) (by simp))
  · exact (places_name _ _ _ gathered).bind fun _ _ gathered => leads_pure gathered

theorem places_typeUpTo (bound : Nat) :
    Places source (typeUpTo bound) fun type => [type.spanTree] := by
  induction bound with
  | zero => exact fun _ _ _ gathered => leads_expected gathered _
  | succ bound ih =>
      apply Places.of_start
      intro origin gathered
      rw [typeUpTo_succ, leads_startOffset]
      apply (leads_typeBase ih gathered).bind
      intro base _ gathered
      apply (leads_eat gathered (by nofun)).bind
      intro eaten _ gathered
      refine leads_ite (fun _ => ?_) fun _ => leads_pure gathered
      exact leads_spanned (gathered.node (.refl _) (by simp))

theorem places_type : Places source type fun type => [type.spanTree] :=
  fun _ _ _ gathered => leads_bounded.mpr (places_typeUpTo _ _ _ _ gathered)

theorem places_objectField {read : Reading Value}
    (places : Places source read fun value => [value.spanTree]) :
    Places source (objectField read) fun field => [field.spanTree] := by
  apply Places.of_start
  intro origin gathered
  rw [objectField, leads_startOffset]
  apply (places_name _ _ _ gathered).bind
  intro name _ gathered
  apply (leads_expect gathered (by nofun)).bind
  intro _ _ gathered
  apply (places _ _ _ gathered).bind
  intro value _ gathered
  exact leads_spanned (gathered.node (.refl _) (by simp))

/-- A token that is a value by itself is a leaf, and numbers keep its text. -/
theorem leads_leafValue {kind : TokenKind} {value : Value}
    (gathered : Gathered source origin [] origin) (text : Option String)
    (same : origin.current.kind = kind) (isToken : kind ≠ .endOfInput)
    (keeps : ∀ kept ∈ text, kept = origin.current.text)
    (tree : value.spanTree = .node origin.current.span text []) :
    Leads origin origin (do advance; return value) fun value next =>
      Gathered source origin [value.spanTree] next := by
  apply (leads_advance_leaf gathered (same ▸ isToken) text keeps).bind
  intro _ _ gathered
  apply leads_pure
  rwa [tree]

theorem places_valueUpTo (bound : Nat) :
    Places source (valueUpTo bound) fun value => [value.spanTree] := by
  induction bound with
  | zero => exact fun _ _ _ gathered => leads_expected gathered _
  | succ bound ih =>
      apply Places.of_start
      intro origin gathered
      rw [valueUpTo, leads_current]
      split
      · next same =>
          apply (leads_advance gathered (by simp [same])).bind
          intro _ _ gathered
          exact (places_name _ _ _ gathered).bind fun _ _ gathered => leads_pure gathered
      · next same => exact leads_leafValue gathered (some origin.current.text) same (by simp) (by simp) rfl
      · next same => exact leads_leafValue gathered (some origin.current.text) same (by simp) (by simp) rfl
      · next same =>
          apply (leads_quotedText gathered _).bind
          rintro text _ rfl
          exact leads_leafValue gathered none same (by simp) (by simp) rfl
      · next same =>
          apply (leads_blockText _).bind
          rintro text _ rfl
          exact leads_leafValue gathered none same (by simp) (by simp) rfl
      · next same => exact leads_leafValue gathered none same (by simp) (by simp) rfl
      · next same => exact leads_leafValue gathered none same (by simp) (by simp) rfl
      · next same => exact leads_leafValue gathered none same (by simp) (by simp) rfl
      · next same =>
          apply (leads_advance_leaf gathered (by simp [same]) none (by simp)).bind
          intro _ _ gathered
          refine ih.spannedItems .bracketClose gathered (by simp) Value.spanTrees ?_ fun _ _ => rfl
          intro items
          rw [Value.spanTrees_eq_map]
          exact List.sublist_append_right _ _
      · next same =>
          apply (leads_advance_leaf gathered (by simp [same]) none (by simp)).bind
          intro _ _ gathered
          refine (places_objectField ih).spannedItems .braceClose gathered (by simp)
            ObjectField.spanTrees ?_ fun _ _ => rfl
          intro fields
          rw [ObjectField.spanTrees_eq_map]
          exact List.sublist_append_right _ _
      · refine leads_ite (fun _ => ?_) fun _ => leads_expected gathered _
        exact (places_name _ _ _ gathered).bind fun _ _ gathered => leads_pure gathered

theorem places_value : Places source value fun value => [value.spanTree] :=
  fun _ _ _ gathered => leads_bounded.mpr (places_valueUpTo _ _ _ _ gathered)

theorem places_argument : Places source argument fun argument => [argument.spanTree] := by
  apply Places.of_start
  intro origin gathered
  rw [argument, leads_startOffset]
  apply (places_name _ _ _ gathered).bind
  intro name _ gathered
  apply (leads_expect gathered (by nofun)).bind
  intro _ _ gathered
  apply (places_value _ _ _ gathered).bind
  intro value _ gathered
  exact leads_spanned (gathered.node (.refl _) (by simp))

theorem places_arguments : Places source arguments (List.map Argument.spanTree) :=
  places_argument.enclosedItems _ _

theorem places_directivesUpTo (bound : Nat) :
    Places source (directivesUpTo bound) (List.map Directive.spanTree) := by
  induction bound with
  | zero => exact .pure_nil rfl
  | succ bound ih =>
      apply Places.of_start
      intro origin gathered
      rw [directivesUpTo, leads_startOffset]
      apply (leads_eat gathered (by nofun)).bind
      intro eaten _ gathered
      refine leads_ite (fun _ => ?_) fun _ => leads_pure gathered
      apply (places_name _ _ _ gathered).bind
      intro name _ gathered
      apply (places_arguments _ _ _ gathered).bind
      intro arguments between gathered
      rw [leads_spanFrom]
      have directive : Gathered source origin
          [(⟨name, arguments, ⟨origin.current.span.start,
            max between.passed origin.current.span.start⟩⟩ : Directive).spanTree] between :=
        gathered.node (.refl _) (by simp)
      exact (ih _ _ _ directive).bind fun _ _ gathered => leads_pure gathered

theorem places_directives : Places source directives (List.map Directive.spanTree) :=
  fun _ _ _ gathered => leads_bounded.mpr (places_directivesUpTo _ _ _ _ gathered)

end Values

section Selections

variable {set : Reading SelectionSet}

theorem places_optionalSet (places : Places source set fun set => [set.spanTree]) :
    Places source (optionalSet set) fun found => found.toList.map SelectionSet.spanTree := by
  intro origin parts cursor gathered
  rw [optionalSet, leads_kind]
  exact places_optional places _ _ _ gathered

theorem leads_fieldRest (places : Places source set fun set => [set.spanTree])
    {aliasName : Option Name} {name : Name}
    (gathered : Gathered source origin (aliasName.toList.map Name.spanTree ++ [name.spanTree])
      cursor) :
    Leads origin cursor (fieldRest set origin.current.span.start aliasName name)
      fun selection next => Gathered source origin [selection.spanTree] next := by
  apply (places_arguments _ _ _ gathered).bind
  intro arguments _ gathered
  apply (places_directives _ _ _ gathered).bind
  intro directives _ gathered
  apply (places_optionalSet places _ _ _ gathered).bind
  intro found _ gathered
  apply leads_spanned
  cases found <;> exact gathered.node (.refl _) (by simp)

theorem places_fieldSelection (places : Places source set fun set => [set.spanTree]) :
    Places source (fieldSelection set) fun selection => [selection.spanTree] := by
  apply Places.of_start
  intro origin gathered
  rw [fieldSelection_eq, leads_startOffset]
  apply (places_name _ _ _ gathered).bind
  intro first _ gathered
  apply (leads_eat gathered (by nofun)).bind
  intro eaten _ gathered
  refine leads_ite (fun _ => ?_) fun _ => leads_fieldRest places gathered
  apply (places_name _ _ _ gathered).bind
  intro other _ gathered
  exact leads_fieldRest places gathered

theorem leads_afterSpread (places : Places source set fun set => [set.spanTree])
    (gathered : Gathered source origin [] cursor) :
    Leads origin cursor (afterSpread set origin.current.span.start)
      fun selection next => Gathered source origin [selection.spanTree] next := by
  rw [afterSpread, leads_kind]
  refine leads_ite (fun _ => ?_) fun _ => ?_
  · apply (places_name _ _ _ gathered).bind
    intro name _ gathered
    apply (places_directives _ _ _ gathered).bind
    intro directives _ gathered
    exact leads_spanned (gathered.node (.refl _) (by simp))
  · have condition : Leads origin cursor optionalCondition fun found next =>
        Gathered source origin (found.toList.map Name.spanTree) next := by
      apply (leads_eat gathered (by simp)).bind
      intro eaten _ gathered
      exact places_optional places_name _ _ _ gathered
    apply condition.bind
    intro condition _ gathered
    apply (places_directives _ _ _ gathered).bind
    intro directives _ gathered
    apply (places _ _ _ gathered).bind
    intro found _ gathered
    exact leads_spanned (gathered.node (.refl _) (by simp))

theorem places_selection (places : Places source set fun set => [set.spanTree]) :
    Places source (selection set) fun selection => [selection.spanTree] := by
  apply Places.of_start
  intro origin gathered
  rw [selection_eq, leads_startOffset]
  apply (leads_eat gathered (by nofun)).bind
  intro eaten _ gathered
  refine leads_ite (fun _ => leads_afterSpread places gathered) fun _ => ?_
  exact places_fieldSelection places _ _ _ gathered

theorem places_selectionSetUpTo (bound : Nat) :
    Places source (selectionSetUpTo bound) fun set => [set.spanTree] := by
  induction bound with
  | zero => exact fun _ _ _ gathered => leads_expected gathered _
  | succ bound ih =>
      apply Places.of_start
      intro origin gathered
      rw [selectionSetUpTo, leads_startOffset]
      apply (leads_expect_leaf gathered (by nofun)).bind
      intro _ _ gathered
      refine (places_selection ih).spannedItems .braceClose gathered (by simp)
        Selection.spanTrees ?_ fun _ _ => rfl
      intro selections
      rw [Selection.spanTrees_eq_map]
      exact List.sublist_append_right _ _

theorem places_selectionSet : Places source selectionSet fun set => [set.spanTree] :=
  fun _ _ _ gathered => leads_bounded.mpr (places_selectionSetUpTo _ _ _ _ gathered)

end Selections

section TypeSystem

theorem places_rootOperation : Places source rootOperation fun root => [root.spanTree] := by
  apply Places.of_start
  intro origin gathered
  rw [rootOperation_eq, leads_startOffset, leads_kind]
  have rest : ∀ operation : OperationType, origin.current.kind ≠ .endOfInput →
      Leads origin origin (rootOperationOf origin.current.span.start operation)
        fun root next => Gathered source origin [root.spanTree] next := by
    intro operation visible
    apply (leads_advance gathered visible).bind
    intro _ _ gathered
    apply (leads_expect gathered (by nofun)).bind
    intro _ _ gathered
    apply (places_name _ _ _ gathered).bind
    intro typeName _ gathered
    exact leads_spanned (gathered.node (.refl _) (by simp))
  split
  · next same => exact rest .query (by simp [same])
  · next same => exact rest .mutation (by simp [same])
  · next same => exact rest .subscription (by simp [same])
  · exact leads_malformed gathered _

/-- A definition starts with the token in view at a cursor: with its description, or, if it has
none, with the token in view now. -/
structure Described (source : List Char) (origin : Cursor) (description : Option Description)
    (cursor : Cursor) : Prop where
  gathered : Gathered source origin (description.toList.map Description.spanTree) cursor
  starts : startAfter description cursor = .ok (origin.current.span.start, cursor)

theorem described_none (gathered : Gathered source cursor [] cursor) :
    Described source cursor none cursor :=
  ⟨gathered, rfl⟩

theorem leads_description (gathered : Gathered source origin [] origin) :
    Leads origin origin description fun found next => Described source origin found next := by
  rw [description, leads_current]
  have found : ∀ {text : String} {block : Bool}, origin.current.kind ≠ .endOfInput →
      Leads origin origin
        (do advance; return some (⟨text, block, origin.current.span⟩ : Description))
        fun found next => Described source origin found next := by
    intro text block visible
    apply (leads_advance_leaf gathered visible none nofun).bind
    exact fun _ _ gathered => leads_pure ⟨gathered, rfl⟩
  split
  · next same =>
      apply (leads_quotedText gathered _).bind
      rintro text _ rfl
      exact found (by simp [same])
  · next same =>
      apply (leads_blockText _).bind
      rintro text _ rfl
      exact found (by simp [same])
  · exact leads_pure (described_none gathered)

theorem Described.leads_startAfter {Part : Type} {description : Option Description}
    (described : Described source origin description cursor) {next : Nat → Reading Part}
    {post : Part → Cursor → Prop}
    (leads : Leads origin cursor (next origin.current.span.start) post) :
    Leads origin cursor (startAfter description >>= next) post := by
  have start : Leads origin cursor (startAfter description) fun start last =>
      start = origin.current.span.start ∧ last = cursor := by
    constructor
    · rintro start last found
      obtain ⟨rfl, rfl⟩ := Prod.mk.inj (Except.ok.inj (described.starts.symm.trans found))
      exact ⟨rfl, rfl⟩
    · intro halt failed
      cases described.starts.symm.trans failed
  apply start.bind
  rintro _ _ ⟨rfl, rfl⟩
  exact leads

/-- The keyword of a schema definition is gathered, too, since nothing else might be. -/
theorem leads_schemaDefinition {description : Option Description}
    (described : Described source origin description cursor) :
    Leads origin cursor (schemaDefinition description) fun definition next =>
      Gathered source origin [definition.spanTree] next := by
  apply described.leads_startAfter
  apply (leads_expect_leaf described.gathered (by nofun)).bind
  intro _ _ gathered
  apply (places_directives _ _ _ gathered).bind
  intro directives _ gathered
  apply (leads_expect gathered (by nofun)).bind
  intro _ _ gathered
  exact places_rootOperation.spannedItems .braceClose gathered (by simp) _
    (fun _ => ((List.sublist_append_left _ _).append_right _).append_right _) fun _ _ => rfl

theorem places_optionalDefault :
    Places source optionalDefault fun found => found.toList.map Value.spanTree := by
  intro origin parts cursor gathered
  apply (leads_eat gathered (by nofun)).bind
  intro eaten _ gathered
  exact places_optional places_value _ _ _ gathered

theorem places_inputValue :
    Places source inputValue fun definition => [definition.spanTree] := by
  apply Places.of_start
  intro origin gathered
  rw [inputValue_eq]
  apply (leads_description gathered).bind
  intro description _ described
  apply described.leads_startAfter
  apply (places_name _ _ _ described.gathered).bind
  intro name _ gathered
  apply (leads_expect gathered (by nofun)).bind
  intro _ _ gathered
  apply (places_type _ _ _ gathered).bind
  intro type _ gathered
  apply (places_optionalDefault _ _ _ gathered).bind
  intro default _ gathered
  apply (places_directives _ _ _ gathered).bind
  intro directives _ gathered
  exact leads_spanned (gathered.node (.refl _) (by simp))

theorem places_fieldDefinition :
    Places source fieldDefinition fun definition => [definition.spanTree] := by
  apply Places.of_start
  intro origin gathered
  apply (leads_description gathered).bind
  intro description _ described
  apply described.leads_startAfter
  apply (places_name _ _ _ described.gathered).bind
  intro name _ gathered
  apply (places_inputValue.enclosedItems _ _ _ _ _ gathered).bind
  intro arguments _ gathered
  apply (leads_expect gathered (by nofun)).bind
  intro _ _ gathered
  apply (places_type _ _ _ gathered).bind
  intro type _ gathered
  apply (places_directives _ _ _ gathered).bind
  intro directives _ gathered
  exact leads_spanned (gathered.node (.refl _) (by simp))

theorem places_enumValue :
    Places source enumValue fun definition => [definition.spanTree] := by
  apply Places.of_start
  intro origin gathered
  apply (leads_description gathered).bind
  intro description _ described
  apply described.leads_startAfter
  apply (places_name _ _ _ described.gathered).bind
  intro name _ gathered
  apply (places_directives _ _ _ gathered).bind
  intro directives _ gathered
  exact leads_spanned (gathered.node (.refl _) (by simp))

theorem places_introduced {introduction : TokenKind} (isToken : introduction ≠ .endOfInput)
    (separator : Punctuator) :
    Places source (introduced introduction separator) (List.map Name.spanTree) := by
  intro origin parts cursor gathered
  apply (leads_eat gathered isToken).bind
  intro eaten _ gathered
  refine leads_ite (fun _ => ?_) fun _ => Places.pure_nil rfl _ _ _ gathered
  refine (places_name.separated separator _ _ _ gathered).imp fun names _ gathered => ?_
  rwa [← List.map_eq_flatMap] at gathered

theorem places_typeBody (kind : TypeKind) :
    Places source (typeBody kind) fun found => found.2.spanTrees found.1 := by
  intro origin parts cursor gathered
  rw [typeBody_eq]
  cases kind with
  | object | interface =>
      apply (places_introduced (by nofun) .ampersand _ _ _ gathered).bind
      intro interfaces _ gathered
      apply (places_directives _ _ _ gathered).bind
      intro directives _ gathered
      apply (places_fieldDefinition.enclosedItems _ _ _ _ _ gathered).bind
      intro fields _ gathered
      apply leads_pure
      simpa only [List.append_assoc, TypeDefinition.Body.spanTrees] using gathered
  | union =>
      apply (places_directives _ _ _ gathered).bind
      intro directives _ gathered
      apply (places_introduced (by nofun) .pipe _ _ _ gathered).bind
      intro members _ gathered
      apply leads_pure
      rwa [List.append_assoc] at gathered
  | enum =>
      apply (places_directives _ _ _ gathered).bind
      intro directives _ gathered
      apply (places_enumValue.enclosedItems _ _ _ _ _ gathered).bind
      intro values _ gathered
      apply leads_pure
      rwa [List.append_assoc] at gathered
  | input =>
      apply (places_directives _ _ _ gathered).bind
      intro directives _ gathered
      apply (places_inputValue.enclosedItems _ _ _ _ _ gathered).bind
      intro fields _ gathered
      apply leads_pure
      rwa [List.append_assoc] at gathered
  | scalar => exact (places_directives _ _ _ gathered).bind fun _ _ gathered => leads_pure gathered

theorem leads_typeDefinition {description : Option Description}
    (described : Described source origin description cursor) :
    Leads origin cursor (typeDefinition description) fun definition next =>
      Gathered source origin [definition.spanTree] next := by
  apply described.leads_startAfter
  rw [leads_kind]
  split
  · exact leads_malformed described.gathered _
  · next kind found =>
      have visible : cursor.current.kind ≠ .endOfInput := by
        intro ended
        rw [ended] at found
        cases found
      apply (leads_advance described.gathered visible).bind
      intro _ _ gathered
      apply (places_name _ _ _ gathered).bind
      intro name _ gathered
      apply (places_typeBody kind _ _ _ gathered).bind
      rintro ⟨directives, body⟩ _ gathered
      exact leads_spanned (gathered.node (.refl _) (by simp))

theorem places_directiveLocation : Places source directiveLocation fun _ => [] := by
  intro origin parts cursor gathered
  rw [directiveLocation, leads_current]
  split
  · next isName _ =>
      apply (leads_advance gathered (by simp [isName])).bind
      intro _ _ gathered
      apply leads_pure
      rwa [List.append_nil]
  · exact leads_expected gathered _

theorem leads_directiveDefinition {description : Option Description}
    (described : Described source origin description cursor) :
    Leads origin cursor (directiveDefinition description) fun definition next =>
      Gathered source origin [definition.spanTree] next := by
  apply described.leads_startAfter
  apply (leads_expect described.gathered (by nofun)).bind
  intro _ _ gathered
  apply (leads_expect gathered (by nofun)).bind
  intro _ _ gathered
  apply (places_name _ _ _ gathered).bind
  intro name _ gathered
  apply (places_inputValue.enclosedItems _ _ _ _ _ gathered).bind
  intro arguments _ gathered
  apply (leads_eat gathered (by nofun)).bind
  intro repeatable _ gathered
  apply (leads_expect gathered (by nofun)).bind
  intro _ _ gathered
  apply (places_directiveLocation.separated .pipe _ _ _ gathered).bind
  intro locations _ gathered
  exact leads_spanned (gathered.node (List.sublist_append_left _ _) (by simp))

end TypeSystem

section Definitions

theorem places_variableDefinition :
    Places source variableDefinition fun definition => [definition.spanTree] := by
  apply Places.of_start
  intro origin gathered
  rw [variableDefinition_eq, leads_startOffset]
  apply (leads_expect gathered (by nofun)).bind
  intro _ _ gathered
  apply (places_name _ _ _ gathered).bind
  intro name _ gathered
  apply (leads_expect gathered (by nofun)).bind
  intro _ _ gathered
  apply (places_type _ _ _ gathered).bind
  intro type _ gathered
  apply (places_optionalDefault _ _ _ gathered).bind
  intro default _ gathered
  apply (places_directives _ _ _ gathered).bind
  intro directives _ gathered
  exact leads_spanned (gathered.node (.refl _) (by simp))

theorem leads_namedOperation (gathered : Gathered source origin [] origin)
    (visible : origin.current.kind ≠ .endOfInput) (operation : OperationType) :
    Leads origin origin (namedOperation operation) fun definition next =>
      Gathered source origin [definition.spanTree] next := by
  rw [namedOperation_eq, leads_startOffset]
  apply (leads_advance gathered visible).bind
  intro _ cursor gathered
  have name : Leads origin cursor optionalName fun found next =>
      Gathered source origin (found.toList.map Name.spanTree) next := by
    rw [optionalName, leads_kind]
    exact places_optional places_name _ _ _ gathered
  apply name.bind
  intro name _ gathered
  apply (places_variableDefinition.enclosedItems _ _ _ _ _ gathered).bind
  intro declared _ gathered
  apply (places_directives _ _ _ gathered).bind
  intro directives _ gathered
  apply (places_selectionSet _ _ _ gathered).bind
  intro set _ gathered
  exact leads_spanned (gathered.node (.refl _) (by simp))

theorem places_shorthandQuery :
    Places source shorthandQuery fun definition => [definition.spanTree] := by
  apply Places.of_start
  intro origin gathered
  rw [shorthandQuery, leads_startOffset]
  apply (places_selectionSet _ _ _ gathered).bind
  intro set _ gathered
  exact leads_spanned (gathered.node (.refl _) (by simp))

theorem places_fragmentDefinition :
    Places source fragmentDefinition fun definition => [definition.spanTree] := by
  apply Places.of_start
  intro origin gathered
  rw [fragmentDefinition_eq, leads_startOffset]
  apply (leads_expect gathered (by nofun)).bind
  intro _ _ gathered
  rw [leads_kind]
  refine leads_ite (fun _ => leads_malformed gathered _) fun _ => ?_
  apply (places_name _ _ _ gathered).bind
  intro name _ gathered
  apply (leads_expect gathered (by nofun)).bind
  intro _ _ gathered
  apply (places_name _ _ _ gathered).bind
  intro condition _ gathered
  apply (places_directives _ _ _ gathered).bind
  intro directives _ gathered
  apply (places_selectionSet _ _ _ gathered).bind
  intro set _ gathered
  exact leads_spanned (gathered.node (.refl _) (by simp))

/-- An executable definition or an extension starts behind a description, which it does not keep. -/
theorem Described.forgets {Part : Type} {description : Option Description} {read : Reading Part}
    {tree : Part → SpanTree} (described : Described source origin description cursor)
    (leads : Leads cursor cursor read fun part next => Gathered source cursor [tree part] next) :
    Leads origin cursor read fun part next => Gathered source origin [tree part] next :=
  (leads.after described.gathered).imp fun _ _ gathered =>
    gathered.sublist (List.sublist_append_right _ _)

theorem leads_describedDefinition {description : Option Description}
    (described : Described source origin description cursor) :
    Leads origin cursor (describedDefinition description) fun definition next =>
      Gathered source origin [definition.spanTree] next := by
  have start := described.gathered.refl_cursor
  have operation : ∀ operation : OperationType, cursor.current.kind ≠ .endOfInput →
      Leads origin cursor (Definition.operation <$> namedOperation operation) fun definition next =>
        Gathered source origin [definition.spanTree] next := by
    intro operation visible
    apply (described.forgets (leads_namedOperation start visible operation)).map
    exact fun _ _ gathered => gathered
  rw [describedDefinition, leads_kind]
  split
  · exact (leads_schemaDefinition described).map fun _ _ gathered => gathered
  · next same =>
      apply described.forgets
      apply (leads_advance start (by simp [same])).bind
      intro _ _ gathered
      have addition := leads_typeDefinition (described_none gathered.refl_cursor)
      exact (addition.after gathered).map fun _ _ gathered => gathered
  · exact (leads_directiveDefinition described).map fun _ _ gathered => gathered
  · next same => exact operation .query (by simp [same])
  · next same => exact operation .mutation (by simp [same])
  · next same => exact operation .subscription (by simp [same])
  · exact (described.forgets (places_shorthandQuery _ _ _ start)).map fun _ _ gathered => gathered
  · apply (described.forgets (places_fragmentDefinition _ _ _ start)).map
    exact fun _ _ gathered => gathered
  · refine leads_ite (fun _ => ?_) fun _ => leads_malformed described.gathered _
    exact (leads_typeDefinition described).map fun _ _ gathered => gathered

theorem places_definition : Places source definition fun definition => [definition.spanTree] := by
  apply Places.of_start
  intro origin gathered
  rw [definition_eq]
  exact (leads_description gathered).bind fun _ _ described => leads_describedDefinition described

end Definitions

end Reading

end WiredGraph
