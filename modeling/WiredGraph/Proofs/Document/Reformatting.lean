import WiredGraph.Proofs.Document.Parser.Agreement

/-!
# Documents with the same lexemes

Two sources that have the same lexemes are read alike. Their documents have the same operations and
fragments up to spans, and if one of them has a fault, the other has the same one where its own
lexemes stand.
-/

namespace WiredGraph

/-- Two definitions are the same up to spans if they are operations or fragments. -/
structure Definition.SameExecutable (definition other : Definition) : Prop where
  operation : definition.operation?.map (OperationDefinition.content id) =
    other.operation?.map (OperationDefinition.content id)
  fragment : definition.fragment?.map (FragmentDefinition.content id) =
    other.fragment?.map (FragmentDefinition.content id)

namespace Reading

section TypeSystem

theorem inStep_description : InStep description description := by
  apply agree_current.bind
  rintro ⟨kind, text, span⟩ ⟨_, _, otherSpan⟩ same
  obtain ⟨rfl, rfl⟩ := Lexeme.mk.inj same
  dsimp only
  split
  · apply (agree_quotedText _ _ _ _).bind
    rintro text _ rfl
    exact agree_advance.bind fun _ _ _ => agree_pure trivial
  · apply (agree_blockText _ _ _ _).bind
    rintro text _ rfl
    exact agree_advance.bind fun _ _ _ => agree_pure trivial
  · exact agree_pure trivial

theorem inStep_startAfter (description other : Option Description) :
    InStep (startAfter description) (startAfter other) := by
  intro _ _ same
  cases description <;> cases other <;> exact .ok ⟨trivial, same⟩

theorem inStep_rootOperationOf (start otherStart : Nat) (operation : OperationType) :
    InStep (rootOperationOf start operation) (rootOperationOf otherStart operation) := by
  apply agree_advance.bind
  intro _ _ _
  apply (agree_expect _).bind
  intro _ _ _
  apply placeless_name.bind
  intro _ _ _
  exact (inStep_spanFrom _ _).bind fun _ _ _ => agree_pure trivial

theorem inStep_rootOperation : InStep rootOperation rootOperation := by
  rw [rootOperation_eq]
  apply inStep_startOffset.bind
  intro start otherStart _
  apply agree_kind.bind
  rintro kind _ rfl
  split
  · exact inStep_rootOperationOf start otherStart .query
  · exact inStep_rootOperationOf start otherStart .mutation
  · exact inStep_rootOperationOf start otherStart .subscription
  · exact agree_malformed _

theorem inStep_schemaDefinition (description other : Option Description) :
    InStep (schemaDefinition description) (schemaDefinition other) := by
  apply (inStep_startAfter description other).bind
  intro _ _ _
  apply (agree_expect _).bind
  intro _ _ _
  apply placeless_directives.bind
  intro _ _ _
  apply (agree_expect _).bind
  intro _ _ _
  exact agree_spannedItems inStep_rootOperation _ _ _ fun _ _ _ _ _ => trivial

theorem placeless_optionalDefault :
    Placeless optionalDefault (Option.map (Value.content id)) := by
  apply (agree_eat _).bind
  rintro eaten _ rfl
  exact placeless_optional placeless_value

theorem inStep_inputValue : InStep inputValue inputValue := by
  rw [inputValue_eq]
  apply inStep_description.bind
  intro description other _
  apply (inStep_startAfter description other).bind
  intro _ _ _
  apply placeless_name.bind
  intro _ _ _
  apply (agree_expect _).bind
  intro _ _ _
  apply placeless_type.bind
  intro _ _ _
  apply placeless_optionalDefault.bind
  intro _ _ _
  apply placeless_directives.bind
  intro _ _ _
  exact (inStep_spanFrom _ _).bind fun _ _ _ => agree_pure trivial

theorem inStep_fieldDefinition : InStep fieldDefinition fieldDefinition := by
  apply inStep_description.bind
  intro description other _
  apply (inStep_startAfter description other).bind
  intro _ _ _
  apply placeless_name.bind
  intro _ _ _
  apply (agree_enclosedItems inStep_inputValue _ _).bind
  intro _ _ _
  apply (agree_expect _).bind
  intro _ _ _
  apply placeless_type.bind
  intro _ _ _
  apply placeless_directives.bind
  intro _ _ _
  exact (inStep_spanFrom _ _).bind fun _ _ _ => agree_pure trivial

theorem inStep_enumValue : InStep enumValue enumValue := by
  apply inStep_description.bind
  intro description other _
  apply (inStep_startAfter description other).bind
  intro _ _ _
  apply placeless_name.bind
  intro _ _ _
  apply placeless_directives.bind
  intro _ _ _
  exact (inStep_spanFrom _ _).bind fun _ _ _ => agree_pure trivial

theorem inStep_introduced (introduction : TokenKind) (separator : Punctuator) :
    InStep (introduced introduction separator) (introduced introduction separator) := by
  apply (agree_eat _).bind
  rintro eaten _ rfl
  exact agree_ite (fun _ => (agree_separated placeless_name _).inStep) fun _ => agree_pure trivial

theorem inStep_fieldsBody (body : List Name → List FieldDefinition → TypeDefinition.Body) :
    InStep (fieldsBody body) (fieldsBody body) := by
  apply (inStep_introduced _ _).bind
  intro _ _ _
  apply placeless_directives.bind
  intro _ _ _
  exact (agree_enclosedItems inStep_fieldDefinition _ _).bind fun _ _ _ => agree_pure trivial

theorem inStep_bracedBody {Item : Type} {item : Reading Item} (inStep : InStep item item)
    (body : List Item → TypeDefinition.Body) :
    InStep (bracedBody item body) (bracedBody item body) := by
  apply placeless_directives.bind
  intro _ _ _
  exact (agree_enclosedItems inStep _ _).bind fun _ _ _ => agree_pure trivial

theorem inStep_typeBody (kind : TypeKind) : InStep (typeBody kind) (typeBody kind) := by
  rw [typeBody_eq]
  cases kind with
  | object => exact inStep_fieldsBody .object
  | interface => exact inStep_fieldsBody .interface
  | union =>
      apply placeless_directives.bind
      intro _ _ _
      exact (inStep_introduced _ _).bind fun _ _ _ => agree_pure trivial
  | enum => exact inStep_bracedBody inStep_enumValue .enum
  | input => exact inStep_bracedBody inStep_inputValue .input
  | scalar => exact placeless_directives.bind fun _ _ _ => agree_pure trivial

theorem inStep_typeDefinition (description other : Option Description) :
    InStep (typeDefinition description) (typeDefinition other) := by
  apply (inStep_startAfter description other).bind
  intro _ _ _
  apply agree_kind.bind
  rintro kind _ rfl
  split
  · exact agree_malformed _
  · apply agree_advance.bind
    intro _ _ _
    apply placeless_name.bind
    intro _ _ _
    apply (inStep_typeBody _).bind
    rintro ⟨directives, body⟩ ⟨otherDirectives, otherBody⟩ _
    exact (inStep_spanFrom _ _).bind fun _ _ _ => agree_pure trivial

theorem inStep_directiveLocation : InStep directiveLocation directiveLocation := by
  apply agree_current.bind
  rintro ⟨kind, text, span⟩ ⟨_, _, otherSpan⟩ same
  obtain ⟨rfl, rfl⟩ := Lexeme.mk.inj same
  dsimp only
  split
  · exact agree_advance.bind fun _ _ _ => agree_pure trivial
  · exact agree_expected _

theorem inStep_directiveDefinition (description other : Option Description) :
    InStep (directiveDefinition description) (directiveDefinition other) := by
  apply (inStep_startAfter description other).bind
  intro _ _ _
  apply (agree_expect _).bind
  intro _ _ _
  apply (agree_expect _).bind
  intro _ _ _
  apply placeless_name.bind
  intro _ _ _
  apply (agree_enclosedItems inStep_inputValue _ _).bind
  intro _ _ _
  apply (agree_eat _).bind
  intro _ _ _
  apply (agree_expect _).bind
  intro _ _ _
  apply (agree_separated inStep_directiveLocation _).bind
  intro _ _ _
  exact (inStep_spanFrom _ _).bind fun _ _ _ => agree_pure trivial

end TypeSystem

section Definitions

theorem placeless_variableDefinition :
    Placeless variableDefinition (VariableDefinition.content id) := by
  rw [variableDefinition_eq]
  apply inStep_startOffset.bind
  intro _ _ _
  apply (agree_expect _).bind
  intro _ _ _
  apply placeless_name.bind
  intro name otherName sameName
  apply (agree_expect _).bind
  intro _ _ _
  apply placeless_type.bind
  intro type otherType sameType
  apply placeless_optionalDefault.bind
  intro default otherDefault sameDefault
  apply placeless_directives.bind
  intro directives otherDirectives sameDirectives
  exact (inStep_spanFrom _ _).bind fun _ _ _ => agree_pure (by
    simp only [VariableDefinition.content, sameName, sameType, sameDefault, sameDirectives])

theorem placeless_optionalName : Placeless optionalName (Option.map Name.content) := by
  apply agree_kind.bind
  rintro kind _ rfl
  exact placeless_optional placeless_name

theorem placeless_namedOperation (operation : OperationType) :
    Placeless (namedOperation operation) (OperationDefinition.content id) := by
  rw [namedOperation_eq]
  apply inStep_startOffset.bind
  intro _ _ _
  apply agree_advance.bind
  intro _ _ _
  apply placeless_optionalName.bind
  intro name otherName sameName
  apply (placeless_variableDefinition.enclosedItems _ _).bind
  intro declared otherDeclared sameDeclared
  apply placeless_directives.bind
  intro directives otherDirectives sameDirectives
  apply placeless_selectionSet.bind
  intro set otherSet sameSet
  exact (inStep_spanFrom _ _).bind fun _ _ _ => agree_pure (by
    simp only [OperationDefinition.content, sameName, sameDeclared, sameDirectives, sameSet])

theorem placeless_shorthandQuery : Placeless shorthandQuery (OperationDefinition.content id) := by
  apply inStep_startOffset.bind
  intro _ _ _
  apply placeless_selectionSet.bind
  intro set otherSet same
  exact (inStep_spanFrom _ _).bind fun _ _ _ =>
    agree_pure (by simp only [OperationDefinition.content, same])

theorem placeless_fragmentDefinition :
    Placeless fragmentDefinition (FragmentDefinition.content id) := by
  apply inStep_startOffset.bind
  intro _ _ _
  apply (agree_expect _).bind
  intro _ _ _
  apply agree_kind.bind
  rintro kind _ rfl
  refine agree_ite (fun _ => agree_malformed _) fun _ => ?_
  apply placeless_name.bind
  intro name otherName sameName
  apply (agree_expect _).bind
  intro _ _ _
  apply placeless_name.bind
  intro condition otherCondition sameCondition
  apply placeless_directives.bind
  intro directives otherDirectives sameDirectives
  apply placeless_selectionSet.bind
  intro set otherSet sameSet
  exact (inStep_spanFrom _ _).bind fun _ _ _ => agree_pure (by
    simp only [FragmentDefinition.content, sameName, sameCondition, sameDirectives, sameSet])

theorem agree_definition : Agree definition definition Definition.SameExecutable := by
  apply inStep_description.bind
  intro description other _
  apply agree_kind.bind
  rintro kind _ rfl
  split
  · exact (inStep_schemaDefinition description other).map fun _ _ _ => ⟨rfl, rfl⟩
  · exact agree_advance.bind fun _ _ _ =>
      (inStep_typeDefinition none none).map fun _ _ _ => ⟨rfl, rfl⟩
  · exact (inStep_directiveDefinition description other).map fun _ _ _ => ⟨rfl, rfl⟩
  · exact (placeless_namedOperation .query).map fun _ _ same => ⟨congrArg some same, rfl⟩
  · exact (placeless_namedOperation .mutation).map fun _ _ same => ⟨congrArg some same, rfl⟩
  · exact (placeless_namedOperation .subscription).map fun _ _ same => ⟨congrArg some same, rfl⟩
  · exact placeless_shorthandQuery.map fun _ _ same => ⟨congrArg some same, rfl⟩
  · exact placeless_fragmentDefinition.map fun _ _ same => ⟨rfl, congrArg some same⟩
  · refine agree_ite (fun _ => ?_) fun _ => agree_malformed _
    exact (inStep_typeDefinition description other).map fun _ _ _ => ⟨rfl, rfl⟩

/-- The definitions before the first fault are the same, and so is how reading ends. A definition
that both readings complete leaves them before the same lexemes again. -/
theorem definitionsUpTo_agree (bound : Nat) {cursor other : Cursor}
    (same : cursor.SameAhead other) :
    List.Forall₂ Definition.SameExecutable (definitionsUpTo bound cursor).1
        (definitionsUpTo bound other).1 ∧
      SameOutcome Halt.SameReason Cursor.SameAhead (definitionsUpTo bound cursor).2
        (definitionsUpTo bound other).2 := by
  induction bound generalizing cursor other with
  | zero => exact ⟨.nil, .ok same⟩
  | succ bound ih =>
      rw [definitionsUpTo, definitionsUpTo, same.kind]
      split
      · exact ⟨.nil, .ok same⟩
      · rcases SameOutcome.iff_exists.mp (agree_definition cursor other same) with
          ⟨halt, otherHalt, halted, otherHalted, sameReason⟩ |
          ⟨⟨first, next⟩, ⟨otherFirst, otherNext⟩, read, otherRead, sameFirst, sameNext⟩
        · rw [halted, otherHalted]
          exact ⟨.nil, .error sameReason⟩
        · rw [read, otherRead]
          rcases ih sameNext with ⟨rest, ends⟩
          exact ⟨.cons sameFirst rest, ends⟩

end Definitions

end Reading

/-- Two parsed documents are the same up to spans in their operations and fragments, and have the
same fault if any. -/
structure ParsedDocument.SameExecutable (parsed other : ParsedDocument) : Prop where
  definitions : List.Forall₂ Definition.SameExecutable parsed.document.definitions
    other.document.definitions
  fault : parsed.fault.map Diagnostic.content = other.fault.map Diagnostic.content

namespace Document

variable {source other : List Char}

theorem readDefinitions_agree (same : Scan.lexemes source = Scan.lexemes other) :
    List.Forall₂ Definition.SameExecutable (readDefinitions source).1 (readDefinitions other).1 ∧
      SameOutcome Halt.SameReason Cursor.SameAhead (readDefinitions source).2
        (readDefinitions other).2 := by
  have start : (startCursor source).SameAhead (startCursor other) := same
  rw [readDefinitions, readDefinitions]
  rcases SameOutcome.iff_exists.mp start.check with
    ⟨halt, otherHalt, halted, otherHalted, sameReason⟩ |
    ⟨cursor, otherCursor, checked, otherChecked, sameAhead⟩
  · rw [halted, otherHalted]
    exact ⟨.nil, .error sameReason⟩
  · rw [checked, otherChecked]
    dsimp only
    rw [sameAhead.length]
    exact Reading.definitionsUpTo_agree _ sameAhead

/-- Sources with the same lexemes are parsed alike. Only a fault has a finding as its reason, so
both readings end with one or neither does. -/
theorem parse_agree (same : Scan.lexemes source = Scan.lexemes other) :
    SameOutcome (fun _ _ => True) ParsedDocument.SameExecutable (parse source) (parse other) := by
  rcases readDefinitions_agree same with ⟨definitions, ends⟩
  rw [parse, parse]
  generalize readDefinitions source = read at definitions ends ⊢
  generalize readDefinitions other = otherRead at definitions ends ⊢
  rcases read with ⟨read, outcome⟩
  rcases otherRead with ⟨otherRead, otherOutcome⟩
  cases ends with
  | ok _ => exact .ok ⟨definitions, rfl⟩
  | error sameReason =>
      rename_i halt otherHalt
      cases halt <;> cases otherHalt
      · exact .ok ⟨definitions, sameReason⟩
      · cases sameReason
      · cases sameReason
      · exact .error trivial

end Document

end WiredGraph
