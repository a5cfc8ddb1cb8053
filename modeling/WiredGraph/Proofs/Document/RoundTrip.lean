import WiredGraph.Proofs.Document.Parser.Completeness
import WiredGraph.Proofs.Document.Parser.Soundness
import WiredGraph.Proofs.Document.Printing

/-!
# Printing and reading again

A document of operations and fragments that is printed can be read again, and nothing but its spans
has changed. What is read from a source is well-formed, so its printed form spells its lexemes, and
these are read as the definitions that they were taken from. Block strings are left out: the printer
indents no block string, but the reader may take indentation off one.
-/

namespace WiredGraph

section BlockStrings

mutual

/-- Whether a value is or holds a block string. -/
def Value.hasBlock : Value → Bool
  | .string _ block _ => block
  | .list items _ => Value.anyBlock items
  | .object fields _ => ObjectField.anyBlock fields
  | _ => false

/-- Whether one of some values has a block string. -/
def Value.anyBlock : List Value → Bool
  | [] => false
  | value :: rest => value.hasBlock || Value.anyBlock rest

/-- Whether one of some fields of an object value has a block string. -/
def ObjectField.anyBlock : List ObjectField → Bool
  | [] => false
  | .mk _ value _ :: rest => value.hasBlock || ObjectField.anyBlock rest

end

/-- Whether an argument has a block string. -/
def Argument.hasBlock (argument : Argument) : Bool := argument.value.hasBlock

/-- Whether an argument of a directive has a block string. -/
def Directive.hasBlock (directive : Directive) : Bool := directive.arguments.any Argument.hasBlock

mutual

/-- Whether a selection has a block string. -/
def Selection.hasBlock : Selection → Bool
  | .field _ _ arguments directives none _ =>
      arguments.any Argument.hasBlock || directives.any Directive.hasBlock
  | .field _ _ arguments directives (some set) _ =>
      (arguments.any Argument.hasBlock || directives.any Directive.hasBlock) || set.hasBlock
  | .spread _ directives _ => directives.any Directive.hasBlock
  | .inline _ directives set _ => directives.any Directive.hasBlock || set.hasBlock

/-- Whether a selection set has a block string. -/
def SelectionSet.hasBlock : SelectionSet → Bool
  | .mk selections _ => Selection.anyBlock selections

/-- Whether one of some selections has a block string. -/
def Selection.anyBlock : List Selection → Bool
  | [] => false
  | selection :: rest => selection.hasBlock || Selection.anyBlock rest

end

/-- Whether a variable of an operation has a block string. -/
def VariableDefinition.hasBlock (definition : VariableDefinition) : Bool :=
  definition.default.any Value.hasBlock || definition.directives.any Directive.hasBlock

/-- Whether an operation has a block string. -/
def OperationDefinition.hasBlock (definition : OperationDefinition) : Bool :=
  (definition.variableDefinitions.any VariableDefinition.hasBlock ||
    definition.directives.any Directive.hasBlock) || definition.set.hasBlock

/-- Whether a fragment has a block string. -/
def FragmentDefinition.hasBlock (definition : FragmentDefinition) : Bool :=
  definition.directives.any Directive.hasBlock || definition.set.hasBlock

/-- Whether there is a block string in an operation or a fragment. -/
def Definition.hasBlock : Definition → Bool
  | .operation definition => definition.hasBlock
  | .fragment definition => definition.hasBlock
  | _ => false

/-- Whether there is a block string in the operations and fragments of a document. -/
def Document.hasBlock (document : Document) : Bool := document.definitions.any Definition.hasBlock

@[simp]
theorem Value.anyBlock_eq_any (values : List Value) :
    Value.anyBlock values = values.any Value.hasBlock := by
  induction values with
  | nil => rfl
  | cons value rest ih => rw [Value.anyBlock, ih, List.any_cons]

@[simp]
theorem ObjectField.anyBlock_eq_any (fields : List ObjectField) :
    ObjectField.anyBlock fields = fields.any fun field => field.value.hasBlock := by
  induction fields with
  | nil => rfl
  | cons field rest ih =>
      rcases field with ⟨name, value, span⟩
      rw [ObjectField.anyBlock, ih, List.any_cons]
      rfl

@[simp]
theorem Selection.anyBlock_eq_any (selections : List Selection) :
    Selection.anyBlock selections = selections.any Selection.hasBlock := by
  induction selections with
  | nil => rfl
  | cons selection rest ih => rw [Selection.anyBlock, ih, List.any_cons]

end BlockStrings

section WithoutBlocks

/-- What may have block strings but has none is well-formed without them, item by item. -/
theorem forall_wellFormed_of_any {Item : Type} {items : List Item} {hasBlock : Item → Bool}
    {Allowing Refusing : Item → Prop}
    (noBlock : items.any hasBlock = false) (allowing : ∀ item ∈ items, Allowing item)
    (each : ∀ item ∈ items, Allowing item → hasBlock item = false → Refusing item) :
    ∀ item ∈ items, Refusing item := by
  intro item item_mem
  rw [List.any_eq_false] at noBlock
  exact each item item_mem (allowing item item_mem) (by simpa using noBlock item item_mem)

theorem Value.WellFormed.withoutBlocks {value : Value} (wellFormed : value.WellFormed True)
    (noBlock : value.hasBlock = false) : value.WellFormed False := by
  induction wellFormed with
  | var name => exact .var name
  | int digits => exact .int digits
  | float digits => exact .float digits
  | string => exact .string fun block => by simp [hasBlock, block] at noBlock
  | boolean value span => exact .boolean value span
  | null span => exact .null span
  | enum name noWord => exact .enum name noWord
  | list allowing ih =>
      rw [hasBlock, anyBlock_eq_any] at noBlock
      exact .list (forall_wellFormed_of_any noBlock allowing fun item item_mem _ =>
        ih item item_mem)
  | object names allowing ih =>
      rw [hasBlock, ObjectField.anyBlock_eq_any] at noBlock
      exact .object names (forall_wellFormed_of_any noBlock allowing fun field field_mem _ =>
        ih field field_mem)

theorem Argument.WellFormed.withoutBlocks {argument : Argument}
    (wellFormed : argument.WellFormed True) (noBlock : argument.hasBlock = false) :
    argument.WellFormed False where
  name := wellFormed.name
  value := wellFormed.value.withoutBlocks noBlock

theorem Directive.WellFormed.withoutBlocks {directive : Directive}
    (wellFormed : directive.WellFormed True) (noBlock : directive.hasBlock = false) :
    directive.WellFormed False where
  name := wellFormed.name
  arguments := forall_wellFormed_of_any noBlock wellFormed.arguments fun _ _ =>
    Argument.WellFormed.withoutBlocks

theorem Directive.forall_withoutBlocks {directives : List Directive}
    (wellFormed : ∀ directive ∈ directives, directive.WellFormed True)
    (noBlock : directives.any Directive.hasBlock = false) :
    ∀ directive ∈ directives, directive.WellFormed False :=
  forall_wellFormed_of_any noBlock wellFormed fun _ _ => Directive.WellFormed.withoutBlocks

theorem Selection.FieldWellFormed.withoutBlocks {aliasName : Option Name} {name : Name}
    {arguments : List Argument} {directives : List Directive}
    (wellFormed : FieldWellFormed True aliasName name arguments directives)
    (noBlock : (arguments.any Argument.hasBlock || directives.any Directive.hasBlock) = false) :
    FieldWellFormed False aliasName name arguments directives := by
  rw [Bool.or_eq_false_iff] at noBlock
  refine ⟨wellFormed.aliasName, wellFormed.name, ?_,
    Directive.forall_withoutBlocks wellFormed.directives noBlock.2⟩
  exact forall_wellFormed_of_any noBlock.1 wellFormed.arguments fun _ _ =>
    Argument.WellFormed.withoutBlocks

theorem Selection.WellFormed.withoutBlocks {selection : Selection}
    (wellFormed : selection.WellFormed True) (noBlock : selection.hasBlock = false) :
    selection.WellFormed False := by
  induction wellFormed with
  | leaf head => exact .leaf (head.withoutBlocks noBlock)
  | field head allowing ih =>
      rw [hasBlock, Bool.or_eq_false_iff, SelectionSet.hasBlock, anyBlock_eq_any] at noBlock
      exact .field (head.withoutBlocks noBlock.1)
        (forall_wellFormed_of_any noBlock.2 allowing fun inner inner_mem _ => ih inner inner_mem)
  | spread name directives =>
      exact .spread name (Directive.forall_withoutBlocks directives noBlock)
  | inline condition directives allowing ih =>
      rw [hasBlock, Bool.or_eq_false_iff, SelectionSet.hasBlock, anyBlock_eq_any] at noBlock
      exact .inline condition (Directive.forall_withoutBlocks directives noBlock.1)
        (forall_wellFormed_of_any noBlock.2 allowing fun inner inner_mem _ => ih inner inner_mem)

theorem SelectionSet.WellFormed.withoutBlocks {set : SelectionSet}
    (wellFormed : set.WellFormed True) (noBlock : set.hasBlock = false) :
    set.WellFormed False := by
  rcases set with ⟨selections, span⟩
  rw [SelectionSet.hasBlock, Selection.anyBlock_eq_any] at noBlock
  exact forall_wellFormed_of_any noBlock wellFormed fun _ _ => Selection.WellFormed.withoutBlocks

theorem VariableDefinition.WellFormed.withoutBlocks {definition : VariableDefinition}
    (wellFormed : definition.WellFormed True) (noBlock : definition.hasBlock = false) :
    definition.WellFormed False := by
  rw [hasBlock, Bool.or_eq_false_iff] at noBlock
  refine ⟨wellFormed.name, wellFormed.type, ?_,
    Directive.forall_withoutBlocks wellFormed.directives noBlock.2⟩
  intro value value_mem
  refine (wellFormed.default value value_mem).withoutBlocks ?_
  rw [Option.mem_def.mp value_mem] at noBlock
  exact noBlock.1

theorem OperationDefinition.WellFormed.withoutBlocks {definition : OperationDefinition}
    (wellFormed : definition.WellFormed True) (noBlock : definition.hasBlock = false) :
    definition.WellFormed False := by
  simp only [hasBlock, Bool.or_eq_false_iff] at noBlock
  refine ⟨wellFormed.name, ?_, Directive.forall_withoutBlocks wellFormed.directives noBlock.1.2,
    wellFormed.set.withoutBlocks noBlock.2⟩
  exact forall_wellFormed_of_any noBlock.1.1 wellFormed.variableDefinitions fun _ _ =>
    VariableDefinition.WellFormed.withoutBlocks

theorem FragmentDefinition.WellFormed.withoutBlocks {definition : FragmentDefinition}
    (wellFormed : definition.WellFormed True) (noBlock : definition.hasBlock = false) :
    definition.WellFormed False := by
  rw [hasBlock, Bool.or_eq_false_iff] at noBlock
  exact ⟨wellFormed.name, wellFormed.condition,
    Directive.forall_withoutBlocks wellFormed.directives noBlock.1,
    wellFormed.set.withoutBlocks noBlock.2⟩

end WithoutBlocks

namespace Definition

/-- Whether a definition is an operation or a fragment. -/
def isExecutable : Definition → Bool
  | .operation _ | .fragment _ => true
  | _ => false

theorem wellFormed_of_good {definition : Definition}
    (good : Reading.GoodDefinition True definition) (executable : definition.isExecutable = true)
    (noBlock : definition.hasBlock = false) : definition.WellFormed False := by
  cases definition with
  | operation definition => exact OperationDefinition.WellFormed.withoutBlocks good noBlock
  | fragment definition => exact FragmentDefinition.WellFormed.withoutBlocks good noBlock
  | _ => cases executable

theorem WellFormed.prints {definition : Definition} (wellFormed : definition.WellFormed False) :
    Scan.Prints definition.print definition.lexemes := by
  cases definition with
  | operation definition => exact OperationDefinition.WellFormed.prints wellFormed
  | fragment definition => exact FragmentDefinition.WellFormed.prints wellFormed
  | _ => exact wellFormed.elim

end Definition

namespace Document

/-- Whether two documents have the same definitions in the same order, wherever these stand. -/
def SameUpToSpans (document other : Document) : Prop :=
  document.definitions.map (Definition.content id) = other.definitions.map (Definition.content id)

theorem SameUpToSpans.print_eq {document other : Document} (same : document.SameUpToSpans other) :
    document.print = other.print := by
  have printed : ∀ definitions : List Definition,
      (definitions.map (Definition.content id)).map Definition.print =
        definitions.map Definition.print := by
    intro definitions
    rw [List.map_map]
    exact List.map_congr_left fun definition _ => definition.print_content
  rw [Document.print, ← printed, same, printed, Document.print]

/-- A text that a document of operations and fragments is printed as spells their lexemes. -/
theorem spells_print {document : Document}
    (wellFormed : ∀ definition ∈ document.definitions, definition.WellFormed False) :
    Scan.Spells document.print (document.definitions.map Definition.lexemes).flatten :=
  (Layout.prints_join (by decide) (fun _ => Scan.keepsApart_cons (by decide))
    fun definition definition_mem => (wellFormed definition definition_mem).prints).spells

/-- A source that is read as a document of operations and fragments without block strings has a
printed form that is read without a fault, as the same document up to spans. Printing that again
gives the same text. -/
theorem parse_print {source : List Char} {document : Document}
    (parsed : parse source = .ok ⟨document, none⟩)
    (executable : ∀ definition ∈ document.definitions, definition.isExecutable = true)
    (noBlock : document.hasBlock = false) :
    ∃ again, parse document.print = .ok ⟨again, none⟩ ∧ again.SameUpToSpans document ∧
      again.print = document.print := by
  have wellFormed : ∀ definition ∈ document.definitions, definition.WellFormed False := by
    intro definition definition_mem
    rw [hasBlock, List.any_eq_false] at noBlock
    apply Definition.wellFormed_of_good _ (executable definition definition_mem)
    · simpa using noBlock definition definition_mem
    · exact good_of_parse (fun _ _ _ => trivial) parsed definition definition_mem
  rcases parse_of_spells wellFormed (spells_print wellFormed) with ⟨found, span, read, same⟩
  have sameDocument : SameUpToSpans ⟨found, span⟩ document := same
  exact ⟨⟨found, span⟩, read, sameDocument, sameDocument.print_eq⟩

/-- A query that uses keywords as names, and a fragment and a plain query after it. -/
def keywordQuery : List Char :=
  ("query type($on: [Int!]! = [-1, 2.50e3] @a) @live " ++
    "\x7b on: query(s: \"a\\\"\\u0041\", o: \x7bnull: E\x7d) \x7b \x7d ... on on @b \x7b x \x7d " ++
    "...type \x7d fragment type on on \x7b \x7d \x7b y \x7d").toList

theorem parse_print_keywordQuery :
    ∃ document, parse keywordQuery = .ok ⟨document, none⟩ ∧ document.definitions.length = 3 ∧
      (∀ definition ∈ document.definitions, definition.isExecutable = true) ∧
      document.hasBlock = false ∧
      ∃ again, parse document.print = .ok ⟨again, none⟩ ∧ again.SameUpToSpans document ∧
        again.print = document.print := by
  have read : (match parse keywordQuery with
      | .ok result => result.fault.isNone && (result.document.definitions.length == 3 &&
          (result.document.definitions.all Definition.isExecutable && !result.document.hasBlock))
      | .error _ => false) = true := by decide +kernel
  split at read
  · next result parsed =>
      rcases result with ⟨document, fault⟩
      simp only [Bool.and_eq_true, beq_iff_eq, List.all_eq_true, Bool.not_eq_true',
        Option.isNone_iff_eq_none] at read
      rcases read with ⟨rfl, length, executable, noBlock⟩
      exact ⟨document, parsed, length, executable, noBlock,
        parse_print parsed executable noBlock⟩
  · cases read

end Document

end WiredGraph
