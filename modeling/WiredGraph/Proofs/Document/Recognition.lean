import WiredGraph.Proofs.Document.Parser.Derivation

/-!
# Recognizing executable documents

The sources that are read without a fault as operations and fragments are those whose lexemes derive
from the grammar of executable documents, and what is read is what is derived, up to spans. Sources
with block strings are left out, as the grammar has none.
-/

namespace WiredGraph

open Grammar

theorem Definition.isExecutable_content (read : String → String) (definition : Definition) :
    (definition.content read).isExecutable = definition.isExecutable := by
  cases definition <;> rfl

theorem Definition.DescribedFrom.isExecutable {definition : Definition} {lexemes : List Lexeme}
    (derived : definition.DescribedFrom lexemes) : definition.isExecutable = true := by
  cases derived with
  | plain derived => cases derived <;> rfl
  | described _ derived => cases derived <;> rfl

namespace Document

variable {source : List Char} {definitions : List Definition}

theorem DerivedFrom.isExecutable {lexemes : List Lexeme}
    (derived : Document.DerivedFrom definitions lexemes) :
    ∀ definition ∈ definitions, definition.isExecutable = true := by
  rw [Document.DerivedFrom] at derived
  induction derived with
  | nil => simp
  | cons here _ ih => exact List.forall_mem_cons.mpr ⟨here.isExecutable, ih⟩

theorem plain_startCursor (noBlock : ∀ token ∈ Scan.tokens source, token.kind ≠ .blockString) :
    (startCursor source).Plain where
  scanned lexeme lexeme_mem := (Scan.isScanned_of_mem_lexemes source lexeme lexeme_mem).1
  goesOn lexeme lexeme_mem := (Scan.isScanned_of_mem_lexemes source lexeme lexeme_mem).2
  noBlock := List.forall_mem_map.mpr noBlock

/-- A source that is read without a fault has been read to the end. -/
theorem readDefinitions_of_parse {document : Document}
    (parsed : parse source = .ok ⟨document, none⟩) :
    ∃ last, Reading.definitionsUpTo (startCursor source).ahead.length (startCursor source) =
      (document.definitions, .ok last) := by
  rw [parse] at parsed
  split at parsed
  · next found last read =>
      cases parsed
      rw [readDefinitions, Cursor.check] at read
      split at read
      · next halted =>
          split at halted
          · split at halted <;> cases read
          · cases halted
      · next cursor checked =>
          split at checked
          · split at checked <;> cases checked
          · cases checked
            exact ⟨last, read⟩
  · cases parsed
  · cases parsed

/-- A source without block strings is read without a fault as operations and fragments if and only
if it has no invalid token, every text in it can be decoded, and its lexemes derive from the grammar
of executable documents. What is read is then what is derived. -/
theorem parse_iff_derivedFrom
    (noBlock : ∀ token ∈ Scan.tokens source, token.kind ≠ .blockString)
    (definitions : List Definition) :
    (∃ document, parse source = .ok ⟨document, none⟩ ∧
        (∀ definition ∈ document.definitions, definition.isExecutable = true) ∧
        document.definitions.map (Definition.content id) = definitions) ↔
      (∀ token ∈ Scan.tokens source, token.kind ≠ .invalid) ∧
        (∀ token ∈ Scan.tokens source, token.kind = .string →
          (Quoted.decodeToken? token.text.toList).isSome = true) ∧
        Document.DerivedFrom definitions (Scan.lexemes source) := by
  have plain := plain_startCursor noBlock
  constructor
  · rintro ⟨document, parsed, executable, rfl⟩
    rcases readDefinitions_of_parse parsed with ⟨last, read⟩
    have enough : (startCursor source).lexemes.length ≤ (startCursor source).ahead.length := by
      rw [Cursor.lexemes, List.length_map]
    rcases Reading.derived_of_definitionsUpTo plain enough read executable with ⟨isRead, derived⟩
    refine ⟨fun token token_mem => ?_, fun token token_mem => ?_, derived⟩
    · exact (isRead token.lexeme (List.mem_map_of_mem token_mem)).valid
    · exact (isRead token.lexeme (List.mem_map_of_mem token_mem)).decodes
  · rintro ⟨noInvalid, -, derived⟩
    have valid : ∀ lexeme ∈ Scan.lexemes source, lexeme.IsValid := by
      refine List.forall_mem_map.mpr ?_
      intro token token_mem
      exact ⟨noInvalid token token_mem,
        plain.goesOn token.lexeme (List.mem_map_of_mem token_mem)⟩
    rcases parse_of_derivedFrom valid derived with ⟨found, span, parsed, same⟩
    refine ⟨⟨found, span⟩, parsed, fun definition definition_mem => ?_, same⟩
    rw [← definition.isExecutable_content id]
    apply derived.isExecutable
    rw [← same]
    exact List.mem_map_of_mem definition_mem

/-- A query with a text in front of it and with empty parentheses, keywords as names, and after it
a fragment and a plain query. -/
def describedQuery : List Char :=
  ("\"q\" query on($type: [Int!]! = [-1, 2.5e3] @a()) @live " ++
    "\x7b on: query(s: \"\\u0041\", o: \x7bnull: E\x7d) \x7b \x7d ... on on @b \x7b x() \x7d " ++
    "...type \x7d fragment type on on \x7b \x7d \x7b y \x7d").toList

theorem parse_iff_derivedFrom_describedQuery :
    (∀ token ∈ Scan.tokens describedQuery, token.kind ≠ .blockString) ∧
      ∃ definitions, definitions.length = 3 ∧
        (∃ document, parse describedQuery = .ok ⟨document, none⟩ ∧
          (∀ definition ∈ document.definitions, definition.isExecutable = true) ∧
          document.definitions.map (Definition.content id) = definitions) ∧
        Document.DerivedFrom definitions (Scan.lexemes describedQuery) := by
  have noBlock : ∀ token ∈ Scan.tokens describedQuery, token.kind ≠ .blockString := by
    decide +kernel
  have read : (match parse describedQuery with
      | .ok result => result.fault.isNone && (result.document.definitions.length == 3 &&
          result.document.definitions.all Definition.isExecutable)
      | .error _ => false) = true := by decide +kernel
  split at read
  · next result parsed =>
      rcases result with ⟨document, fault⟩
      simp only [Bool.and_eq_true, beq_iff_eq, List.all_eq_true,
        Option.isNone_iff_eq_none] at read
      rcases read with ⟨rfl, length, executable⟩
      refine ⟨noBlock, document.definitions.map (Definition.content id), ?_,
        ⟨document, parsed, executable, rfl⟩, ?_⟩
      · rw [List.length_map, length]
      · exact ((parse_iff_derivedFrom noBlock _).mp ⟨document, parsed, executable, rfl⟩).2.2
  · cases read

end Document

end WiredGraph
