import WiredGraph.Proofs.Document.Parser.Soundness
import WiredGraph.Proofs.Document.TypeSystem.Completeness
import WiredGraph.Proofs.Document.TypeSystem.Printing

/-!
# Printing and reading documents with type-system definitions again

A document in which definitions of the type system stand, alone or with operations and fragments,
can be printed and read again in two respects only with care: the descriptions of arguments are not
printed, and an empty block is left out, so a selection set right after it would be taken for the
block. Everything else comes back as it was, up to spans.
-/

namespace WiredGraph

namespace Document

/-- A source without block strings that is read without a fault has a printed form that is read
without a fault as well, as long as no plain query follows a type with an empty block. What is read
then is the document without the descriptions of its arguments, up to spans, so it is the document
itself exactly if no argument in it has a description. -/
theorem parse_print_of_keepsBlocksApart {source : List Char} {document : Document}
    (parsed : parse source = .ok ⟨document, none⟩)
    (noBlock : ∀ token ∈ Scan.tokens source, token.kind ≠ .blockString)
    (apart : document.KeepsBlocksApart) :
    ∃ again, parse document.print = .ok ⟨again, none⟩ ∧
      again.SameContent document.argumentsUndescribed ∧
        (again.SameContent document ↔ document.describesArgument = false) := by
  have writable : ∀ definition ∈ document.definitions, definition.Writable False :=
    writable_of_parse noBlock parsed
  have spells := spells_writtenLexemes writable
  have derived := writtenFrom_lexemes writable apart
  rw [← spells.lexemes_eq] at derived
  rcases parse_of_writtenFrom (spells.lexemes_eq ▸ spells.valid) derived with
    ⟨found, span, read, same⟩
  have sameContent : SameContent ⟨found, span⟩ document.argumentsUndescribed := by
    rw [SameContent, same, argumentsUndescribed, List.map_map]
    rfl
  refine ⟨⟨found, span⟩, read, sameContent, ?_⟩
  rw [← sameContent_argumentsUndescribed_iff, SameContent, sameContent, SameContent]

/-- Definitions with descriptions and an argument without one, an empty block that is left out, and
a plain query. -/
def describedTypes : List Char :=
  ("schema @a \x7bquery: type\x7d \"Q\" type type implements & N " ++
    "\x7b\"f\" f(a: [I!]! = 1 @d): I @e\x7d interface N \x7b\x7d extend union U = | type " ++
    "enum E \x7b\"x\" on\x7d " ++
    "directive @l(a: I = \x7ba: A\x7d) repeatable on FIELD \x7bf\x7d").toList

theorem parse_print_of_keepsBlocksApart_describedTypes :
    ∃ document, parse describedTypes = .ok ⟨document, none⟩ ∧ document.definitions.length = 7 ∧
      document.describesArgument = false ∧
      ∃ again, parse document.print = .ok ⟨again, none⟩ ∧ again.SameContent document := by
  have read : (match parse describedTypes with
      | .ok result => result.fault.isNone && (result.document.definitions.length == 7 &&
          (!result.document.describesArgument && decide result.document.KeepsBlocksApart))
      | .error _ => false) = true := by decide +kernel
  have noBlock : ∀ token ∈ Scan.tokens describedTypes, token.kind ≠ .blockString := by
    decide +kernel
  split at read
  · next result parsed =>
      rcases result with ⟨document, fault⟩
      simp only [Bool.and_eq_true, beq_iff_eq, Bool.not_eq_true', Option.isNone_iff_eq_none,
        decide_eq_true_eq] at read
      rcases read with ⟨rfl, length, undescribed, apart⟩
      rcases parse_print_of_keepsBlocksApart parsed noBlock apart with ⟨again, reread, -, same⟩
      exact ⟨document, parsed, length, undescribed, again, reread, same.mpr undescribed⟩
  · cases read

end Document

end WiredGraph
