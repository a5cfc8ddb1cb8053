import WiredGraph.Proofs.Document.Continuation
import WiredGraph.Proofs.Literal.BlockLayout

/-!
# Where the indentation of block strings is cut

The indentation that is cut from the lines of a block string is measured on lines that are not
blank, and each of these begins with as many spaces and tabs. It is cut from blank lines as well,
and blanks may be longer than one byte: the cut is within such a line, but a blank may lie across
it. Only then has the block string no value, and only at such a block string does a source have no
document.
-/

namespace WiredGraph

namespace BlockString

open Text (isBlankLine)
open Utf8 (LiesAcross)

variable {line cut : List Char} {lines : List (List Char)} {indent : Nat}

/-- What is left of a line: all of it if it is too short, and else what stands behind its first
bytes. -/
theorem cutIndent?_eq_some_iff :
    cutIndent? indent line = some cut ↔
      Utf8.length line < indent ∧ cut = line ∨
        ∃ front, line = front ++ cut ∧ Utf8.length front = indent := by
  rw [cutIndent?]
  split
  · next short =>
      rw [Option.some.injEq]
      constructor
      · exact fun same => .inl ⟨short, same.symm⟩
      · rintro (⟨-, same⟩ | ⟨front, rfl, rfl⟩)
        · exact same.symm
        · rw [Utf8.length_append] at short
          omega
  · next long =>
      rw [Option.map_eq_some_iff]
      constructor
      · rintro ⟨⟨front, back⟩, found, rfl⟩
        exact .inr ⟨front, Utf8.splitAt?_eq_some found⟩
      · rintro (⟨short, -⟩ | ⟨front, rfl, rfl⟩)
        · exact absurd short long
        · exact ⟨_, Utf8.splitAt?_length_append front cut, rfl⟩

/-- A line cannot be cut where a character lies across the cut. -/
theorem cutIndent?_eq_none_iff : cutIndent? indent line = none ↔ LiesAcross line indent := by
  rw [cutIndent?]
  split
  · next short =>
      refine iff_of_false (Option.some_ne_none _) ?_
      rintro ⟨before, char, after, rfl, -, ends⟩
      rw [Utf8.length_append, Utf8.length_cons] at short
      omega
  · next long => rw [Option.map_eq_none_iff, Utf8.splitAt?_eq_none_iff, or_iff_right long]

/-- A line that is not blank begins with the shared indentation. -/
theorem exists_indentation (line_mem : line ∈ lines.tail) (visible : isBlankLine line = false) :
    ∃ front back, line = front ++ back ∧ (∀ char ∈ front, isIndent char = true) ∧
      Utf8.length front = commonIndent lines := by
  rcases exists_indented_append (commonIndent_le line_mem visible) with
    ⟨front, back, whole, size, indented⟩
  exact ⟨front, back, whole, indented, by rw [length_indented indented, size]⟩

theorem mapM_eq_none_iff {Item Result : Type} {step : Item → Option Result} {items : List Item} :
    items.mapM step = none ↔ ∃ item ∈ items, step item = none := by
  induction items with
  | nil => simp
  | cons item items ih =>
      simp only [List.mapM_cons, Option.bind_eq_bind, Option.pure_def, List.exists_mem_cons_iff]
      cases here : step item with
      | none => simp
      | some result =>
          rw [← ih]
          cases items.mapM step <;> simp

theorem cutLines?_eq_none_iff :
    cutLines? indent lines = none ↔ ∃ line ∈ lines.tail, LiesAcross line indent := by
  cases lines with
  | nil => simp [cutLines?]
  | cons first later =>
      have cuts : later.mapM (cutIndent? indent) = none ↔
          ∃ line ∈ later, LiesAcross line indent := by
        simp only [mapM_eq_none_iff, cutIndent?_eq_none_iff]
      rw [List.tail_cons, ← cuts, cutLines?]
      cases later.mapM (cutIndent? indent) <;> simp

/-- Nothing lies across the edge of the indentation in a line that is not blank. -/
theorem isBlankLine_of_liesAcross (line_mem : line ∈ lines.tail)
    (across : LiesAcross line (commonIndent lines)) : isBlankLine line = true := by
  rw [← Bool.not_eq_false]
  intro visible
  rcases exists_indentation line_mem visible with ⟨front, back, rfl, -, size⟩
  exact across.not_boundary ⟨front, back, rfl, size⟩

/-- A block string has no value if and only if a blank of one of its blank lines, other than the
first line, lies across the edge of the indentation. -/
theorem decodeToken?_eq_none_iff (raw : List Char) :
    decodeToken? raw = none ↔ ∃ line ∈ (Text.lines (body raw)).tail, isBlankLine line = true ∧
      LiesAcross line (commonIndent (Text.lines (body raw))) := by
  have uncut : decodeToken? raw = none ↔
      cutLines? (commonIndent (Text.lines (body raw))) (Text.lines (body raw)) = none := by
    rw [decodeToken?]
    cases cutLines? (commonIndent (Text.lines (body raw))) (Text.lines (body raw)) <;> simp
  rw [uncut, cutLines?_eq_none_iff]
  constructor
  · rintro ⟨line, line_mem, across⟩
    exact ⟨line, line_mem, isBlankLine_of_liesAcross line_mem across, across⟩
  · rintro ⟨line, line_mem, -, across⟩
    exact ⟨line, line_mem, across⟩

/-- Blanks of one byte do not lie across anything. -/
theorem not_liesAcross (short : ∀ char ∈ line, char.utf8Size = 1) (offset : Nat) :
    ¬LiesAcross line offset := by
  rintro ⟨before, char, after, rfl, starts, ends⟩
  rw [short char (by simp)] at ends
  omega

end BlockString

namespace Document

open BlockString
open Text (isBlankLine)
open Utf8 (LiesAcross)

/-- A source has no document only if one of its block strings has no value. -/
theorem exists_isMisaligned_of_parse {source : List Char} {block : MisalignedBlock}
    (failed : parse source = .error block) :
    ∃ token ∈ Scan.tokens source, token.IsMisaligned ∧ token.span = block.span := by
  have stopped : (readDefinitions source).2 = .error (.misalignedBlock block.span) := by
    rw [parse] at failed
    split at failed
    · cases failed
    · cases failed
    · next read =>
        cases failed
        rw [read]
  rw [readDefinitions] at stopped
  split at stopped
  · next checked =>
      cases stopped
      exact absurd checked (Cursor.check_ne_misaligned _ _)
  · next cursor checked =>
      obtain ⟨rfl, -⟩ := Cursor.eq_of_check checked
      exact Reading.misaligned_of_definitionsUpTo stopped

/-- From every line of a block string that is not blank, except for the first one, the shared
indentation is cut as so many spaces and tabs. It is cut from blank lines by its width in bytes, and
the block string has no value exactly if a blank of such a line lies across the cut, which no blank
of one byte does. Every source has a document unless a block string in it has no value. -/
theorem blockStrings_cut (source : List Char) :
    (∀ raw lines, Text.lines (body raw) = lines →
      (∀ line ∈ lines.tail, isBlankLine line = false →
        ∃ front back, line = front ++ back ∧ (∀ char ∈ front, isIndent char = true) ∧
          Utf8.length front = commonIndent lines ∧
          cutIndent? (commonIndent lines) line = some back) ∧
      (decodeToken? raw = none ↔ ∃ line ∈ lines.tail, isBlankLine line = true ∧
        LiesAcross line (commonIndent lines)) ∧
      ((∀ line ∈ lines.tail, isBlankLine line = true → ∀ char ∈ line, char.utf8Size = 1) →
        ∃ value, decodeToken? raw = some value)) ∧
    ∀ block, parse source = .error block → ∃ token ∈ Scan.tokenize source,
      token.span = block.span ∧ token.kind = .blockString ∧
        decodeToken? token.text.toList = none := by
  refine ⟨?_, fun block failed => ?_⟩
  · rintro raw _ rfl
    refine ⟨fun line line_mem visible => ?_, decodeToken?_eq_none_iff raw, fun short => ?_⟩
    · rcases exists_indentation line_mem visible with ⟨front, back, whole, indented, size⟩
      exact ⟨front, back, whole, indented, size,
        cutIndent?_eq_some_iff.mpr (.inr ⟨front, whole, size⟩)⟩
    · rw [← Option.ne_none_iff_exists', Ne, decodeToken?_eq_none_iff]
      rintro ⟨line, line_mem, blank, across⟩
      exact not_liesAcross (short line line_mem blank) _ across
  · rcases exists_isMisaligned_of_parse failed with ⟨token, token_mem, ⟨kind, none⟩, span⟩
    exact ⟨token, List.mem_append_left _ token_mem, span, kind, none⟩

/-- A block string with an ideographic space, which is three bytes long, on a line below an
indentation of two spaces. -/
def wideBlank : List Char := "\"\"\"\n  a\n\u3000\n\"\"\"".toList

/-- The space lies across the edge of the indentation, so that a source with the block string has no
document. With spaces of one byte the block string has a value. -/
theorem blockStrings_cut_wideBlank :
    decodeToken? wideBlank = none ∧
      (∃ token ∈ Scan.tokenize (wideBlank ++ "scalar S".toList),
        token.kind = .blockString ∧ decodeToken? token.text.toList = none) ∧
      ∃ value, decodeToken? "\"\"\"\n  a\n   \n\"\"\"".toList = some value := by
  refine ⟨?_, ?_, ?_⟩
  · have lines : Text.lines (body wideBlank) = [[], [' ', ' ', 'a'], ['\u3000']] := by
      decide +kernel
    refine ((blockStrings_cut []).1 wideBlank _ lines).2.1.mpr
      ⟨['\u3000'], by simp, by decide, [], '\u3000', [], rfl, ?_⟩
    decide
  · have none : (parse (wideBlank ++ "scalar S".toList)).toOption.isNone = true := by
      decide +kernel
    cases failed : parse (wideBlank ++ "scalar S".toList) with
    | ok parsed =>
        rw [failed] at none
        cases none
    | error block =>
        rcases (blockStrings_cut _).2 block failed with ⟨token, token_mem, -, kind, noValue⟩
        exact ⟨token, token_mem, kind, noValue⟩
  · have lines : Text.lines (body "\"\"\"\n  a\n   \n\"\"\"".toList) =
        [[], [' ', ' ', 'a'], [' ', ' ', ' ']] := by decide +kernel
    refine ((blockStrings_cut []).1 _ _ lines).2.2 ?_
    have short : ' '.utf8Size = 1 ∧ 'a'.utf8Size = 1 := by decide
    simp [short]

end Document

end WiredGraph
