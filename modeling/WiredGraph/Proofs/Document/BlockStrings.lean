import WiredGraph.Document.Printer
import WiredGraph.Proofs.Literal.BlockLayout

/-!
# Which block strings survive printing

The value of a block string is printed between marks again, in values as it is with its marks
escaped, and in descriptions without escapes but with every line indented. What is read back is the
same value only under conditions that the printer does not see to, and which are stated here exactly
for each of the two forms.
-/

namespace WiredGraph

namespace BlockString

open Text (isBlankLine withoutReturn join)
open Layout (newline)

variable {value inside tail : List Char}

/-- A text is scanned as one token, a block string that stands for a value. -/
def ReadsAs (text value : List Char) : Prop :=
  ∃ token, Scan.tokens text = [token] ∧ token.kind = .blockString ∧
    decodeToken? token.text.toList = some value

section Reading

theorem tokensFrom_of_ignored (ignored : ∀ char ∈ tail, Scan.isIgnored char = true)
    (offset : Nat) : Scan.tokensFrom offset tail = [] := by
  have none : Scan.lexemes tail = [] := by
    induction tail with
    | nil => exact Scan.lexemes_nil
    | cons char tail ih =>
        rw [List.forall_mem_cons] at ignored
        rw [Scan.lexemes_ignored ignored.1, ih ignored.2]
  rw [Scan.lexemes, Scan.tokens, Scan.map_lexeme_tokensFrom 0 offset] at none
  exact List.map_eq_nil_iff.mp none

/-- The last marks of a text stand in one place only. -/
theorem append_marks_inj {front back after other : List Char} (none : '"' ∉ after)
    (also : '"' ∉ other) (same : front ++ marks ++ after = back ++ marks ++ other) :
    front = back ∧ after = other := by
  have ends {front after : List Char} (none : '"' ∉ after) :
      (front ++ marks ++ after).reverse.takeWhile (· != '"') = after.reverse := by
    rw [List.reverse_append, List.takeWhile_append_of_pos]
    · simp [marks]
    · intro char char_mem
      exact bne_iff_ne.mpr fun quote => none (quote ▸ List.mem_reverse.mp char_mem)
  have tails := congrArg (fun text => text.reverse.takeWhile (· != '"')) same
  simp only [ends none, ends also] at tails
  obtain rfl := List.reverse_inj.mp tails
  exact ⟨by simpa using same, rfl⟩

/-- A text between marks, with no more quotation marks than a value, is read as the value if it is
kept open up to its end and stands for the value. The value has all the quotation marks there are,
so none is left over. -/
theorem readsAs_marks_iff (quotes : inside.count '"' ≤ value.count '"')
    (ignored : ∀ char ∈ tail, Scan.isIgnored char = true) :
    ReadsAs (marks ++ (inside ++ marks ++ tail)) value ↔
      Closes inside ∧ dedent? (unescapeMarks inside) = some value := by
  have noQuote : '"' ∉ tail := by
    intro quote_mem
    cases ignored _ quote_mem
  rcases tokens_marks (inside ++ marks ++ tail) with ⟨span, stop, tokens⟩
  constructor
  · rintro ⟨token, single, block, decodes⟩
    rw [tokens, List.cons.injEq] at single
    obtain ⟨rfl, -⟩ := single
    cases scanned : Scan.blockBody (inside ++ marks ++ tail) with
    | mk closed rest =>
        obtain ⟨taken, left⟩ := rest
        simp only [scanned] at block decodes
        obtain rfl : closed = true := by
          cases closed with
          | false => cases block
          | true => rfl
        obtain ⟨read, rfl⟩ := exists_append_marks_of_blockBody scanned
        rw [String.toList_ofList, decodeToken?_eq, ← List.append_assoc, body_eq] at decodes
        have whole := Scan.blockBody_append (inside ++ marks ++ tail)
        rw [scanned] at whole
        have enough : value.count '"' ≤ (unescapeMarks read).count '"' :=
          count_dedent?_le decodes (by decide)
        have fewer := (unescapeMarks_sublist read).count_le '"'
        have none : '"' ∉ left := by
          have counts := congrArg (List.count '"') whole
          simp only [List.count_append, List.count_eq_zero_of_not_mem noQuote] at counts
          exact List.count_eq_zero.mp (by omega)
        obtain ⟨rfl, rfl⟩ := append_marks_inj none noQuote whole
        exact ⟨closes_of_blockBody scanned, decodes⟩
  · rintro ⟨closes, decodes⟩
    rw [blockBody_append_of_closes closes] at tokens
    simp only [if_true, tokensFrom_of_ignored ignored] at tokens
    refine ⟨_, tokens, rfl, ?_⟩
    rw [String.toList_ofList, decodeToken?_eq, ← List.append_assoc, body_eq, decodes]

end Reading

section Values

/-- The values that survive being printed as values. -/
structure SurvivesAsValue (value : List Char) : Prop where
  quotes : 3 ∣ quotesAtEnd value
  backslash : value.getLast? ≠ some '\\'
  returns : ∀ line ∈ (Text.splitOn '\n' value).dropLast, line.getLast? ≠ some '\r'
  flush : (Text.splitOn '\n' value).tail = [] ∨
    ∃ line ∈ (Text.splitOn '\n' value).tail, isBlankLine line = false ∧ indentOf line = 0

/-- The values that survive being printed as descriptions. -/
structure SurvivesAsDescription (value : List Char) : Prop where
  unmarked : ¬marks <:+: value
  ends : '\n' ∉ value → value.getLast? ≠ some '"' ∧ value.getLast? ≠ some '\\'
  returns : '\n' ∈ value → ∀ line ∈ Text.splitOn '\n' value, line.getLast? ≠ some '\r'

/-- A text that is left by taking layout off is left by doing it again under the conditions for
printed values. -/
theorem dedent?_self_iff {text : List Char} (found : dedent? text = some value) :
    dedent? value = some value ↔
      (∀ line ∈ (Text.splitOn '\n' value).dropLast, line.getLast? ≠ some '\r') ∧
        ((Text.splitOn '\n' value).tail = [] ∨
          ∃ line ∈ (Text.splitOn '\n' value).tail,
            isBlankLine line = false ∧ indentOf line = 0) := by
  rcases areDedented_of_dedent? found with ⟨pieces, dedented, rfl⟩
  rcases List.eq_nil_or_concat pieces with rfl | ⟨front, last, rfl⟩
  · decide
  · rw [Text.splitOn_join (by simp) dedented.free]
    exact dedented.dedent?_join_iff

theorem readsAs_print_value_iff {text : List Char} (found : dedent? text = some value)
    (span : Span) :
    ReadsAs (Value.string (String.ofList value) true span).print value ↔
      SurvivesAsValue value := by
  have printed : (Value.string (String.ofList value) true span).print =
      marks ++ (escapeMarks value ++ marks ++ []) := by
    rw [Value.print, if_pos rfl, String.toList_ofList]
    simp
  rw [printed, readsAs_marks_iff (Nat.le_of_eq (count_escapeMarks value)) (by simp),
    unescapeMarks_escapeMarks, closes_escapeMarks_iff, dedent?_self_iff found]
  exact ⟨fun ⟨⟨quotes, backslash⟩, returns, flush⟩ => ⟨quotes, backslash, returns, flush⟩,
    fun ⟨quotes, backslash, returns, flush⟩ => ⟨⟨quotes, backslash⟩, returns, flush⟩⟩

end Values

section Descriptions

theorem ignored_newline (level : Nat) : ∀ char ∈ newline level, Scan.isIgnored char = true := by
  rw [newline, List.forall_mem_cons]
  refine ⟨by decide, fun char char_mem => ?_⟩
  rw [List.eq_of_mem_replicate char_mem]
  rfl

/-- The indentation at a level. -/
def indentationAt (level : Nat) : List Char := List.replicate (2 * level) ' '

theorem indented_indentationAt (level : Nat) : ∀ char ∈ indentationAt level, isIndent char = true :=
  fun _ char_mem => List.eq_of_mem_replicate char_mem ▸ rfl

theorem print_description_of_line (none : '\n' ∉ value) (span : Span) (level : Nat) :
    Description.print level ⟨String.ofList value, true, span⟩ =
      marks ++ (value ++ marks ++ newline level) := by
  simp only [Description.print, String.toList_ofList, if_true, if_neg none, List.append_assoc]

theorem print_description_of_lines (several : '\n' ∈ value) (span : Span) (level : Nat) :
    Description.print level ⟨String.ofList value, true, span⟩ =
      marks ++ (framed (indentationAt level) (Text.lines value) ++ marks ++ newline level) := by
  simp only [Description.print, String.toList_ofList, if_true, if_pos several, framed_eq,
    List.append_assoc]
  rfl

/-- What stands for a value with at least as many backslashes has no escapes. -/
theorem unescapeMarks_of_dedent? (found : dedent? (unescapeMarks inside) = some value)
    (backslashes : inside.count '\\' ≤ value.count '\\') : unescapeMarks inside = inside :=
  unescapeMarks_eq_of_count (backslashes.trans (count_dedent?_le found (by decide)))

/-- A description of one line is printed as it is. -/
theorem readsAs_print_line_iff {text : List Char} (found : dedent? text = some value)
    (none : '\n' ∉ value) (span : Span) (level : Nat) :
    ReadsAs (Description.print level ⟨String.ofList value, true, span⟩) value ↔
      SurvivesAsDescription value := by
  rw [print_description_of_line none, readsAs_marks_iff (Nat.le_refl _) (ignored_newline level)]
  constructor
  · rintro ⟨closes, again⟩
    have plain := unescapeMarks_of_dedent? again (Nat.le_refl _)
    have unmarked := unmarked_of_closes closes plain
    exact ⟨unmarked, fun _ => (closes_of_unmarked_iff unmarked).mp closes,
      fun several => absurd several none⟩
  · rintro ⟨unmarked, ends, -⟩
    rw [unescapeMarks_of_unmarked unmarked]
    refine ⟨(closes_of_unmarked_iff unmarked).mpr (ends none), (dedent?_self_iff found).mpr ?_⟩
    rw [Text.splitOn_of_not_mem none]
    exact ⟨fun _ nothing => absurd nothing List.not_mem_nil, .inl rfl⟩

/-- A description of several lines is printed with each line indented. -/
theorem readsAs_print_lines_iff {text : List Char} (found : dedent? text = some value)
    (several : '\n' ∈ value) (span : Span) (level : Nat) :
    ReadsAs (Description.print level ⟨String.ofList value, true, span⟩) value ↔
      SurvivesAsDescription value := by
  have indented := indented_indentationAt level
  have fewer {char : Char} (visible : isIndent char = false) (other : char ≠ '\n') :
      (framed (indentationAt level) (Text.lines value)).count char ≤ value.count char := by
    rw [count_framed indented visible other]
    exact (Text.flatten_lines_sublist value).count_le char
  rw [print_description_of_lines several,
    readsAs_marks_iff (fewer rfl (by decide)) (ignored_newline level)]
  rcases areDedented_of_dedent? found with ⟨pieces, dedented, rfl⟩
  have more := dedented.one_lt_length several
  have nonempty : pieces ≠ [] := List.ne_nil_of_length_pos (Nat.zero_lt_of_lt more)
  have returns := dedented.dedent?_framed_iff indented more
  have unmarked_iff (kept : ∀ line ∈ pieces, line.getLast? ≠ some '\r') :
      marks <:+: framed (indentationAt level) (Text.lines (join ['\n'] pieces)) ↔
        marks <:+: join ['\n'] pieces := by
    rw [dedented.lines_join_eq kept, marks_infix_framed_iff indented, marks_infix_join_iff]
  constructor
  · rintro ⟨closes, again⟩
    have plain := unescapeMarks_of_dedent? again (fewer rfl (by decide))
    rw [plain, returns] at again
    have unmarked := unmarked_of_closes closes plain
    rw [unmarked_iff again] at unmarked
    refine ⟨unmarked, fun none => absurd several none, fun _ => ?_⟩
    rwa [Text.splitOn_join nonempty dedented.free]
  · rintro ⟨unmarked, -, kept⟩
    have kept := kept several
    rw [Text.splitOn_join nonempty dedented.free] at kept
    rw [← unmarked_iff kept] at unmarked
    rw [unescapeMarks_of_unmarked unmarked]
    exact ⟨(closes_of_unmarked_iff unmarked).mpr (getLast?_framed indented _), returns.mpr kept⟩

theorem readsAs_print_description_iff {text : List Char} (found : dedent? text = some value)
    (span : Span) (level : Nat) :
    ReadsAs (Description.print level ⟨String.ofList value, true, span⟩) value ↔
      SurvivesAsDescription value := by
  by_cases several : '\n' ∈ value
  · exact readsAs_print_lines_iff found several span level
  · exact readsAs_print_line_iff found several span level

end Descriptions

/-- The printed form of a block string's value is read as the value again exactly if the value
survives it, for values and for descriptions at every level of indentation. -/
theorem readsAs_print_iff {raw value : List Char} (decodes : decodeToken? raw = some value)
    (span : Span) :
    (ReadsAs (Value.string (String.ofList value) true span).print value ↔
        SurvivesAsValue value) ∧
      ∀ level, ReadsAs (Description.print level ⟨String.ofList value, true, span⟩) value ↔
        SurvivesAsDescription value :=
  ⟨readsAs_print_value_iff decodes span, readsAs_print_description_iff decodes span⟩

/-- Two lines, the second one indented further than the first one. -/
def nestedLines : List Char := "\"\"\"\n  a\n    b\n\"\"\"".toList

/-- The lines are read back from a description and not from a value. -/
theorem readsAs_print_iff_nestedLines :
    decodeToken? nestedLines = some ['a', '\n', ' ', ' ', 'b'] ∧
      ¬ReadsAs (Value.string (String.ofList ['a', '\n', ' ', ' ', 'b']) true ⟨0, 22⟩).print
        ['a', '\n', ' ', ' ', 'b'] ∧
      ∀ level, ReadsAs
        (Description.print level ⟨String.ofList ['a', '\n', ' ', ' ', 'b'], true, ⟨0, 22⟩⟩)
        ['a', '\n', ' ', ' ', 'b'] := by
  have decodes : decodeToken? nestedLines = some ['a', '\n', ' ', ' ', 'b'] := by decide +kernel
  rcases readsAs_print_iff decodes ⟨0, 22⟩ with ⟨asValue, asDescription⟩
  refine ⟨decodes, ?_, fun level => (asDescription level).mpr ⟨?_, ?_, ?_⟩⟩
  · intro survives
    have flush := (asValue.mp survives).flush
    revert flush
    decide
  · decide
  · decide
  · decide

end BlockString

end WiredGraph
