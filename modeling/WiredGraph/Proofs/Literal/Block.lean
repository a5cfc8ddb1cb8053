import WiredGraph.Literal.Block
import WiredGraph.Proofs.Text.Cutting
import WiredGraph.Proofs.Token.Append

/-!
# Marks around block strings

A text between two triple marks is a block string of its own if no triple mark in it ends the
string early, and if its last characters do not change what the marks behind it mean: quotation
marks at its end are taken for the first of the closing ones, and a backslash escapes them.
Escaping the marks in a text keeps the string open up to its end, unless the text ends like this.
-/

namespace WiredGraph

namespace BlockString

variable {text rest : List Char} {char : Char}

section Escapes

/-- The number of quotation marks that a text ends with. -/
def quotesAtEnd (text : List Char) : Nat := (text.reverse.takeWhile (· == '"')).length

/-- Before the closing marks, a text begins with marks if it does so itself, or if it has nothing
but fewer than three quotation marks. -/
theorem marks_prefix_append_iff :
    marks <+: text ++ marks ↔ marks <+: text ∨ ∃ count < 3, text = List.replicate count '"' := by
  have run : marks = List.replicate 3 '"' := rfl
  constructor
  · intro starts
    rcases List.prefix_or_prefix_of_prefix starts (List.prefix_append text marks) with
      within | short
    · exact .inl within
    · rcases List.prefix_replicate_iff.mp (run ▸ short) with ⟨few, all⟩
      rcases Nat.lt_or_eq_of_le few with fewer | three
      · exact .inr ⟨text.length, fewer, all⟩
      · rw [three] at all
        exact .inl (all ▸ List.prefix_rfl)
  · rintro (within | ⟨count, -, rfl⟩)
    · exact within.trans (List.prefix_append text marks)
    · rw [run, List.replicate_append_replicate, Nat.add_comm, ← List.replicate_append_replicate]
      exact List.prefix_append _ _

theorem unescapeMarks_cons (noEscape : ¬ '\\' :: marks <+: char :: rest) :
    unescapeMarks (char :: rest) = char :: unescapeMarks rest := by
  rw [unescapeMarks]
  rintro later rfl rfl
  exact noEscape ⟨later, rfl⟩

theorem escapeMarks_cons (noMarks : ¬marks <+: char :: rest) :
    escapeMarks (char :: rest) = char :: escapeMarks rest := by
  rw [escapeMarks]
  rintro later rfl rfl
  exact noMarks ⟨later, rfl⟩

theorem blockBody_cons (noMarks : ¬marks <+: char :: rest)
    (noEscape : ¬ '\\' :: marks <+: char :: rest) :
    Scan.blockBody (char :: rest) =
      ((Scan.blockBody rest).1, char :: (Scan.blockBody rest).2.1,
        (Scan.blockBody rest).2.2) := by
  rw [Scan.blockBody]
  · rintro later rfl rfl
    exact noMarks ⟨later, rfl⟩
  · rintro later rfl rfl
    exact noEscape ⟨later, rfl⟩

/-- A text is empty, begins with marks, or begins with a character that no marks start with. -/
theorem marks_induction {motive : List Char → Prop} (nil : motive [])
    (marked : ∀ rest, motive rest → motive (marks ++ rest))
    (cons : ∀ char rest, ¬marks <+: char :: rest → motive rest → motive (char :: rest))
    (text : List Char) : motive text := by
  induction text using escapeMarks.induct with
  | case1 => exact nil
  | case2 rest ih => exact marked rest ih
  | case3 char rest noMarks ih =>
      refine cons char rest ?_ ih
      rintro ⟨later, whole⟩
      exact noMarks later (List.cons.inj whole).1.symm (List.cons.inj whole).2.symm

/-- Quotation marks at the start of an escaped text stand at the start of the text. -/
theorem replicate_prefix_of_escapeMarks (count : Nat) {text : List Char}
    (starts : List.replicate count '"' <+: escapeMarks text) :
    List.replicate count '"' <+: text := by
  induction text using marks_induction generalizing count with
  | nil => exact starts
  | marked rest _ =>
      cases count with
      | zero => exact List.nil_prefix
      | succ count => exact absurd (List.cons_prefix_cons.mp starts).1 (by decide)
  | cons char rest noMarks ih =>
      rw [escapeMarks_cons noMarks] at starts
      cases count with
      | zero => exact List.nil_prefix
      | succ count =>
          rw [List.replicate_succ, List.cons_prefix_cons] at starts ⊢
          exact ⟨starts.1, ih count starts.2⟩

theorem not_marks_prefix_escapeMarks (text : List Char) : ¬marks <+: escapeMarks text := by
  intro starts
  obtain ⟨rest, rfl⟩ := replicate_prefix_of_escapeMarks 3 starts
  exact absurd (List.cons_prefix_cons.mp starts).1 (by decide)

theorem unescapeMarks_escapeMarks (text : List Char) : unescapeMarks (escapeMarks text) = text := by
  induction text using marks_induction with
  | nil => rfl
  | marked rest ih => exact congrArg (marks ++ ·) ih
  | cons char rest noMarks ih =>
      rw [escapeMarks_cons noMarks, unescapeMarks_cons, ih]
      intro escape
      exact not_marks_prefix_escapeMarks rest (List.cons_prefix_cons.mp escape).2

theorem unmarked_of_cons (unmarked : ¬marks <:+: char :: rest) :
    ¬marks <+: char :: rest ∧ ¬marks <:+: rest :=
  ⟨fun starts => unmarked starts.isInfix,
    fun within => unmarked (within.trans (List.suffix_cons char rest).isInfix)⟩

theorem escapeMarks_of_unmarked (unmarked : ¬marks <:+: text) : escapeMarks text = text := by
  induction text with
  | nil => rfl
  | cons char rest ih =>
      rcases unmarked_of_cons unmarked with ⟨noMarks, later⟩
      rw [escapeMarks_cons noMarks, ih later]

theorem unescapeMarks_of_unmarked (unmarked : ¬marks <:+: text) : unescapeMarks text = text := by
  rw [← escapeMarks_of_unmarked unmarked, unescapeMarks_escapeMarks,
    escapeMarks_of_unmarked unmarked]

theorem count_escapeMarks (text : List Char) :
    (escapeMarks text).count '"' = text.count '"' := by
  induction text using marks_induction with
  | nil => rfl
  | marked rest ih => simpa [escapeMarks, marks] using ih
  | cons char rest noMarks ih => rw [escapeMarks_cons noMarks, List.count_cons, ih, List.count_cons]

theorem unescapeMarks_sublist (text : List Char) : (unescapeMarks text).Sublist text := by
  induction text using unescapeMarks.induct with
  | case1 => exact .slnil
  | case2 rest ih => exact ((ih.cons_cons '"').cons_cons '"').cons_cons '"' |>.cons '\\'
  | case3 char rest noEscape ih =>
      rw [unescapeMarks.eq_3 char rest noEscape]
      exact ih.cons_cons char

/-- Every escape takes a backslash away. -/
theorem unescapeMarks_eq_of_count (same : text.count '\\' ≤ (unescapeMarks text).count '\\') :
    unescapeMarks text = text := by
  induction text using unescapeMarks.induct with
  | case1 => rfl
  | case2 rest ih =>
      have fewer := (unescapeMarks_sublist rest).count_le '\\'
      have more : rest.count '\\' + 1 ≤ (unescapeMarks rest).count '\\' := by
        simpa [unescapeMarks, List.count_cons] using same
      omega
  | case3 char rest noEscape ih =>
      rw [unescapeMarks.eq_3 char rest noEscape] at same ⊢
      rw [List.count_cons, List.count_cons] at same
      rw [ih (Nat.le_of_add_le_add_right same)]

end Escapes

section Closing

/-- The marks behind a text are the ones that close the block string that it stands in. -/
def Closes (text : List Char) : Prop :=
  Scan.blockBody (text ++ marks) = (true, text ++ marks, [])

instance (text : List Char) : Decidable (Closes text) := inferInstanceAs (Decidable (_ = _))

theorem closes_escape (rest : List Char) : Closes ('\\' :: marks ++ rest) ↔ Closes rest := by
  simp only [Closes, marks, List.cons_append, List.nil_append, Scan.blockBody]
  simp [Prod.ext_iff]

/-- Marks in front close the string before the end of the text. -/
theorem not_closes_of_marks (starts : marks <+: char :: rest ++ marks) :
    ¬Closes (char :: rest) := by
  rcases starts with ⟨left, whole⟩
  intro closes
  rw [Closes, ← whole] at closes
  have early : Scan.blockBody (marks ++ left) = (true, marks, left) := rfl
  rw [early] at closes
  obtain rfl := (Prod.mk.inj (Prod.mk.inj closes).2).2
  have size := congrArg List.length whole
  simp [marks] at size

/-- A backslash escapes the marks that are made of the closing ones and of those before them. -/
theorem not_closes_of_backslash : ∀ count < 3, ¬Closes ('\\' :: List.replicate count '"') := by
  decide

/-- A text is kept open up to its end if its first character, alone or with the marks it escapes,
does so and the rest does. -/
theorem closes_cons_iff :
    Closes (char :: rest) ↔
      (∃ later, char :: rest = '\\' :: marks ++ later ∧ Closes later) ∨
        ¬marks <+: char :: rest ++ marks ∧ ¬ '\\' :: marks <+: char :: rest ++ marks ∧
          Closes rest := by
  by_cases noMarks : marks <+: char :: rest ++ marks
  · refine iff_of_false (not_closes_of_marks noMarks) ?_
    rintro (⟨later, whole, -⟩ | ⟨other, -⟩)
    · rw [whole] at noMarks
      exact absurd (List.cons_prefix_cons.mp noMarks).1 (by decide)
    · exact other noMarks
  by_cases noEscape : '\\' :: marks <+: char :: rest ++ marks
  · obtain ⟨rfl, inRest⟩ := List.cons_prefix_cons.mp noEscape
    rcases marks_prefix_append_iff.mp inRest with ⟨later, rfl⟩ | ⟨count, few, rfl⟩
    · rw [← List.cons_append, closes_escape]
      simp
    · refine iff_of_false (not_closes_of_backslash count few) ?_
      rintro (⟨later, whole, -⟩ | ⟨-, other, -⟩)
      · have size := congrArg List.length whole
        simp only [List.length_cons, List.length_replicate, List.length_append, marks,
          List.length_nil] at size
        omega
      · exact other noEscape
  · have apart : ¬∃ later, char :: rest = '\\' :: marks ++ later ∧ Closes later := by
      rintro ⟨later, whole, -⟩
      rw [whole, List.append_assoc] at noEscape
      exact noEscape (List.prefix_append _ _)
    have step : Scan.blockBody (char :: (rest ++ marks)) = _ := blockBody_cons noMarks noEscape
    rw [or_iff_right apart, and_iff_right noMarks, and_iff_right noEscape, Closes,
      List.cons_append, step, Closes]
    simp [Prod.ext_iff]

theorem quotesAtEnd_cons (char : Char) (rest : List Char) :
    quotesAtEnd (char :: rest) =
      quotesAtEnd rest + if (char :: rest).all (· == '"') then 1 else 0 := by
  rw [quotesAtEnd, quotesAtEnd, List.reverse_cons, List.takeWhile_append]
  by_cases all : ∀ other ∈ rest, other = '"'
  · have whole : rest.reverse.takeWhile (· == '"') = rest.reverse :=
      List.takeWhile_eq_self_iff.mpr (by simpa using all)
    rw [whole, if_pos rfl, List.length_append, List.takeWhile_cons]
    by_cases quote : char = '"'
    · simpa [quote] using all
    · simp [quote]
  · have part : (rest.reverse.takeWhile (· == '"')).length ≠ rest.reverse.length := by
      intro same
      have whole := (List.takeWhile_prefix _).eq_of_length same
      exact all (by simpa using List.takeWhile_eq_self_iff.mp whole)
    rw [if_neg part, if_neg, Nat.add_zero]
    intro both
    have quotes := List.all_eq_true.mp both
    exact all fun other other_mem => by simpa using quotes other (List.mem_cons_of_mem _ other_mem)

theorem exists_append_replicate (text : List Char) :
    ∃ front, text = front ++ List.replicate (quotesAtEnd text) '"' := by
  refine ⟨(text.reverse.dropWhile (· == '"')).reverse, ?_⟩
  have all : text.reverse.takeWhile (· == '"') = List.replicate (quotesAtEnd text) '"' := by
    refine List.eq_replicate_iff.mpr ⟨rfl, fun char char_mem => ?_⟩
    simpa using List.mem_takeWhile_imp char_mem
  have whole := congrArg List.reverse
    (List.takeWhile_append_dropWhile (p := (· == '"')) (l := text.reverse))
  rw [List.reverse_append, List.reverse_reverse, all, List.reverse_replicate] at whole
  exact whole.symm

theorem quotesAtEnd_eq_zero_iff : quotesAtEnd text = 0 ↔ text.getLast? ≠ some '"' := by
  rw [quotesAtEnd, ← List.head?_reverse]
  cases text.reverse with
  | nil => simp
  | cons last front => by_cases quote : last = '"' <;> simp [quote]

theorem escapeMarks_replicate :
    ∀ count < 3, escapeMarks (List.replicate count '"') = List.replicate count '"' := by
  decide

/-- Before the closing marks, an escaped text begins with marks only if it has nothing but fewer
than three quotation marks. -/
theorem eq_replicate_of_escapeMarks (starts : marks <+: escapeMarks text ++ marks) :
    ∃ count < 3, text = List.replicate count '"' := by
  rcases marks_prefix_append_iff.mp starts with within | ⟨count, few, all⟩
  · exact absurd within (not_marks_prefix_escapeMarks text)
  · refine ⟨count, few, ?_⟩
    rw [← unescapeMarks_escapeMarks text, all, ← escapeMarks_replicate count few,
      unescapeMarks_escapeMarks]
    exact (escapeMarks_replicate count few).symm

/-- An escaped text is kept open up to its end unless the marks behind it are taken together with
its last characters. Either these are quotation marks, which are taken for the first ones of the
closing marks, or a backslash stands before them, with which the closing marks are escaped. -/
theorem closes_escapeMarks_iff :
    Closes (escapeMarks text) ↔ 3 ∣ quotesAtEnd text ∧ text.getLast? ≠ some '\\' := by
  induction text using marks_induction with
  | nil => decide
  | marked rest ih =>
      change Closes ('\\' :: marks ++ escapeMarks rest) ↔ _
      rw [closes_escape, ih]
      have same : 3 ∣ quotesAtEnd (marks ++ rest) ↔ 3 ∣ quotesAtEnd rest := by
        simp only [marks, List.cons_append, List.nil_append, quotesAtEnd_cons, List.all_cons,
          beq_self_eq_true, Bool.true_and]
        split <;> omega
      rw [same]
      cases rest with
      | nil => decide
      | cons next rest => rfl
  | cons char rest noMarks ih =>
      have escaped := escapeMarks_cons noMarks
      by_cases early : marks <+: escapeMarks (char :: rest) ++ marks
      · have ended : ∀ count < 3, 0 < count →
            ¬3 ∣ quotesAtEnd (List.replicate count '"') := by decide
        obtain ⟨count, few, all⟩ := eq_replicate_of_escapeMarks early
        rw [escaped] at early ⊢
        refine iff_of_false (not_closes_of_marks early) fun ends => ?_
        rw [all] at ends
        refine ended count few ?_ ends.1
        cases count with
        | zero => nomatch all
        | succ count => exact Nat.succ_pos count
      by_cases late : char = '\\' ∧ marks <+: escapeMarks rest ++ marks
      · have ended : ∀ count < 3, ¬(3 ∣ quotesAtEnd ('\\' :: List.replicate count '"') ∧
            ('\\' :: List.replicate count '"').getLast? ≠ some '\\') := by decide
        obtain ⟨rfl, inRest⟩ := late
        obtain ⟨count, few, rfl⟩ := eq_replicate_of_escapeMarks inRest
        rw [escaped, escapeMarks_replicate count few]
        exact iff_of_false (not_closes_of_backslash count few) (ended count few)
      · have noEscape : ¬ '\\' :: marks <+: char :: escapeMarks rest ++ marks := by
          intro escape
          obtain ⟨same, inRest⟩ := List.cons_prefix_cons.mp escape
          exact late ⟨same.symm, inRest⟩
        have apart :
            ¬∃ later, char :: escapeMarks rest = '\\' :: marks ++ later ∧ Closes later := by
          rintro ⟨later, whole, -⟩
          rw [whole, List.append_assoc] at noEscape
          exact noEscape (List.prefix_append _ _)
        rw [escaped] at early ⊢
        rw [closes_cons_iff, or_iff_right apart, and_iff_right early, and_iff_right noEscape, ih,
          quotesAtEnd_cons, if_neg, Nat.add_zero]
        · cases rest with
          | nil =>
              have notBackslash : char ≠ '\\' := fun same => late ⟨same, List.prefix_rfl⟩
              simp [notBackslash]
          | cons next rest => rw [List.getLast?_cons_cons]
        · intro all
          obtain ⟨count, run⟩ : ∃ count, char :: rest = List.replicate count '"' :=
            ⟨_, List.eq_replicate_iff.mpr ⟨rfl, by simpa using all⟩⟩
          rcases Nat.lt_or_ge count 3 with few | many
          · refine early (marks_prefix_append_iff.mpr (.inr ⟨count, few, ?_⟩))
            rw [← escaped, run, escapeMarks_replicate count few]
          · rw [run] at noMarks
            exact noMarks (List.prefix_replicate_iff.mpr ⟨many, rfl⟩)

/-- A text without marks in it is kept open up to its end unless it ends with a character that
changes what the marks behind it mean. -/
theorem closes_of_unmarked_iff (unmarked : ¬marks <:+: text) :
    Closes text ↔ text.getLast? ≠ some '"' ∧ text.getLast? ≠ some '\\' := by
  have few : quotesAtEnd text < 3 := by
    by_contra many
    obtain ⟨front, whole⟩ := exists_append_replicate text
    obtain ⟨count, enough⟩ := Nat.exists_eq_add_of_le (Nat.le_of_not_lt many)
    rw [enough, ← List.replicate_append_replicate, ← List.append_assoc] at whole
    exact unmarked ⟨front, _, whole.symm⟩
  rw [← quotesAtEnd_eq_zero_iff, ← escapeMarks_of_unmarked unmarked, closes_escapeMarks_iff,
    escapeMarks_of_unmarked unmarked]
  refine and_congr_left fun _ => ?_
  omega

/-- Text that is taken as it stands up to the closing marks has no marks in it. Marks behind a
backslash would be moved to its place. -/
theorem unmarked_of_closes (closes : Closes text) (plain : unescapeMarks text = text) :
    ¬marks <:+: text := by
  induction text with
  | nil => exact fun within => absurd (List.infix_nil.mp within) (List.cons_ne_nil _ _)
  | cons char rest ih =>
      rcases closes_cons_iff.mp closes with ⟨later, whole, -⟩ | ⟨noMarks, noEscape, closes⟩
      · rw [whole] at plain
        exact absurd (List.cons.inj plain).1 (by decide)
      · rw [unescapeMarks_cons fun escape => noEscape (escape.trans (List.prefix_append _ _))]
          at plain
        rw [List.infix_cons_iff, not_or]
        exact ⟨fun starts => noMarks (starts.trans (List.prefix_append _ _)),
          ih closes (List.cons.inj plain).2⟩

end Closing

section Tokens

variable {taken left : List Char}

/-- The characters that are taken into a closed string are those up to its closing marks. -/
theorem exists_append_marks_of_blockBody (closed : Scan.blockBody text = (true, taken, left)) :
    ∃ inside, taken = inside ++ marks := by
  fun_induction Scan.blockBody text generalizing taken left with
  | case1 => cases closed
  | case2 rest =>
      cases closed
      exact ⟨[], rfl⟩
  | case3 rest isClosed more after body ih =>
      obtain ⟨rfl, rfl, rfl⟩ : isClosed = true ∧ _ = taken ∧ after = left := by simpa using closed
      obtain ⟨inside, rfl⟩ := ih body
      exact ⟨'\\' :: '"' :: '"' :: '"' :: inside, rfl⟩
  | case4 char rest _ _ isClosed more after body ih =>
      obtain ⟨rfl, rfl, rfl⟩ : isClosed = true ∧ _ = taken ∧ after = left := by simpa using closed
      obtain ⟨inside, rfl⟩ := ih body
      exact ⟨char :: inside, rfl⟩

/-- What is taken into a closed string has nothing to do with what stands after it. The closing
marks are in view, which is as far as other marks are looked for. -/
theorem blockBody_append_of_closed (closed : Scan.blockBody text = (true, taken, left))
    (tail : List Char) : Scan.blockBody (taken ++ tail) = (true, taken, tail) := by
  fun_induction Scan.blockBody text generalizing taken left with
  | case1 => cases closed
  | case2 rest =>
      cases closed
      rfl
  | case3 rest isClosed more after body ih =>
      obtain ⟨rfl, rfl, rfl⟩ : isClosed = true ∧ _ = taken ∧ after = left := by simpa using closed
      simp only [List.cons_append, Scan.blockBody, ih body]
  | case4 char rest noMarks noEscape isClosed more after body ih =>
      obtain ⟨rfl, rfl, rfl⟩ : isClosed = true ∧ _ = taken ∧ after = left := by simpa using closed
      obtain ⟨inside, split⟩ := exists_append_marks_of_blockBody body
      have inView : (char :: marks).length ≤ (char :: more).length := by simp [split]
      have whole : more ++ after = rest := by
        have parts := Scan.blockBody_append rest
        rwa [body] at parts
      have within {start : List Char} (short : start.length ≤ (char :: marks).length)
          (starts : start <+: char :: (more ++ tail)) : start <+: char :: rest := by
        have front : start <+: char :: more :=
          List.prefix_of_prefix_length_le starts (List.prefix_append (char :: more) tail)
            (short.trans inView)
        exact front.trans (whole ▸ List.prefix_append (char :: more) after)
      rw [List.cons_append, blockBody_cons, ih body]
      · intro starts
        obtain ⟨later, same⟩ := within (by simp [marks]) starts
        exact noMarks later (List.cons.inj same).1.symm (List.cons.inj same).2.symm
      · intro starts
        obtain ⟨later, same⟩ := within (by simp [marks]) starts
        exact noEscape later (List.cons.inj same).1.symm (List.cons.inj same).2.symm

/-- A text is kept open up to the closing marks behind it whatever stands after them. -/
theorem blockBody_append_of_closes (closes : Closes text) (tail : List Char) :
    Scan.blockBody (text ++ marks ++ tail) = (true, text ++ marks, tail) :=
  blockBody_append_of_closed closes tail

theorem closes_of_blockBody {tail : List Char}
    (closed : Scan.blockBody (text ++ marks ++ tail) = (true, text ++ marks, tail)) :
    Closes text := by
  have alone := blockBody_append_of_closed closed []
  rwa [List.append_nil] at alone

/-- Three marks open a block string. -/
theorem tokens_marks (text : List Char) :
    ∃ span stop, Scan.tokens (marks ++ text) =
      ⟨if (Scan.blockBody text).1 then .blockString else .invalid,
        String.ofList (marks ++ (Scan.blockBody text).2.1), span⟩ ::
        Scan.tokensFrom stop (Scan.blockBody text).2.2 := by
  have found : Scan.splitIgnored false (marks ++ text) = ([], '"' :: '"' :: '"' :: text) := rfl
  exact Scan.tokensFrom_of_found 0 found

/-- The text between the marks of a token. -/
theorem body_eq (text : List Char) : body (marks ++ text ++ marks) = unescapeMarks text := by
  rw [body, List.append_assoc, Text.dropStart?_eq_some.mpr rfl, Option.bind_some,
    Text.dropEnd?_eq_some.mpr rfl]
  rfl

end Tokens

end BlockString

end WiredGraph
