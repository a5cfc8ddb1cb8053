import WiredGraph.Proofs.Literal.Block
import WiredGraph.Proofs.Source.Boundaries

/-!
# Layout of block strings

What is left of a text without its layout has something else than blanks on its first and on its
last line, and of several lines one is not indented. Lines like these, indented by any number of
spaces and put on lines of their own between the marks, are found again, except that each of them
loses a carriage return at its end.
-/

namespace WiredGraph

namespace BlockString

open Text (isBlankLine withoutReturn join)

variable {line : List Char} {lines pieces : List (List Char)} {indent : Nat}

section Lines

theorem isBlankLine_append (front back : List Char) :
    isBlankLine (front ++ back) = (isBlankLine front && isBlankLine back) := List.all_append

@[simp]
theorem isBlankLine_withoutReturn (line : List Char) :
    isBlankLine (withoutReturn line) = isBlankLine line := by
  rcases Text.withoutReturn_cases line with ends | ⟨same, -⟩
  · rw [ends, Text.withoutReturn_append_return, isBlankLine_append]
    exact (Bool.and_true _).symm
  · rw [same]

/-- Indentation is made of blanks of one byte. -/
theorem isBlank_of_isIndent {char : Char} (indents : isIndent char = true) :
    Text.isBlank char = true ∧ char.utf8Size = 1 := by
  rw [isIndent, Bool.or_eq_true, beq_iff_eq, beq_iff_eq] at indents
  rcases indents with rfl | rfl <;> decide

section Indented

variable {front : List Char} (indented : ∀ char ∈ front, isIndent char = true) (back : List Char)

include indented

theorem indentOf_append : indentOf (front ++ back) = front.length + indentOf back := by
  rw [indentOf, List.takeWhile_append_of_pos indented, List.length_append, indentOf]

theorem isBlankLine_of_indented : isBlankLine front = true :=
  List.all_eq_true.mpr fun char char_mem => (isBlank_of_isIndent (indented char char_mem)).1

theorem isBlankLine_indented_append : isBlankLine (front ++ back) = isBlankLine back := by
  rw [isBlankLine_append, isBlankLine_of_indented indented, Bool.true_and]

theorem length_indented : Utf8.length front = front.length := by
  induction front with
  | nil => rfl
  | cons char front ih =>
      rw [List.forall_mem_cons] at indented
      rw [Utf8.length_cons, (isBlank_of_isIndent indented.1).2, ih indented.2, List.length_cons,
        Nat.add_comm]

theorem cutIndent?_append : cutIndent? front.length (front ++ back) = some back := by
  have enough : ¬Utf8.length (front ++ back) < front.length := by
    rw [Utf8.length_append, length_indented indented]
    omega
  rw [cutIndent?, if_neg enough]
  have cut := Utf8.splitAt?_length_append front back
  rw [length_indented indented] at cut
  rw [cut]
  rfl

end Indented

theorem exists_indented_append (within : indent ≤ indentOf line) :
    ∃ front back, line = front ++ back ∧ front.length = indent ∧
      ∀ char ∈ front, isIndent char = true := by
  refine ⟨line.take indent, line.drop indent, (List.take_append_drop indent line).symm, ?_, ?_⟩
  · exact List.length_take_of_le (within.trans (List.takeWhile_prefix _).length_le)
  · intro char char_mem
    have start : line.take indent <+: line.takeWhile isIndent :=
      List.prefix_of_prefix_length_le (List.take_prefix indent line) (List.takeWhile_prefix _)
        ((List.length_take_le indent line).trans within)
    exact List.mem_takeWhile_imp (start.mem char_mem)

@[simp]
theorem indentOf_withoutReturn (line : List Char) :
    indentOf (withoutReturn line) = indentOf line := by
  rcases Text.withoutReturn_cases line with ends | ⟨same, -⟩
  · rw [ends, Text.withoutReturn_append_return, indentOf, indentOf, List.takeWhile_append]
    split
    · next all => simp [all, isIndent]
    · rfl
  · rw [same]

theorem suffix_of_cutIndent? {cut : List Char} (found : cutIndent? indent line = some cut) :
    cut <:+ line := by
  rw [cutIndent?] at found
  split at found
  · cases found
    exact List.suffix_rfl
  · obtain ⟨⟨front, back⟩, split, rfl⟩ := Option.map_eq_some_iff.mp found
    exact ⟨front, (Utf8.splitAt?_eq_some split).1.symm⟩

end Lines

section Cutting

/-- The indentations that the shared one is the least of. -/
theorem mem_indentations {indentation : Nat} :
    indentation ∈ ((lines.drop 1).filter (!isBlankLine ·)).map indentOf ↔
      ∃ line ∈ lines.tail, isBlankLine line = false ∧ indentOf line = indentation := by
  simp [and_assoc]

/-- The shared indentation is that of one of the lines after the first that are not blank. -/
theorem exists_commonIndent (visible : ∃ line ∈ lines.tail, isBlankLine line = false) :
    ∃ line ∈ lines.tail, isBlankLine line = false ∧ indentOf line = commonIndent lines := by
  rw [← mem_indentations]
  rcases visible with ⟨line, line_mem, visible⟩
  have some := List.ne_nil_of_mem (mem_indentations.mpr ⟨line, line_mem, visible, rfl⟩)
  cases least : (((lines.drop 1).filter (!isBlankLine ·)).map indentOf).min? with
  | none => exact absurd (List.min?_eq_none_iff.mp least) some
  | some indentation =>
      rw [commonIndent, least]
      exact List.min?_mem least

theorem commonIndent_le (line_mem : line ∈ lines.tail) (visible : isBlankLine line = false) :
    commonIndent lines ≤ indentOf line :=
  List.min?_getD_le_of_mem (mem_indentations.mpr ⟨line, line_mem, visible, rfl⟩)

theorem mapM_eq_some_iff {Item Result : Type} {step : Item → Option Result} {items : List Item}
    {results : List Result} :
    items.mapM step = some results ↔ items.map step = results.map some := by
  induction items generalizing results with
  | nil => cases results <;> simp
  | cons item items ih =>
      simp only [List.mapM_cons, Option.bind_eq_bind, Option.bind_eq_some_iff, Option.pure_def,
        Option.some.injEq, List.map_cons, ih]
      cases results with
      | nil => simp
      | cons result results => simp

/-- The first line is left as it is and the others are cut. -/
theorem cutLines?_eq_some_iff {cut : List (List Char)} :
    cutLines? indent lines = some cut ↔
      lines = [] ∧ cut = [] ∨ ∃ first later rest, lines = first :: later ∧ cut = first :: rest ∧
        later.map (cutIndent? indent) = rest.map some := by
  cases lines with
  | nil => simp [cutLines?, eq_comm]
  | cons first later =>
      simp only [cutLines?, Option.bind_eq_bind, Option.bind_eq_some_iff, mapM_eq_some_iff,
        Option.some.injEq]
      constructor
      · rintro ⟨rest, cuts, rfl⟩
        exact .inr ⟨first, later, rest, rfl, rfl, cuts⟩
      · rintro (⟨none, -⟩ | ⟨_, _, rest, same, rfl, cuts⟩)
        · cases none
        · obtain ⟨rfl, rfl⟩ := List.cons.inj same
          exact ⟨rest, cuts, rfl⟩

theorem length_cutLines? {cut : List (List Char)} (cuts : cutLines? indent lines = some cut) :
    cut.length = lines.length := by
  rcases cutLines?_eq_some_iff.mp cuts with ⟨rfl, rfl⟩ | ⟨first, later, rest, rfl, rfl, rests⟩
  · rfl
  · have size := congrArg List.length rests
    rw [List.length_map, List.length_map] at size
    rw [List.length_cons, List.length_cons, size]

theorem flatten_sublist_of_cuts {later rest : List (List Char)}
    (cuts : later.map (cutIndent? indent) = rest.map some) :
    rest.flatten.Sublist later.flatten := by
  induction later generalizing rest with
  | nil =>
      obtain rfl : rest = [] := by simpa using cuts.symm
      exact .slnil
  | cons line later ih =>
      cases rest with
      | nil => cases cuts
      | cons left rest =>
          rw [List.map_cons, List.map_cons, List.cons.injEq] at cuts
          exact (suffix_of_cutIndent? cuts.1).sublist.append (ih cuts.2)

theorem flatten_cutLines?_sublist {cut : List (List Char)}
    (cuts : cutLines? indent lines = some cut) : cut.flatten.Sublist lines.flatten := by
  rcases cutLines?_eq_some_iff.mp cuts with ⟨rfl, rfl⟩ | ⟨first, later, rest, rfl, rfl, rests⟩
  · exact .slnil
  · exact (List.Sublist.refl first).append (flatten_sublist_of_cuts rests)

end Cutting

section Trimming

/-- Only blank lines are taken off. -/
theorem exists_trimLines (lines : List (List Char)) :
    ∃ before after, lines = before ++ (trimLines lines ++ after) ∧
      ∀ line ∈ before ++ after, isBlankLine line = true := by
  have left := lines.takeWhile_append_dropWhile (p := isBlankLine)
  have right := congrArg List.reverse
    ((lines.dropWhile isBlankLine).reverse.takeWhile_append_dropWhile (p := isBlankLine))
  rw [List.reverse_append, List.reverse_reverse] at right
  refine ⟨lines.takeWhile isBlankLine,
    ((lines.dropWhile isBlankLine).reverse.takeWhile isBlankLine).reverse, ?_, ?_⟩
  · rw [trimLines, Text.dropWhileEnd, right, left]
  · intro line line_mem
    rcases List.mem_append.mp line_mem with inBefore | inAfter
    · exact List.mem_takeWhile_imp inBefore
    · exact List.mem_takeWhile_imp (List.mem_reverse.mp inAfter)

theorem trimLines_sublist (lines : List (List Char)) : (trimLines lines).Sublist lines := by
  rcases exists_trimLines lines with ⟨before, after, whole, -⟩
  have within : (trimLines lines).Sublist (before ++ (trimLines lines ++ after)) :=
    (List.sublist_append_left _ after).trans (List.sublist_append_right before _)
  rwa [← whole] at within

theorem mem_trimLines (line_mem : line ∈ lines) (visible : isBlankLine line = false) :
    line ∈ trimLines lines := by
  rcases exists_trimLines lines with ⟨before, after, whole, blank⟩
  rw [whole, List.mem_append, List.mem_append] at line_mem
  rcases line_mem with inBefore | inside | inAfter
  · rw [blank line (List.mem_append_left _ inBefore)] at visible
    cases visible
  · exact inside
  · rw [blank line (List.mem_append_right _ inAfter)] at visible
    cases visible

theorem head?_dropWhile {test : List Char → Bool} (lines : List (List Char)) :
    ∀ line ∈ (lines.dropWhile test).head?, test line = false := by
  intro line first
  have stops := List.head?_dropWhile_not test lines
  rwa [Option.mem_def.mp first] at stops

theorem isBlankLine_head_trimLines :
    ∀ line ∈ (trimLines lines).head?, isBlankLine line = false := by
  intro line first
  have start : trimLines lines <+: lines.dropWhile isBlankLine := by
    have ends := List.dropWhile_suffix isBlankLine (l := (lines.dropWhile isBlankLine).reverse)
    rw [trimLines, Text.dropWhileEnd]
    exact List.reverse_suffix.mp (by rwa [List.reverse_reverse])
  refine head?_dropWhile lines line ?_
  obtain ⟨after, whole⟩ := start
  rw [← whole, List.head?_append, Option.mem_def.mp first]
  rfl

theorem isBlankLine_getLast_trimLines :
    ∀ line ∈ (trimLines lines).getLast?, isBlankLine line = false := by
  intro line last
  rw [trimLines, Text.dropWhileEnd, List.getLast?_reverse] at last
  exact head?_dropWhile _ line last

/-- Blank lines around lines that are not blank at both ends are taken off. -/
theorem trimLines_surrounded {before after : List (List Char)}
    (blank : ∀ line ∈ before ++ after, isBlankLine line = true)
    (head : ∀ line ∈ lines.head?, isBlankLine line = false)
    (last : ∀ line ∈ lines.getLast?, isBlankLine line = false) (some : lines ≠ []) :
    trimLines (before ++ lines ++ after) = lines := by
  rw [List.forall_mem_append] at blank
  have stops {lines : List (List Char)} (some : lines ≠ [])
      (first : ∀ line ∈ lines.head?, isBlankLine line = false) (more : List (List Char)) :
      (lines ++ more).dropWhile isBlankLine = lines ++ more := by
    obtain ⟨line, rest, rfl⟩ := List.exists_cons_of_ne_nil some
    rw [List.cons_append, List.dropWhile_cons, if_neg]
    simpa using first line rfl
  have back : (lines.reverse ++ []).dropWhile isBlankLine = lines.reverse ++ [] := by
    refine stops (List.reverse_ne_nil_iff.mpr some) ?_ []
    rwa [List.head?_reverse]
  rw [trimLines, Text.dropWhileEnd, List.append_assoc, List.dropWhile_append_of_pos blank.1,
    stops some head, List.reverse_append, List.dropWhile_append_of_pos,
    ← List.append_nil lines.reverse, back, List.append_nil, List.reverse_reverse]
  intro line line_mem
  exact blank.2 line (List.mem_reverse.mp line_mem)

end Trimming

section Value

/-- The text less the layout that it owes to the document around it. -/
def dedent? (text : List Char) : Option (List Char) := do
  let lines := Text.lines text
  let cut ← cutLines? (commonIndent lines) lines
  some (join ['\n'] (trimLines cut))

theorem decodeToken?_eq (raw : List Char) : decodeToken? raw = dedent? (body raw) := rfl

/-- Lines as they are left when layout is taken off. -/
structure AreDedented (pieces : List (List Char)) : Prop where
  free : ∀ line ∈ pieces, '\n' ∉ line
  head : ∀ line ∈ pieces.head?, isBlankLine line = false
  last : ∀ line ∈ pieces.getLast?, isBlankLine line = false
  flush : 1 < pieces.length → ∃ line ∈ pieces, isBlankLine line = false ∧ indentOf line = 0

variable {text value : List Char}

theorem dedent?_eq_some (found : dedent? text = some value) :
    ∃ cut, cutLines? (commonIndent (Text.lines text)) (Text.lines text) = some cut ∧
      value = join ['\n'] (trimLines cut) := by
  rcases Option.bind_eq_some_iff.mp found with ⟨cut, cuts, same⟩
  exact ⟨cut, cuts, (Option.some.inj same).symm⟩

/-- No character but line feeds is added. -/
theorem count_dedent?_le (found : dedent? text = some value) {char : Char} (other : char ≠ '\n') :
    value.count char ≤ text.count char := by
  rcases dedent?_eq_some found with ⟨cut, cuts, rfl⟩
  rw [Text.count_join (by simpa using other)]
  calc
    (trimLines cut).flatten.count char ≤ cut.flatten.count char :=
      (trimLines_sublist cut).flatten.count_le char
    _ ≤ (Text.lines text).flatten.count char := (flatten_cutLines?_sublist cuts).count_le char
    _ ≤ text.count char := (Text.flatten_lines_sublist text).count_le char

/-- Of several lines that are left, one is not indented. -/
theorem exists_flush {cut : List (List Char)}
    (cuts : cutLines? (commonIndent lines) lines = some cut)
    (visible : ∃ line ∈ cut.tail, isBlankLine line = false) :
    ∃ line ∈ cut.tail, isBlankLine line = false ∧ indentOf line = 0 := by
  rcases cutLines?_eq_some_iff.mp cuts with ⟨-, rfl⟩ | ⟨first, later, rest, rfl, rfl, rests⟩
  · rcases visible with ⟨_, line_mem, -⟩
    nomatch line_mem
  · have source : ∃ line ∈ (first :: later).tail, isBlankLine line = false := by
      rcases visible with ⟨left, left_mem, visible⟩
      have left_mem : some left ∈ later.map (cutIndent? (commonIndent (first :: later))) :=
        rests ▸ List.mem_map_of_mem left_mem
      rcases List.mem_map.mp left_mem with ⟨line, line_mem, found⟩
      obtain ⟨front, rfl⟩ := suffix_of_cutIndent? found
      refine ⟨_, line_mem, ?_⟩
      rw [isBlankLine_append, visible, Bool.and_false]
    rcases exists_commonIndent source with ⟨line, line_mem, visible, least⟩
    rcases exists_indented_append (Nat.le_of_eq least.symm) with
      ⟨front, back, rfl, size, indented⟩
    have cut_mem := List.mem_map_of_mem (f := cutIndent? (commonIndent (first :: later))) line_mem
    rw [List.tail_cons, rests, ← size, cutIndent?_append indented] at cut_mem
    rw [isBlankLine_indented_append indented] at visible
    rw [indentOf_append indented] at least
    refine ⟨back, by simpa using cut_mem, visible, ?_⟩
    omega

theorem areDedented_trimLines {cut : List (List Char)}
    (cuts : cutLines? (commonIndent (Text.lines text)) (Text.lines text) = some cut) :
    AreDedented (trimLines cut) := by
  refine ⟨?_, isBlankLine_head_trimLines, isBlankLine_getLast_trimLines, ?_⟩
  · intro line line_mem feed_mem
    have inCut := List.mem_flatten_of_mem ((trimLines_sublist cut).mem line_mem) feed_mem
    exact Text.not_mem_flatten_lines text ((flatten_cutLines?_sublist cuts).mem inCut)
  · intro several
    have later := (trimLines_sublist cut).tail
    have some : (trimLines cut).tail ≠ [] := by
      rw [← List.length_pos_iff, List.length_tail]
      omega
    have last_mem : (trimLines cut).tail.getLast some ∈ (trimLines cut).getLast? := by
      rw [Option.mem_def, ← List.getLast?_eq_some_getLast some, List.getLast?_tail,
        if_neg (by omega)]
    have visible := isBlankLine_getLast_trimLines _ last_mem
    rcases exists_flush cuts ⟨_, later.mem (List.getLast_mem some), visible⟩ with
      ⟨line, line_mem, visible, flush⟩
    exact ⟨line, mem_trimLines (List.mem_of_mem_tail line_mem) visible, visible, flush⟩

theorem areDedented_of_dedent? (found : dedent? text = some value) :
    ∃ pieces, AreDedented pieces ∧ value = join ['\n'] pieces := by
  rcases dedent?_eq_some found with ⟨cut, cuts, rfl⟩
  exact ⟨trimLines cut, areDedented_trimLines cuts, rfl⟩

end Value

section Rereading

variable {front : List (List Char)} {last : List Char}

theorem AreDedented.ne_nil_of_getLast (dedented : AreDedented (front ++ [last])) : last ≠ [] := by
  rintro rfl
  have visible := dedented.last [] (by rw [List.getLast?_concat]; rfl)
  cases visible

theorem AreDedented.lines_join (dedented : AreDedented (front ++ [last])) :
    Text.lines (join ['\n'] (front ++ [last])) = front.map withoutReturn ++ [last] := by
  have free := List.forall_mem_append.mp dedented.free
  rw [Text.lines_join free.1 (free.2 last List.mem_cons_self),
    if_neg dedented.ne_nil_of_getLast]

theorem AreDedented.trimLines (dedented : AreDedented pieces) (some : pieces ≠ []) :
    trimLines pieces = pieces := by
  have trimmed : BlockString.trimLines ([] ++ pieces ++ []) = pieces :=
    trimLines_surrounded (by simp) dedented.head dedented.last some
  rwa [List.append_nil] at trimmed

theorem cutIndent?_zero (line : List Char) : cutIndent? 0 line = some line := by
  cases line <;> rfl

theorem map_withoutReturn_eq_self_iff {lines : List (List Char)} :
    lines.map withoutReturn = lines ↔ ∀ line ∈ lines, line.getLast? ≠ some '\r' := by
  induction lines with
  | nil => simp
  | cons line lines ih =>
      rw [List.map_cons, List.cons.injEq, ih, List.forall_mem_cons, Text.withoutReturn_eq_self_iff]

/-- A line that loses no second carriage return has lost no first one. -/
theorem withoutReturn_twice_eq_self_iff {line : List Char} :
    withoutReturn (withoutReturn line) = line ↔ line.getLast? ≠ some '\r' := by
  rw [← Text.withoutReturn_eq_self_iff]
  refine ⟨fun twice => ?_, fun once => by rw [once, once]⟩
  have shorter := (Text.withoutReturn_sublist (withoutReturn line)).length_le
  rw [twice] at shorter
  exact (Text.withoutReturn_sublist line).eq_of_length_le shorter

theorem map_withoutReturn_twice_eq_self_iff {lines : List (List Char)} :
    (lines.map withoutReturn).map withoutReturn = lines ↔
      ∀ line ∈ lines, line.getLast? ≠ some '\r' := by
  induction lines with
  | nil => simp
  | cons line lines ih =>
      rw [List.map_cons, List.map_cons, List.cons.injEq, ih, List.forall_mem_cons,
        withoutReturn_twice_eq_self_iff]

theorem AreDedented.lines_join_eq (dedented : AreDedented pieces)
    (kept : ∀ line ∈ pieces, line.getLast? ≠ some '\r') :
    Text.lines (join ['\n'] pieces) = pieces := by
  rcases List.eq_nil_or_concat pieces with rfl | ⟨front, last, rfl⟩
  · rfl
  · rw [List.concat_eq_append] at dedented kept ⊢
    rw [dedented.lines_join,
      map_withoutReturn_eq_self_iff.mpr (List.forall_mem_append.mp kept).1]

/-- There are several lines if there is a line feed. -/
theorem AreDedented.one_lt_length (dedented : AreDedented pieces)
    (several : '\n' ∈ join ['\n'] pieces) : 1 < pieces.length := by
  match pieces with
  | [] => nomatch several
  | [line] => exact absurd several (dedented.free line List.mem_cons_self)
  | _ :: _ :: _ => exact Nat.succ_lt_succ (Nat.succ_pos _)

/-- Lines that are not cut, although the last one could be, have nothing to be cut. -/
theorem eq_zero_of_cutIndent? (within : indent ≤ indentOf line)
    (found : cutIndent? indent line = some line) : indent = 0 := by
  rcases exists_indented_append within with ⟨front, back, rfl, rfl, indented⟩
  rw [cutIndent?_append indented] at found
  have size := congrArg List.length (Option.some.inj found)
  rw [List.length_append] at size
  omega

theorem AreDedented.eq_trimLines {cut : List (List Char)} (dedented : AreDedented (front ++ [last]))
    (others : AreDedented (BlockString.trimLines cut))
    (same : join ['\n'] (front ++ [last]) = join ['\n'] (BlockString.trimLines cut)) :
    BlockString.trimLines cut = front ++ [last] := by
  have some : front ++ [last] ≠ [] := List.append_ne_nil_of_right_ne_nil _ (List.cons_ne_nil _ _)
  refine (Text.join_injective some ?_ dedented.free others.free same).symm
  intro none
  have split := Text.splitOn_join some dedented.free
  rw [same, none] at split
  have ends := congrArg List.getLast? split
  rw [List.getLast?_concat] at ends
  exact dedented.ne_nil_of_getLast (Option.some.inj ends).symm

/-- Lines of which one after the first is not indented have no indentation to be cut. -/
theorem cutLines?_of_flush (flush : lines.tail = [] ∨
    ∃ line ∈ lines.tail, isBlankLine line = false ∧ indentOf line = 0) :
    cutLines? (commonIndent lines) lines = some lines := by
  cases lines with
  | nil => rfl
  | cons first later =>
      refine cutLines?_eq_some_iff.mpr (.inr ⟨first, later, later, rfl, rfl, ?_⟩)
      rcases flush with single | ⟨line, line_mem, visible, flush⟩
      · obtain rfl : later = [] := single
        rfl
      · have none : commonIndent (first :: later) = 0 :=
          Nat.le_zero.mp (flush ▸ commonIndent_le line_mem visible)
        rw [none]
        exact List.map_congr_left fun line _ => cutIndent?_zero line

/-- If cutting lines gives the lines that they were taken from, nothing was cut from any of them. -/
theorem uncut_of_cutLines? (visible : isBlankLine last = false)
    (cuts : cutLines? (commonIndent (front.map withoutReturn ++ [last]))
      (front.map withoutReturn ++ [last]) = some (front ++ [last])) :
    front.map withoutReturn = front ∧ ((front ++ [last]).tail = [] ∨
      ∃ line ∈ (front ++ [last]).tail, isBlankLine line = false ∧ indentOf line = 0) := by
  cases front with
  | nil => exact ⟨rfl, .inl rfl⟩
  | cons first front =>
      rw [List.map_cons, List.cons_append, List.cons_append] at cuts
      have last_mem : last ∈ (withoutReturn first :: (front.map withoutReturn ++ [last])).tail := by
        simp
      rcases exists_commonIndent ⟨last, last_mem, visible⟩ with ⟨line, line_mem, shown, least⟩
      have bound := commonIndent_le last_mem visible
      generalize commonIndent (withoutReturn first :: (front.map withoutReturn ++ [last])) = indent
        at cuts least bound
      rcases cutLines?_eq_some_iff.mp cuts with
        ⟨none, -⟩ | ⟨_, _, _, split, same, rests⟩
      · cases none
      · obtain ⟨rfl, rfl⟩ := List.cons.inj split
        obtain ⟨here, rfl⟩ := List.cons.inj same
        rw [List.map_append, List.map_append] at rests
        rcases List.append_singleton_inj.mp rests with ⟨others, atEnd⟩
        obtain rfl := eq_zero_of_cutIndent? bound atEnd
        rw [funext cutIndent?_zero] at others
        have later : front.map withoutReturn = front :=
          (List.map_inj_right fun _ _ => Option.some.inj).mp others
        rw [List.map_cons, ← here, later]
        refine ⟨rfl, .inr ⟨line, ?_, shown, least⟩⟩
        rwa [List.tail_cons, later] at line_mem

/-- Lines that are left by taking layout off are left by doing it again if none but the last one
ends with a carriage return and one after the first is not indented. -/
theorem AreDedented.dedent?_join_iff (dedented : AreDedented pieces) :
    dedent? (join ['\n'] pieces) = some (join ['\n'] pieces) ↔
      (∀ line ∈ pieces.dropLast, line.getLast? ≠ some '\r') ∧
        (pieces.tail = [] ∨
          ∃ line ∈ pieces.tail, isBlankLine line = false ∧ indentOf line = 0) := by
  rcases List.eq_nil_or_concat pieces with rfl | ⟨front, last, rfl⟩
  · decide
  rw [List.concat_eq_append] at dedented ⊢
  have some : front ++ [last] ≠ [] := List.append_ne_nil_of_right_ne_nil _ (List.cons_ne_nil _ _)
  rw [List.dropLast_concat, ← map_withoutReturn_eq_self_iff]
  constructor
  · intro found
    rcases dedent?_eq_some found with ⟨cut, cuts, same⟩
    have trimmed := dedented.eq_trimLines (areDedented_trimLines cuts) same
    have size : (BlockString.trimLines cut).length = cut.length := by
      rw [trimmed, length_cutLines? cuts, dedented.lines_join, List.length_append,
        List.length_append, List.length_map]
    rw [(trimLines_sublist cut).eq_of_length size] at trimmed
    rw [dedented.lines_join, trimmed] at cuts
    exact uncut_of_cutLines? (dedented.last last List.getLast?_concat) cuts
  · rintro ⟨same, flush⟩
    rw [dedent?, dedented.lines_join, same]
    simp only [cutLines?_of_flush flush, Option.bind_eq_bind, Option.bind_some,
      dedented.trimLines some]

end Rereading

section Framed

theorem marks_infix_join_iff :
    marks <:+: join ['\n'] pieces ↔ ∃ piece ∈ pieces, marks <:+: piece :=
  Text.infix_join_iff (List.cons_ne_nil _ _) (by decide)

/-- Lines with indentation in front of each, between a first line that is empty and a last one that
has nothing but the indentation. -/
def framed (indentation : List Char) (lines : List (List Char)) : List Char :=
  join ['\n'] ([] :: lines.map (indentation ++ ·) ++ [indentation])

theorem framed_eq (indentation : List Char) (lines : List (List Char)) :
    framed indentation lines =
      lines.flatMap ('\n' :: indentation ++ ·) ++ '\n' :: indentation := by
  have some : lines.map (indentation ++ ·) ++ [indentation] ≠ [] := by simp
  rw [framed, List.cons_append, Text.join_cons_of_ne_nil _ _ some, List.nil_append,
    List.singleton_append, Text.cons_join_eq_flatten '\n' some, List.map_append,
    List.flatten_append, List.map_map, List.flatMap_def]
  simp [Function.comp_def]

variable {indentation : List Char} (indented : ∀ char ∈ indentation, isIndent char = true)

include indented

theorem not_mem_indentation {char : Char} (other : isIndent char = false) : char ∉ indentation := by
  intro char_mem
  rw [indented char char_mem] at other
  cases other

theorem lines_framed (free : ∀ line ∈ lines, '\n' ∉ line) :
    ∃ rest, (∀ line ∈ rest, line = indentation) ∧ Text.lines (framed indentation lines) =
      [] :: ((lines.map withoutReturn).map (indentation ++ ·) ++ rest) := by
  have noFeed : '\n' ∉ indentation := not_mem_indentation indented rfl
  have noReturn : '\r' ∉ indentation := not_mem_indentation indented rfl
  have freeIndented : ∀ line ∈ [] :: lines.map (indentation ++ ·), '\n' ∉ line := by
    rw [List.forall_mem_cons, List.forall_mem_map]
    refine ⟨List.not_mem_nil, fun line line_mem => ?_⟩
    rw [List.mem_append, not_or]
    exact ⟨noFeed, free line line_mem⟩
  have returns : (lines.map (indentation ++ ·)).map withoutReturn =
      (lines.map withoutReturn).map (indentation ++ ·) := by
    rw [List.map_map, List.map_map]
    exact List.map_congr_left fun line _ => Text.withoutReturn_append noReturn
  refine ⟨if indentation = [] then [] else [indentation], ?_, ?_⟩
  · intro line line_mem
    split at line_mem
    · nomatch line_mem
    · exact List.mem_singleton.mp line_mem
  · rw [framed, Text.lines_join freeIndented noFeed, List.map_cons, returns]
    rfl

/-- The characters of framed lines are those of the lines, with indentation and line feeds. -/
theorem count_framed {char : Char} (visible : isIndent char = false) (other : char ≠ '\n')
    (lines : List (List Char)) :
    (framed indentation lines).count char = lines.flatten.count char := by
  have none := List.count_eq_zero_of_not_mem (not_mem_indentation indented visible)
  rw [framed, Text.count_join (by simpa using other)]
  simp [List.count_flatten, Function.comp_def, none]

theorem marks_infix_indented_append_iff {line : List Char} :
    marks <:+: indentation ++ line ↔ marks <:+: line := by
  induction indentation with
  | nil => rfl
  | cons char indentation ih =>
      rw [List.forall_mem_cons] at indented
      have apart : ¬marks <+: char :: (indentation ++ line) := by
        intro starts
        rw [← (List.cons_prefix_cons.mp starts).1] at indented
        cases indented.1
      rw [List.cons_append, List.infix_cons_iff, or_iff_right apart, ih indented.2]

/-- Marks in framed lines stand in one of the lines. -/
theorem marks_infix_framed_iff {lines : List (List Char)} :
    marks <:+: framed indentation lines ↔ ∃ line ∈ lines, marks <:+: line := by
  have inLine : marks <:+: indentation ++ [] ↔ marks <:+: [] :=
    marks_infix_indented_append_iff indented
  rw [List.append_nil] at inLine
  have some : marks ≠ [] := List.cons_ne_nil _ _
  rw [framed, marks_infix_join_iff]
  simp [marks_infix_indented_append_iff indented, inLine, some]

theorem getLast?_framed (lines : List (List Char)) :
    (framed indentation lines).getLast? ≠ some '"' ∧
      (framed indentation lines).getLast? ≠ some '\\' := by
  have ends {char : Char} (last : (framed indentation lines).getLast? = some char) :
      char = '\n' ∨ char ∈ indentation := by
    rw [framed_eq, List.getLast?_append, Option.or_of_isSome (by simp)] at last
    exact List.mem_cons.mp (List.mem_of_getLast? last)
  constructor
  · intro last
    rcases ends last with other | char_mem
    · cases other
    · exact not_mem_indentation indented rfl char_mem
  · intro last
    rcases ends last with other | char_mem
    · cases other
    · exact not_mem_indentation indented rfl char_mem

variable {rest : List (List Char)} (empty : ∀ line ∈ rest, line = indentation)

include empty

theorem commonIndent_framed
    (flush : ∃ line ∈ lines, isBlankLine line = false ∧ indentOf line = 0) :
    commonIndent ([] :: (lines.map (indentation ++ ·) ++ rest)) = indentation.length := by
  rcases flush with ⟨line, line_mem, visible, flush⟩
  have mem : indentation ++ line ∈ ([] :: (lines.map (indentation ++ ·) ++ rest)).tail :=
    List.mem_append_left _ (List.mem_map_of_mem line_mem)
  have shown : isBlankLine (indentation ++ line) = false := by
    rw [isBlankLine_indented_append indented, visible]
  refine Nat.le_antisymm ?_ ?_
  · have bound := commonIndent_le mem shown
    rwa [indentOf_append indented, flush] at bound
  · rcases exists_commonIndent ⟨_, mem, shown⟩ with ⟨least, least_mem, visible, same⟩
    rw [← same]
    rcases List.mem_append.mp least_mem with inLines | inRest
    · rcases List.mem_map.mp inLines with ⟨source, -, rfl⟩
      rw [indentOf_append indented]
      exact Nat.le_add_right _ _
    · rw [empty least inRest, isBlankLine_of_indented indented] at visible
      cases visible

theorem cutLines?_framed :
    cutLines? indentation.length ([] :: (lines.map (indentation ++ ·) ++ rest)) =
      some ([] :: (lines ++ rest.map fun _ => [])) := by
  refine cutLines?_eq_some_iff.mpr (.inr ⟨_, _, _, rfl, rfl, ?_⟩)
  rw [List.map_append, List.map_append, List.map_map, List.map_map]
  congr 1
  · exact List.map_congr_left fun line _ => cutIndent?_append indented line
  · refine List.map_congr_left fun line line_mem => ?_
    have cut := cutIndent?_append indented []
    rw [List.append_nil] at cut
    rw [empty line line_mem]
    exact cut

omit empty in
/-- What frames lines, and a carriage return at the end of each, is layout. -/
theorem dedent?_framed (free : ∀ line ∈ lines, '\n' ∉ line)
    (head : ∀ line ∈ lines.head?, isBlankLine line = false)
    (last : ∀ line ∈ lines.getLast?, isBlankLine line = false)
    (flush : ∃ line ∈ lines, isBlankLine line = false ∧ indentOf line = 0) :
    dedent? (framed indentation lines) = some (join ['\n'] (lines.map withoutReturn)) := by
  rcases lines_framed indented free with ⟨rest, empty, split⟩
  have shared : commonIndent ([] :: ((lines.map withoutReturn).map (indentation ++ ·) ++ rest)) =
      indentation.length := by
    refine commonIndent_framed indented empty ?_
    rcases flush with ⟨line, line_mem, visible, flush⟩
    exact ⟨_, List.mem_map_of_mem line_mem, by simpa using visible, by simpa using flush⟩
  have trimmed : trimLines ([] :: (lines.map withoutReturn ++ rest.map fun _ => [])) =
      lines.map withoutReturn := by
    have some : lines.map withoutReturn ≠ [] := by
      rcases flush with ⟨line, line_mem, -⟩
      exact List.ne_nil_of_mem (List.mem_map_of_mem line_mem)
    change trimLines ([[]] ++ lines.map withoutReturn ++ rest.map fun _ => []) = _
    refine trimLines_surrounded ?_ ?_ ?_ some
    · intro line line_mem
      rcases List.mem_append.mp line_mem with inFront | inRest
      · rw [List.mem_singleton.mp inFront]
        rfl
      · rcases List.mem_map.mp inRest with ⟨_, -, rfl⟩
        rfl
    · rw [List.head?_map]
      simpa using head
    · rw [List.getLast?_map]
      simpa using last
  rw [dedent?, split, shared]
  simp only [cutLines?_framed indented empty, Option.bind_eq_bind, Option.bind_some, trimmed]

omit empty in
/-- Lines that are left by taking layout off survive being framed if none ends with a carriage
return. -/
theorem AreDedented.dedent?_framed_iff (dedented : AreDedented pieces)
    (several : 1 < pieces.length) :
    dedent? (framed indentation (Text.lines (join ['\n'] pieces))) = some (join ['\n'] pieces) ↔
      ∀ line ∈ pieces, line.getLast? ≠ some '\r' := by
  rcases List.eq_nil_or_concat pieces with rfl | ⟨front, last, rfl⟩
  · cases several
  rw [List.concat_eq_append] at dedented several ⊢
  have free : ∀ line ∈ Text.lines (join ['\n'] (front ++ [last])), '\n' ∉ line :=
    fun _ line_mem feed_mem =>
      Text.not_mem_flatten_lines _ (List.mem_flatten_of_mem line_mem feed_mem)
  rw [dedented.lines_join] at free ⊢
  have frame : dedent? (framed indentation (front.map withoutReturn ++ [last])) =
      some (join ['\n'] ((front.map withoutReturn).map withoutReturn ++ [withoutReturn last])) := by
    rw [dedent?_framed indented free, List.map_append, List.map_singleton]
    · intro line first
      cases front with
      | nil => exact absurd several (Nat.lt_irrefl 1)
      | cons start front =>
          obtain rfl := Option.some.inj first
          rw [isBlankLine_withoutReturn]
          exact dedented.head start rfl
    · intro line final
      rw [List.getLast?_concat] at final
      exact dedented.last line (by rwa [List.getLast?_concat])
    · rcases dedented.flush several with ⟨line, line_mem, visible, flush⟩
      rcases List.mem_append.mp line_mem with inFront | atEnd
      · refine ⟨withoutReturn line, ?_, by simpa using visible, by simpa using flush⟩
        exact List.mem_append_left _ (List.mem_map_of_mem inFront)
      · exact ⟨line, List.mem_append_right _ atEnd, visible, flush⟩
  have same : join ['\n'] ((front.map withoutReturn).map withoutReturn ++ [withoutReturn last]) =
      join ['\n'] (front ++ [last]) ↔
        (front.map withoutReturn).map withoutReturn ++ [withoutReturn last] = front ++ [last] := by
    refine ⟨Text.join_injective (by simp) (by simp) ?_ dedented.free, congrArg _⟩
    have shorter : ∀ line ∈ (front.map withoutReturn ++ [last]).map withoutReturn, '\n' ∉ line :=
      List.forall_mem_map.mpr fun line line_mem feed_mem =>
        free line line_mem ((Text.withoutReturn_sublist line).mem feed_mem)
    rwa [List.map_append] at shorter
  rw [frame, Option.some.injEq, same, List.append_singleton_inj,
    map_withoutReturn_twice_eq_self_iff, Text.withoutReturn_eq_self_iff, List.forall_mem_append,
    List.forall_mem_singleton]


end Framed

end BlockString

end WiredGraph
