import Mathlib.Data.List.Flatten
import WiredGraph.Text.Cut

/-!
# Pieces and lines of texts

Cutting a text at a mark and putting pieces together are inverse to each other, as long as no piece
has the mark in it. The lines of a text are the pieces between its line feeds, but a carriage return
in front of a line feed is lost, and so is an empty piece at the end.
-/

namespace WiredGraph

namespace Text

variable {mark : Char} {text : List Char} {pieces : List (List Char)}

section Pieces

theorem splitOn_ne_nil (mark : Char) (text : List Char) : splitOn mark text ≠ [] := by
  cases text with
  | nil => exact List.cons_ne_nil _ _
  | cons char rest =>
      rw [splitOn]
      split
      · exact List.cons_ne_nil _ _
      · cases whole : splitOn mark rest with
        | nil => exact absurd whole (splitOn_ne_nil mark rest)
        | cons piece pieces => exact List.cons_ne_nil _ _

theorem splitOn_of_not_mem (free : mark ∉ text) : splitOn mark text = [text] := by
  induction text with
  | nil => rfl
  | cons char rest ih =>
      rw [List.mem_cons, not_or] at free
      rw [splitOn, if_neg (Ne.symm free.1), ih free.2]
      rfl

theorem splitOn_append (mark : Char) (front back : List Char) :
    splitOn mark (front ++ mark :: back) = splitOn mark front ++ splitOn mark back := by
  induction front with
  | nil => simp [splitOn]
  | cons char rest ih =>
      rw [List.cons_append, splitOn, splitOn, ih]
      split
      · rfl
      · cases whole : splitOn mark rest with
        | nil => exact absurd whole (splitOn_ne_nil mark rest)
        | cons piece pieces => rfl

/-- A text is cut at its first mark in only one way. -/
theorem cut_unique {front back other rest : List Char} (free : mark ∉ front) (also : mark ∉ other)
    (same : front ++ mark :: back = other ++ mark :: rest) : front = other ∧ back = rest := by
  have pieces := congrArg (splitOn mark) same
  rw [splitOn_append, splitOn_append, splitOn_of_not_mem free, splitOn_of_not_mem also] at pieces
  obtain rfl := (List.cons.inj pieces).1
  exact ⟨rfl, (List.cons.inj (List.append_cancel_left same)).2⟩

theorem not_mem_of_mem_splitOn {piece : List Char} (piece_mem : piece ∈ splitOn mark text) :
    mark ∉ piece := by
  induction text generalizing piece with
  | nil =>
      rw [splitOn, List.mem_singleton] at piece_mem
      rw [piece_mem]
      exact List.not_mem_nil
  | cons char rest ih =>
      rw [splitOn] at piece_mem
      split at piece_mem
      · rcases List.mem_cons.mp piece_mem with rfl | later
        · exact List.not_mem_nil
        · exact ih later
      · next differs =>
          cases whole : splitOn mark rest with
          | nil => exact absurd whole (splitOn_ne_nil mark rest)
          | cons first pieces =>
              rw [whole] at piece_mem ih
              rcases List.mem_cons.mp piece_mem with rfl | later
              · rw [List.mem_cons, not_or]
                exact ⟨Ne.symm differs, ih List.mem_cons_self⟩
              · exact ih (List.mem_cons_of_mem first later)

/-- Every character of a text is the mark or stands in a piece. -/
theorem exists_mem_splitOn (mark : Char) {text : List Char} {char : Char}
    (char_mem : char ∈ text) : char = mark ∨ ∃ piece ∈ splitOn mark text, char ∈ piece := by
  induction text with
  | nil => nomatch char_mem
  | cons first rest ih =>
      rw [splitOn]
      rcases List.mem_cons.mp char_mem with rfl | later
      · split
        · next same => exact .inl same
        · cases whole : splitOn mark rest with
          | nil => exact absurd whole (splitOn_ne_nil mark rest)
          | cons piece pieces => exact .inr ⟨_, List.mem_cons_self, List.mem_cons_self⟩
      · rcases ih later with same | ⟨piece, piece_mem, char_mem⟩
        · exact .inl same
        · refine .inr ?_
          split
          · exact ⟨piece, List.mem_cons_of_mem _ piece_mem, char_mem⟩
          · cases whole : splitOn mark rest with
            | nil => exact absurd whole (splitOn_ne_nil mark rest)
            | cons other pieces =>
                rw [whole] at piece_mem
                rcases List.mem_cons.mp piece_mem with rfl | there
                · exact ⟨_, List.mem_cons_self, List.mem_cons_of_mem _ char_mem⟩
                · exact ⟨piece, List.mem_cons_of_mem _ there, char_mem⟩

theorem join_cons_of_ne_nil (separator piece : List Char) (more : pieces ≠ []) :
    join separator (piece :: pieces) = piece ++ separator ++ join separator pieces := by
  cases pieces with
  | nil => exact absurd rfl more
  | cons next pieces => rfl

theorem cons_join_eq_flatten (mark : Char) (some_piece : pieces ≠ []) :
    mark :: join [mark] pieces = (pieces.map (mark :: ·)).flatten := by
  induction pieces with
  | nil => exact absurd rfl some_piece
  | cons piece rest ih =>
      cases rest with
      | nil => simp [join]
      | cons next others =>
          rw [List.map_cons, List.flatten_cons, ← ih (List.cons_ne_nil next others)]
          simp [join]

theorem splitOn_join (some : pieces ≠ []) (free : ∀ piece ∈ pieces, mark ∉ piece) :
    splitOn mark (join [mark] pieces) = pieces := by
  induction pieces with
  | nil => exact absurd rfl some
  | cons piece pieces ih =>
      have here := free piece List.mem_cons_self
      by_cases more : pieces = []
      · subst more
        exact splitOn_of_not_mem here
      · rw [join_cons_of_ne_nil _ _ more, List.append_assoc, List.singleton_append, splitOn_append,
          splitOn_of_not_mem here,
          ih more fun other other_mem => free other (List.mem_cons_of_mem _ other_mem)]
        rfl

theorem join_injective {others : List (List Char)} (some : pieces ≠ []) (more : others ≠ [])
    (free : ∀ piece ∈ pieces, mark ∉ piece) (alsoFree : ∀ piece ∈ others, mark ∉ piece)
    (same : join [mark] pieces = join [mark] others) : pieces = others := by
  rw [← splitOn_join some free, same, splitOn_join more alsoFree]

theorem join_splitOn (mark : Char) (text : List Char) : join [mark] (splitOn mark text) = text := by
  induction text with
  | nil => rfl
  | cons char rest ih =>
      have more := splitOn_ne_nil mark rest
      rw [splitOn]
      split
      · next same => rw [join_cons_of_ne_nil _ _ more, ih, same]; rfl
      · cases whole : splitOn mark rest with
        | nil => exact absurd whole more
        | cons piece pieces =>
            rw [whole] at ih
            rw [← ih]
            cases pieces <;> rfl

/-- The pieces of a text are those without the mark that it is put together from. -/
theorem splitOn_eq_iff :
    splitOn mark text = pieces ↔
      text = join [mark] pieces ∧ pieces ≠ [] ∧ ∀ piece ∈ pieces, mark ∉ piece := by
  constructor
  · rintro rfl
    exact ⟨(join_splitOn mark text).symm, splitOn_ne_nil mark text,
      fun _ => not_mem_of_mem_splitOn⟩
  · rintro ⟨rfl, some, free⟩
    exact splitOn_join some free

theorem join_append {others : List (List Char)} (separator : List Char) (some : pieces ≠ [])
    (more : others ≠ []) :
    join separator (pieces ++ others) =
      join separator pieces ++ separator ++ join separator others := by
  induction pieces with
  | nil => exact absurd rfl some
  | cons piece pieces ih =>
      by_cases last : pieces = []
      · subst last
        exact join_cons_of_ne_nil separator piece more
      · rw [List.cons_append, join_cons_of_ne_nil _ _ last, join_cons_of_ne_nil, ih last]
        · simp only [List.append_assoc]
        · simp [last]

theorem flatten_sublist_join (separator : List Char) (pieces : List (List Char)) :
    pieces.flatten.Sublist (join separator pieces) := by
  induction pieces with
  | nil => exact List.Sublist.slnil
  | cons piece pieces ih =>
      by_cases more : pieces = []
      · subst more
        simp [join]
      · rw [join_cons_of_ne_nil _ _ more, List.flatten_cons]
        exact (List.sublist_append_left piece separator).append ih

theorem count_join {char : Char} {separator : List Char} (other : char ∉ separator)
    (pieces : List (List Char)) :
    (join separator pieces).count char = pieces.flatten.count char := by
  induction pieces with
  | nil => rfl
  | cons piece pieces ih =>
      by_cases more : pieces = []
      · subst more
        simp [join]
      · rw [join_cons_of_ne_nil _ _ more, List.flatten_cons, List.count_append, List.count_append,
          List.count_append, ih, List.count_eq_zero_of_not_mem other, Nat.add_zero]

theorem filter_ne_join (free : ∀ piece ∈ pieces, mark ∉ piece) :
    (join [mark] pieces).filter (· ≠ mark) = pieces.flatten := by
  induction pieces with
  | nil => rfl
  | cons piece pieces ih =>
      rw [List.forall_mem_cons] at free
      have kept : piece.filter (· ≠ mark) = piece := by
        rw [List.filter_eq_self]
        exact fun char char_mem => decide_eq_true fun same => free.1 (same ▸ char_mem)
      by_cases more : pieces = []
      · subst more
        simpa [join] using kept
      · rw [join_cons_of_ne_nil _ _ more, List.filter_append, List.filter_append, kept, ih free.2]
        simp

theorem flatten_splitOn (mark : Char) (text : List Char) :
    (splitOn mark text).flatten = text.filter (· ≠ mark) := by
  rw [← filter_ne_join fun _ => not_mem_of_mem_splitOn, join_splitOn]

/-- At every mark in what pieces are put together to, one of them ends and another one begins. -/
theorem eq_splitOn_append_of_join {front back : List Char} (free : ∀ piece ∈ pieces, mark ∉ piece)
    (whole : join [mark] pieces = front ++ mark :: back) :
    pieces = splitOn mark front ++ splitOn mark back := by
  have some : pieces ≠ [] := by
    rintro rfl
    simp [join] at whole
  rw [← splitOn_append, ← whole, splitOn_join some free]

/-- A text without the mark does not reach over one. -/
theorem infix_append_cons_iff {wanted front back : List Char} (free : mark ∉ wanted) :
    wanted <:+: front ++ mark :: back ↔ wanted <:+: front ∨ wanted <:+: back := by
  constructor
  · rintro ⟨before, after, whole⟩
    rw [List.append_assoc] at whole
    rcases List.append_eq_append_iff.mp whole with ⟨rest, rfl, inRest⟩ | ⟨rest, rfl, inBack⟩
    · rcases List.append_eq_append_iff.mp inRest with ⟨later, rfl, -⟩ | ⟨later, rfl, cut⟩
      · exact .inl ⟨before, later, List.append_assoc _ _ _⟩
      · cases later with
        | nil => exact .inl ⟨before, [], by simp⟩
        | cons char later =>
            obtain ⟨rfl, -⟩ := List.cons.inj cut
            exact absurd (List.mem_append_right _ List.mem_cons_self) free
    · cases rest with
      | nil =>
          cases wanted with
          | nil => exact .inl (List.nil_infix)
          | cons char wanted =>
              obtain ⟨rfl, -⟩ := List.cons.inj inBack
              exact absurd List.mem_cons_self free
      | cons char rest =>
          obtain ⟨-, rfl⟩ := List.cons.inj inBack
          exact .inr ⟨rest, after, List.append_assoc _ _ _⟩
  · rintro (within | within)
    · exact within.trans (List.infix_append' [] front _)
    · exact within.trans ⟨front ++ [mark], [], by simp⟩

/-- A text without the mark that stands at the end stands there behind the last mark. -/
theorem suffix_append_cons_iff {wanted front back : List Char} (free : mark ∉ wanted) :
    wanted <:+ front ++ mark :: back ↔ wanted <:+ back := by
  constructor
  · intro ends
    rcases List.suffix_or_suffix_of_suffix ends (List.suffix_append front (mark :: back)) with
      within | across
    · rcases List.suffix_cons_iff.mp within with rfl | behind
      · exact absurd List.mem_cons_self free
      · exact behind
    · exact absurd (across.mem List.mem_cons_self) free
  · exact fun ends => ends.trans ((List.suffix_cons mark back).trans (List.suffix_append _ _))

/-- A text without the mark stands in a piece if it stands in what the pieces are put together
to. -/
theorem infix_join_iff {wanted : List Char} (some : wanted ≠ []) (free : mark ∉ wanted) :
    wanted <:+: join [mark] pieces ↔ ∃ piece ∈ pieces, wanted <:+: piece := by
  induction pieces with
  | nil => simp [join, some]
  | cons piece pieces ih =>
      by_cases more : pieces = []
      · subst more
        simp [join]
      · rw [join_cons_of_ne_nil _ _ more, List.append_assoc, List.singleton_append,
          infix_append_cons_iff free, ih]
        simp

end Pieces

section Lines

/-- A line without the carriage return at its end, if it has one. -/
def withoutReturn (line : List Char) : List Char := (dropEnd? ['\r'] line).getD line

theorem withoutReturn_append_return (line : List Char) : withoutReturn (line ++ ['\r']) = line := by
  rw [withoutReturn, dropEnd?_eq_some.mpr rfl]
  rfl

theorem withoutReturn_of_getLast? {line : List Char} (other : line.getLast? ≠ some '\r') :
    withoutReturn line = line := by
  rw [withoutReturn]
  cases cut : dropEnd? ['\r'] line with
  | none => rfl
  | some rest =>
      rw [dropEnd?_eq_some.mp cut] at other
      exact absurd List.getLast?_concat other

/-- A line ends with a carriage return, or nothing is taken off it. -/
theorem withoutReturn_cases (line : List Char) :
    line = withoutReturn line ++ ['\r'] ∨
      withoutReturn line = line ∧ line.getLast? ≠ some '\r' := by
  by_cases ends : line.getLast? = some '\r'
  · obtain ⟨front, rfl⟩ := List.getLast?_eq_some_iff.mp ends
    exact .inl (by rw [withoutReturn_append_return])
  · exact .inr ⟨withoutReturn_of_getLast? ends, ends⟩

theorem withoutReturn_eq_self_iff {line : List Char} :
    withoutReturn line = line ↔ line.getLast? ≠ some '\r' := by
  refine ⟨?_, withoutReturn_of_getLast?⟩
  intro same
  rcases withoutReturn_cases line with ends | ⟨-, other⟩
  · rw [same] at ends
    simpa using congrArg List.length ends
  · exact other

theorem withoutReturn_append {front back : List Char} (free : '\r' ∉ front) :
    withoutReturn (front ++ back) = front ++ withoutReturn back := by
  rcases withoutReturn_cases back with ends | ⟨same, other⟩
  · rw [ends, ← List.append_assoc, withoutReturn_append_return, withoutReturn_append_return]
  · rw [same, withoutReturn_of_getLast?]
    intro ends
    rw [List.getLast?_append] at ends
    cases last : back.getLast? with
    | some char => simp_all
    | none =>
        rw [last] at ends
        exact free (List.mem_of_getLast? ends)

theorem withoutReturn_sublist (line : List Char) : (withoutReturn line).Sublist line := by
  rcases withoutReturn_cases line with ends | ⟨same, -⟩
  · rw [ends, withoutReturn_append_return]
    exact List.sublist_append_left _ _
  · simp [same]

theorem lines_join (free : ∀ piece ∈ pieces, '\n' ∉ piece) {last : List Char}
    (notFeed : '\n' ∉ last) :
    lines (join ['\n'] (pieces ++ [last])) =
      pieces.map withoutReturn ++ if last = [] then [] else [last] := by
  have split : splitOn '\n' (join ['\n'] (pieces ++ [last])) = pieces ++ [last] := by
    refine splitOn_join (List.append_ne_nil_of_right_ne_nil _ (List.cons_ne_nil _ _)) ?_
    intro piece piece_mem
    rcases List.mem_append.mp piece_mem with before | atEnd
    · exact free piece before
    · rwa [List.mem_singleton.mp atEnd]
  simp only [lines, split, List.dropLast_concat, List.getLast?_concat]
  cases last with
  | nil => simp [withoutReturn]
  | cons char rest => rfl

/-- Every text is made of lines with line feeds behind them and of what stands after them. -/
theorem exists_join (text : List Char) :
    ∃ pieces last, text = join ['\n'] (pieces ++ [last]) ∧
      (∀ piece ∈ pieces, '\n' ∉ piece) ∧ '\n' ∉ last := by
  have some := splitOn_ne_nil '\n' text
  have free : ∀ piece ∈ splitOn '\n' text, '\n' ∉ piece := fun _ => not_mem_of_mem_splitOn
  refine ⟨(splitOn '\n' text).dropLast, (splitOn '\n' text).getLast some, ?_, ?_, ?_⟩
  · rw [List.dropLast_concat_getLast, join_splitOn]
  · exact fun piece piece_mem => free piece ((List.dropLast_sublist _).mem piece_mem)
  · exact free _ (List.getLast_mem some)

theorem flatten_lines_sublist (text : List Char) : (lines text).flatten.Sublist text := by
  rcases exists_join text with ⟨pieces, last, rfl, free, notFeed⟩
  refine List.Sublist.trans ?_ (flatten_sublist_join _ _)
  rw [lines_join free notFeed, List.flatten_append, List.flatten_append]
  refine List.Sublist.append ?_ ?_
  · rw [← List.flatMap_def, ← List.flatMap_id]
    exact List.Sublist.flatMap_right _ fun piece _ => withoutReturn_sublist piece
  · split
    · exact List.nil_sublist _
    · exact List.Sublist.refl _

theorem not_mem_flatten_lines (text : List Char) : '\n' ∉ (lines text).flatten := by
  rcases exists_join text with ⟨pieces, last, rfl, free, notFeed⟩
  rw [lines_join free notFeed, List.flatten_append, List.mem_append, not_or]
  constructor
  · intro feed_mem
    rcases List.mem_flatten.mp feed_mem with ⟨line, line_mem, feed_mem⟩
    rcases List.mem_map.mp line_mem with ⟨piece, piece_mem, rfl⟩
    exact free piece piece_mem ((withoutReturn_sublist piece).mem feed_mem)
  · split
    · exact List.not_mem_nil
    · simpa using notFeed

end Lines

end Text

end WiredGraph
