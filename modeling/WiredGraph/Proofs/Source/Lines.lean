import WiredGraph.Proofs.Source.LineStarts
import WiredGraph.Source.File

/-!
# Lines of offsets

The line that the index of a text gives for an offset is one more than the number of line feeds
before the offset. The number of line feeds adds up over the parts of a text.
-/

namespace WiredGraph

variable {text front back : List Char} {offset : Nat}

@[simp]
theorem lineFeedsBefore_nil (offset : Nat) : lineFeedsBefore offset [] = 0 := rfl

theorem lineFeedsBefore_zero (text : List Char) : lineFeedsBefore 0 text = 0 := by
  cases text with
  | nil => rfl
  | cons char rest => rw [lineFeedsBefore, if_pos char.utf8Size_pos]

theorem lineFeedsBefore_of_short {char : Char} (short : offset < char.utf8Size)
    (rest : List Char) : lineFeedsBefore offset (char :: rest) = 0 := by
  rw [lineFeedsBefore, if_pos short]

/-- A character that ends before an offset counts if it is a line feed. -/
theorem lineFeedsBefore_add (offset : Nat) (char : Char) (rest : List Char) :
    lineFeedsBefore (char.utf8Size + offset) (char :: rest) =
      [char].count '\n' + lineFeedsBefore offset rest := by
  rw [lineFeedsBefore, if_neg (by omega), Nat.add_sub_cancel_left, List.count_singleton]
  simp only [beq_iff_eq]

/-- Before an offset behind the first part of a text stand all line feeds of that part. -/
theorem lineFeedsBefore_append_add (offset : Nat) (front back : List Char) :
    lineFeedsBefore (Utf8.length front + offset) (front ++ back) =
      front.count '\n' + lineFeedsBefore offset back := by
  induction front with
  | nil => simp
  | cons char rest ih =>
      rw [Utf8.length_cons, Nat.add_assoc, List.cons_append, lineFeedsBefore_add, ih,
        ← Nat.add_assoc, ← List.count_append, List.singleton_append]

/-- Before an offset within the first part of a text stand only line feeds of that part. -/
theorem lineFeedsBefore_append (offset : Nat) (front back : List Char) :
    lineFeedsBefore offset (front ++ back) =
      lineFeedsBefore offset front + lineFeedsBefore (offset - Utf8.length front) back := by
  induction front generalizing offset with
  | nil => simp
  | cons char rest ih =>
      rw [List.cons_append, lineFeedsBefore, lineFeedsBefore]
      split
      · next short =>
          have nothing : offset - Utf8.length (char :: rest) = 0 := by
            rw [Utf8.length_cons]
            omega
          rw [nothing, lineFeedsBefore_zero]
      · rw [ih, Utf8.length_cons, Nat.sub_sub, Nat.add_assoc]

theorem lineFeedsBefore_of_not_mem (none : '\n' ∉ text) (offset : Nat) :
    lineFeedsBefore offset text = 0 := by
  induction text generalizing offset with
  | nil => rfl
  | cons char rest ih =>
      rw [List.mem_cons, not_or] at none
      rw [lineFeedsBefore, ih none.2, if_neg (Ne.symm none.1), ite_self]

theorem LineIndex.line_locate (text : List Char) (offset : Nat) :
    ((ofText text).locate offset).line = lineFeedsBefore offset text + 1 := by
  rw [lineFeedsBefore_eq_count, ← (lineAt_ofText text offset).2]
  rfl

theorem SourceFile.lineOf_eq (file : SourceFile) (span : Span) :
    file.lineOf span = lineFeedsBefore span.start file.chars + 1 + (file.firstLine - 1) := by
  rw [← LineIndex.line_locate]
  rfl

end WiredGraph
