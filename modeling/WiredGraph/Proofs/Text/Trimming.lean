import WiredGraph.Text.Blank

/-!
# Trimming

Trimming takes all blanks off both ends of a text and nothing else. What is left of a text is empty,
or it begins and ends with characters that are no blanks; a text like this is what is left of
itself, whatever blanks are put around it.
-/

namespace WiredGraph

namespace Text

/-- Text that is made of blanks, if of anything. -/
def Blanks (text : List Char) : Prop := ∀ char ∈ text, isBlank char = true

/-- Text with a first character, which is no blank. -/
def StartsVisibly (text : List Char) : Prop :=
  ∃ char rest, text = char :: rest ∧ isBlank char = false

/-- Text with a last character, which is no blank. -/
def EndsVisibly (text : List Char) : Prop :=
  ∃ front char, text = front ++ [char] ∧ isBlank char = false

variable {text front back : List Char}

theorem blanks_nil : Blanks [] := fun _ char_mem => absurd char_mem List.not_mem_nil

theorem Blanks.append (first : Blanks front) (second : Blanks back) : Blanks (front ++ back) := by
  intro char char_mem
  rcases List.mem_append.mp char_mem with inFront | inBack
  · exact first char inFront
  · exact second char inBack

theorem StartsVisibly.append (starts : StartsVisibly text) (back : List Char) :
    StartsVisibly (text ++ back) := by
  rcases starts with ⟨char, rest, rfl, visible⟩
  exact ⟨char, rest ++ back, rfl, visible⟩

theorem EndsVisibly.append (ends : EndsVisibly text) (front : List Char) :
    EndsVisibly (front ++ text) := by
  rcases ends with ⟨before, char, rfl, visible⟩
  exact ⟨front ++ before, char, (List.append_assoc _ _ _).symm, visible⟩

/-- Text without blanks begins and ends visibly, if there is any. -/
theorem visibly_of_forall (some : text ≠ []) (visible : ∀ char ∈ text, isBlank char = false) :
    StartsVisibly text ∧ EndsVisibly text := by
  constructor
  · rcases List.exists_cons_of_ne_nil some with ⟨char, rest, rfl⟩
    exact ⟨char, rest, rfl, visible char List.mem_cons_self⟩
  · exact ⟨text.dropLast, text.getLast some, (List.dropLast_concat_getLast some).symm,
      visible _ (List.getLast_mem some)⟩

section Ends

theorem trimStart_append (blanks : Blanks front) (text : List Char) :
    trimStart (front ++ text) = trimStart text :=
  List.dropWhile_append_of_pos blanks

theorem trimStart_of_starts (starts : StartsVisibly text) : trimStart text = text := by
  rcases starts with ⟨char, rest, rfl, visible⟩
  rw [trimStart, List.dropWhile_cons, if_neg (by simp [visible])]

theorem trimEnd_append (blanks : Blanks back) (text : List Char) :
    trimEnd (text ++ back) = trimEnd text := by
  rw [trimEnd, trimEnd, dropWhileEnd, dropWhileEnd, List.reverse_append,
    List.dropWhile_append_of_pos]
  intro char char_mem
  exact blanks char (List.mem_reverse.mp char_mem)

theorem trimEnd_of_ends (ends : EndsVisibly text) : trimEnd text = text := by
  rcases ends with ⟨before, char, rfl, visible⟩
  rw [trimEnd, dropWhileEnd, List.reverse_append, List.reverse_singleton, List.singleton_append,
    List.dropWhile_cons, if_neg (by simp [visible]), List.reverse_cons, List.reverse_reverse]

theorem exists_trimStart (text : List Char) :
    ∃ front, Blanks front ∧ text = front ++ trimStart text :=
  ⟨text.takeWhile isBlank, List.all_eq_true.mp List.all_takeWhile,
    List.takeWhile_append_dropWhile.symm⟩

theorem exists_trimEnd (text : List Char) : ∃ back, Blanks back ∧ text = trimEnd text ++ back := by
  rcases exists_trimStart text.reverse with ⟨front, blanks, split⟩
  refine ⟨front.reverse, fun char char_mem => blanks char (List.mem_reverse.mp char_mem), ?_⟩
  have whole := congrArg List.reverse split
  rwa [List.reverse_reverse, List.reverse_append] at whole

theorem starts_trimStart (text : List Char) :
    trimStart text = [] ∨ StartsVisibly (trimStart text) := by
  cases left : trimStart text with
  | nil => exact .inl rfl
  | cons char rest =>
      refine .inr ⟨char, rest, rfl, ?_⟩
      have first := List.head?_dropWhile_not isBlank text
      rw [← trimStart, left] at first
      simpa using first

theorem ends_trimEnd (text : List Char) : trimEnd text = [] ∨ EndsVisibly (trimEnd text) := by
  rcases starts_trimStart text.reverse with empty | ⟨char, rest, split, visible⟩
  · exact .inl (congrArg List.reverse empty)
  · refine .inr ⟨rest.reverse, char, ?_, visible⟩
    rw [← List.reverse_cons, ← split]
    rfl

end Ends

/-- Blanks around a text are taken off it. -/
theorem trim_surrounded (blanks : Blanks front) (also : Blanks back) (starts : StartsVisibly text)
    (ends : EndsVisibly text) : trim (front ++ text ++ back) = text := by
  rw [trim, List.append_assoc, trimStart_append blanks,
    trimStart_of_starts (starts.append back), trimEnd_append also, trimEnd_of_ends ends]

/-- Nothing but blanks is taken off a text. -/
theorem exists_trim (text : List Char) :
    ∃ front back, Blanks front ∧ Blanks back ∧ text = front ++ trim text ++ back := by
  rcases exists_trimStart text with ⟨front, blanks, split⟩
  rcases exists_trimEnd (trimStart text) with ⟨back, also, rest⟩
  refine ⟨front, back, blanks, also, ?_⟩
  rw [trim, List.append_assoc, ← rest]
  exact split

/-- What is left of a text begins and ends visibly, if there is any. -/
theorem visibly_trim (some : trim text ≠ []) :
    StartsVisibly (trim text) ∧ EndsVisibly (trim text) := by
  refine ⟨?_, (ends_trimEnd _).resolve_left some⟩
  rcases exists_trimEnd (trimStart text) with ⟨back, blanks, split⟩
  rw [← trim] at split
  rcases List.exists_cons_of_ne_nil some with ⟨char, rest, left⟩
  refine ⟨char, rest, left, ?_⟩
  rcases starts_trimStart text with empty | ⟨first, later, whole, visible⟩
  · rw [empty, left] at split
    cases split
  · rw [whole, left, List.cons_append, List.cons.injEq] at split
    rwa [← split.1]

end Text

end WiredGraph
