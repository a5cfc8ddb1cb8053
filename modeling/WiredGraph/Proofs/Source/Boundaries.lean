import WiredGraph.Source.Span

/-!
# Character boundaries

An offset is a character boundary of a text if the text can be cut there. A span covers a text of a
source if that text stands between the two ends of the span, which are then boundaries, and cutting
the span out gives the text.
-/

namespace WiredGraph

namespace Utf8

theorem splitAt?_length_append (before after : List Char) :
    splitAt? (length before) (before ++ after) = some (before, after) := by
  induction before with
  | nil => cases after <;> rfl
  | cons char before ih =>
      obtain ⟨size, positive⟩ : ∃ size, char.utf8Size = size + 1 :=
        Nat.exists_eq_add_one_of_ne_zero (Nat.ne_of_gt (Char.utf8Size_pos char))
      have place : length (char :: before) = size + length before + 1 := by
        rw [length_cons, positive]
        omega
      have left : size + length before + 1 - (size + 1) = length before := by omega
      rw [place, List.cons_append, splitAt?, positive, if_pos (by omega), left, ih]
      rfl

theorem length_pos {text : List Char} (some : text ≠ []) : 0 < length text := by
  cases text with
  | nil => exact absurd rfl some
  | cons char rest => exact Nat.add_pos_left char.utf8Size_pos _

/-- A text can be cut at an offset. -/
def Boundary (text : List Char) (offset : Nat) : Prop :=
  ∃ before after, text = before ++ after ∧ length before = offset

theorem Boundary.le_length {text : List Char} {offset : Nat} (boundary : Boundary text offset) :
    offset ≤ length text := by
  rcases boundary with ⟨before, after, rfl, rfl⟩
  rw [length_append]
  exact Nat.le_add_right _ _

theorem boundary_zero (text : List Char) : Boundary text 0 := ⟨[], text, rfl, rfl⟩

theorem boundary_length (text : List Char) : Boundary text (length text) :=
  ⟨text, [], (List.append_nil text).symm, rfl⟩

/-- Of two boundaries, the one farther on is one. -/
theorem Boundary.max {text : List Char} {first second : Nat} (here : Boundary text first)
    (there : Boundary text second) : Boundary text (max first second) := by
  rcases Nat.le_total first second with le | le
  · rwa [Nat.max_eq_right le]
  · rwa [Nat.max_eq_left le]

/-- A character of a text lies across an offset. -/
def LiesAcross (text : List Char) (offset : Nat) : Prop :=
  ∃ before char after, text = before ++ char :: after ∧ length before < offset ∧
    offset < length before + char.utf8Size

theorem LiesAcross.cons {text : List Char} {offset : Nat} (across : LiesAcross text offset)
    (char : Char) : LiesAcross (char :: text) (char.utf8Size + offset) := by
  rcases across with ⟨before, middle, after, rfl, starts, ends⟩
  exact ⟨char :: before, middle, after, rfl, by rw [length_cons]; omega, by rw [length_cons]; omega⟩

theorem LiesAcross.not_boundary {text : List Char} {offset : Nat}
    (across : LiesAcross text offset) : ¬Boundary text offset := by
  rcases across with ⟨before, char, after, rfl, starts, ends⟩
  rintro ⟨front, back, whole, rfl⟩
  rcases List.append_eq_append_iff.mp whole with ⟨more, rfl, rest⟩ | ⟨more, rfl, -⟩
  · rw [length_append] at starts ends
    cases more with
    | nil => exact Nat.lt_irrefl _ starts
    | cons first more =>
        obtain ⟨rfl, -⟩ := List.cons.inj rest
        rw [length_cons] at ends
        omega
  · rw [length_append] at starts
    omega

/-- A text cannot be cut behind its end, nor where a character lies across the cut. -/
theorem splitAt?_eq_none_iff {offset : Nat} {text : List Char} :
    splitAt? offset text = none ↔ length text < offset ∨ LiesAcross text offset := by
  constructor
  · intro uncut
    induction text generalizing offset with
    | nil =>
        cases offset with
        | zero => cases uncut
        | succ offset => exact .inl (Nat.succ_pos offset)
    | cons char rest ih =>
        cases offset with
        | zero => cases uncut
        | succ offset =>
            rw [splitAt?] at uncut
            split at uncut
            · next fits =>
                have whole : char.utf8Size + (offset + 1 - char.utf8Size) = offset + 1 := by omega
                rcases ih (Option.map_eq_none_iff.mp uncut) with short | across
                · left
                  rw [length_cons]
                  omega
                · right
                  rw [← whole]
                  exact across.cons char
            · next large =>
                exact .inr ⟨[], char, rest, rfl, Nat.succ_pos offset, by rw [length_nil]; omega⟩
  · intro across
    cases cut : splitAt? offset text with
    | none => rfl
    | some parts =>
        have boundary : Boundary text offset := ⟨_, _, splitAt?_eq_some cut⟩
        rcases across with short | across
        · exact absurd boundary.le_length (Nat.not_le_of_lt short)
        · exact absurd boundary across.not_boundary

end Utf8

namespace Span

variable {source covered : List Char} {span : Span}

/-- The text that a span covers in a source. -/
def Covers (source : List Char) (span : Span) (covered : List Char) : Prop :=
  ∃ before after, source = before ++ covered ++ after ∧ Utf8.length before = span.start ∧
    span.start + Utf8.length covered = span.stop

theorem Covers.start_le_stop (covers : span.Covers source covered) : span.start ≤ span.stop := by
  rcases covers with ⟨before, after, -, -, stop⟩
  omega

theorem Covers.start_boundary (covers : span.Covers source covered) :
    Utf8.Boundary source span.start := by
  rcases covers with ⟨before, after, rfl, start, -⟩
  exact ⟨before, covered ++ after, List.append_assoc _ _ _, start⟩

theorem Covers.stop_boundary (covers : span.Covers source covered) :
    Utf8.Boundary source span.stop := by
  rcases covers with ⟨before, after, rfl, start, stop⟩
  exact ⟨before ++ covered, after, rfl, by rw [Utf8.length_append, start, stop]⟩

theorem Covers.slice_eq (covers : span.Covers source covered) : span.slice source = covered := by
  rcases covers with ⟨before, after, rfl, start, stop⟩
  have inside : span.stop - span.start = Utf8.length covered := by omega
  have cut := Utf8.splitAt?_length_append before (covered ++ after)
  rw [start, ← List.append_assoc] at cut
  rw [slice, Utf8.slice?, cut, inside]
  simp only [Option.bind_eq_bind, Option.bind_some, Utf8.splitAt?_length_append]
  rw [if_pos (by omega)]
  rfl

/-- No text is covered at a boundary by the empty span. -/
theorem covers_empty {offset : Nat} (boundary : Utf8.Boundary source offset) :
    (empty offset).Covers source [] := by
  rcases boundary with ⟨before, after, rfl, start⟩
  exact ⟨before, after, by rw [List.append_nil], start, rfl⟩

end Span

end WiredGraph
