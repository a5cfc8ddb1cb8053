import WiredGraph.Operation.Body
import WiredGraph.Proofs.Token.Spelling

/-!
# Collapsing blanks

The lexemes of a text stand apart without regard to how many blanks are between them, so that
collapsing its blanks leaves all of them as they are but the quoted texts: in those, a run of
spaces becomes one space as it does everywhere else. Other blanks do not occur in quoted texts,
because they are written as escapes.
-/

namespace WiredGraph

open Scan

namespace OperationBody

/-- Whether two bodies with the same hash are the same but for their blanks. No digest can promise
this for all pairs of bodies. -/
def Apart (first second : String) : Prop :=
  hash first = hash second → normalize first = normalize second

instance (first second : String) : Decidable (Apart first second) :=
  inferInstanceAs (Decidable (_ → _))

/-- A text with every run of spaces made one space, given whether one stands just before. -/
def squeezeAfter : (blank : Bool) → List Char → List Char
  | _, [] => []
  | blank, char :: rest =>
      if char = ' ' then
        if blank then squeezeAfter true rest else ' ' :: squeezeAfter true rest
      else
        char :: squeezeAfter false rest

/-- A text with each run of spaces in it made one. -/
def squeeze (text : String) : String := String.ofList (squeezeAfter false text.toList)

/-- A lexeme as it is after collapsing blanks. -/
def collapseLexeme (lexeme : Lexeme) : Lexeme :=
  if lexeme.kind = .string then ⟨.string, normalize lexeme.text⟩ else lexeme

/-- A character that passes a test which blanks do not pass is not collapsed. -/
theorem isCollapsed_of_test (test : Char → Bool) {char : Char} (passes : test char = true)
    (blanks : [' ', '\t', '\n', '\r'].any test = false) :
    isCollapsed char = false := by
  rw [← Bool.not_eq_true]
  intro collapsed
  have blank : char ∈ [' ', '\t', '\n', '\r'] := by
    simpa [isCollapsed, or_assoc] using collapsed
  exact List.any_eq_false.mp blanks char blank passes

/-- A piece without blanks stays as it is. -/
theorem collapseAfter_append {piece : List Char} (nonempty : piece ≠ [])
    (solid : ∀ char ∈ piece, isCollapsed char = false) (blank : Bool) (rest : List Char) :
    collapseAfter blank (piece ++ rest) = piece ++ collapseAfter false rest := by
  induction piece generalizing blank with
  | nil => exact absurd rfl nonempty
  | cons first later ih =>
      rcases List.forall_mem_cons.mp solid with ⟨here, there⟩
      rw [List.cons_append, collapseAfter, here, if_neg Bool.false_ne_true, List.cons_append]
      cases later with
      | nil => rfl
      | cons next later => rw [ih (List.cons_ne_nil _ _) there]

theorem standsApart_collapseAfter {rest : List Char} (apart : StandsApart rest) :
    StandsApart (collapseAfter false rest) := by
  cases rest with
  | nil => exact standsApart_nil
  | cons first later =>
      rw [collapseAfter]
      split
      · exact standsApart_cons.mpr (by decide)
      · exact standsApart_cons.mpr (standsApart_cons.mp apart)

section Quoted

/-- A character other than a space is written without blanks. -/
theorem isCollapsed_encodeChar {char : Char} (noSpace : char ≠ ' ') :
    ∀ written ∈ Quoted.encodeChar char, isCollapsed written = false := by
  have digits : ∀ value < 16, isCollapsed (Quoted.upperHexDigit value) = false := by decide
  unfold Quoted.encodeChar
  iterate 7
    split
    · simp [isCollapsed]
  split
  · next control =>
    simp only [List.forall_mem_cons, List.not_mem_nil, false_implies, implies_true, and_true]
    exact ⟨by decide, by decide, by decide, by decide, digits _ (by omega), digits _ (by omega)⟩
  · intro written written_mem
    obtain rfl := List.mem_singleton.mp written_mem
    simp_all [isCollapsed]

theorem encodeChar_ne_nil (char : Char) : Quoted.encodeChar char ≠ [] := by
  rcases Quoted.encodeChar_cases char with ⟨shown, -⟩ | ⟨_, shown, -⟩ | ⟨-, shown⟩ <;>
    simp [shown]

/-- In a quoted text, only spaces are collapsed. A space is the only character that is written with
a blank. -/
theorem collapseAfter_flatMap_encodeChar (blank : Bool) (text rest : List Char) :
    collapseAfter blank (text.flatMap Quoted.encodeChar ++ '"' :: rest) =
      (squeezeAfter blank text).flatMap Quoted.encodeChar ++ '"' :: collapseAfter false rest := by
  induction text generalizing blank with
  | nil =>
      rw [List.flatMap_nil, List.nil_append, squeezeAfter, List.flatMap_nil, List.nil_append]
      rfl
  | cons char later ih =>
      rw [List.flatMap_cons, List.append_assoc, squeezeAfter]
      by_cases space : char = ' '
      · subst space
        have written : Quoted.encodeChar ' ' = [' '] := by decide
        rw [written, if_pos rfl]
        cases blank with
        | true => exact ih true
        | false =>
            rw [if_neg Bool.false_ne_true, List.flatMap_cons, written]
            exact congrArg (' ' :: ·) (ih true)
      · rw [collapseAfter_append (encodeChar_ne_nil char) (isCollapsed_encodeChar space),
          if_neg space, List.flatMap_cons, List.append_assoc, ih]

theorem collapseAfter_encode (blank : Bool) (text rest : List Char) :
    collapseAfter blank (Quoted.encode text ++ rest) =
      Quoted.encode (squeezeAfter false text) ++ collapseAfter false rest := by
  have inside := collapseAfter_flatMap_encodeChar false text rest
  have opened : collapseAfter blank ('"' :: (text.flatMap Quoted.encodeChar ++ '"' :: rest)) =
      '"' :: collapseAfter false (text.flatMap Quoted.encodeChar ++ '"' :: rest) :=
    collapseAfter_append (List.cons_ne_nil '"' []) (by simp [isCollapsed]) blank _
  simp only [Quoted.encode, List.cons_append, List.append_assoc, List.nil_append,
    opened, inside]

/-- A quoted text is collapsed to its squeezed text. -/
theorem collapseLexeme_quoted (text : String) :
    collapseLexeme (.quoted text) = .quoted (squeeze text) := by
  have collapsed := collapseAfter_encode false text.toList []
  rw [List.append_nil] at collapsed
  have isString : (Lexeme.quoted text).kind = .string := rfl
  rw [collapseLexeme, if_pos isString, Lexeme.quoted, Lexeme.quoted, normalize,
    String.toList_ofList, collapsed, squeeze, String.toList_ofList]
  exact congrArg (fun chars => Lexeme.mk .string (String.ofList chars)) (List.append_nil _)

end Quoted

section Words

theorem collapseLexeme_of_ne {lexeme : Lexeme} (noString : lexeme.kind ≠ .string) :
    collapseLexeme lexeme = lexeme := if_neg noString

@[simp]
theorem collapseLexeme_mark (mark : Punctuator) :
    collapseLexeme (.mark mark) = .mark mark := collapseLexeme_of_ne nofun

@[simp]
theorem collapseLexeme_word (text : String) : collapseLexeme (.word text) = .word text := by
  apply collapseLexeme_of_ne
  intro isString
  have isName := Lexeme.word_isName text
  rw [isString] at isName
  exact absurd isName (by decide)

theorem solid_word {text : List Char} (identifier : Ascii.isIdentifier text = true) :
    text ≠ [] ∧ ∀ char ∈ text, isCollapsed char = false := by
  refine ⟨?_, ?_⟩
  · rintro rfl
    simp [Ascii.isIdentifier] at identifier
  · intro char char_mem
    exact isCollapsed_of_test continuesName (continuesName_of_isIdentifier identifier char char_mem)
      (by decide)

theorem solid_number {kind : TokenKind} {text : List Char} (isNumber : IsNumberOf kind text) :
    text ≠ [] ∧ ∀ char ∈ text, isCollapsed char = false := by
  refine ⟨?_, ?_⟩
  · rcases isNumber.head with ⟨first, rest, rfl, -⟩
    exact List.cons_ne_nil _ _
  · intro char char_mem
    apply isCollapsed_of_test
      (fun char => char.isDigit || decide (char ∈ ['-', '.', 'e', 'E', '+'])) ?_ (by decide)
    rw [Bool.or_eq_true, decide_eq_true_eq]
    exact isNumber.chars char char_mem

theorem solid_mark (mark : Punctuator) :
    mark.chars ≠ [] ∧ ∀ char ∈ mark.chars, isCollapsed char = false := by
  cases mark <;> simp [Punctuator.chars, isCollapsed]

theorem kind_ne_string_of_isNumberOf {kind : TokenKind} {text : List Char}
    (isNumber : IsNumberOf kind text) : kind ≠ .string := by
  rcases isNumber with ⟨_, _, decimals, exponent, -, -, rfl⟩
  unfold numberKind
  split <;> nofun

end Words

/-- After collapsing its blanks a text spells the same lexemes, but for spaces in quoted texts. The
first blank of a run is kept as a space, the others go. -/
theorem spells_collapseAfter {text : List Char} {lexemes : List Lexeme}
    (spells : Spells text lexemes) (blank : Bool) :
    Spells (collapseAfter blank text) (lexemes.map collapseLexeme) := by
  induction spells generalizing blank with
  | nil => exact .nil
  | @ignored char rest _ isIgnored _ ih =>
      rw [collapseAfter]
      split
      · cases blank with
        | true => exact ih true
        | false => exact .ignored (by decide) (ih true)
      · exact .ignored isIgnored (ih false)
  | mark mark _ ih =>
      rcases solid_mark mark with ⟨nonempty, solid⟩
      rw [collapseAfter_append nonempty solid, List.map_cons, collapseLexeme_mark]
      exact .mark mark (ih false)
  | @word text _ _ identifier apart _ ih =>
      rcases solid_word identifier with ⟨nonempty, solid⟩
      rw [collapseAfter_append nonempty solid, List.map_cons, collapseLexeme_word]
      exact .word identifier (standsApart_collapseAfter apart) (ih false)
  | number isNumber apart _ ih =>
      rcases solid_number isNumber with ⟨nonempty, solid⟩
      rw [collapseAfter_append nonempty solid, List.map_cons,
        collapseLexeme_of_ne (kind_ne_string_of_isNumberOf isNumber)]
      exact .number isNumber (standsApart_collapseAfter apart) (ih false)
  | quoted text apart _ ih =>
      have shown : (squeeze text).toList = squeezeAfter false text.toList := String.toList_ofList
      rw [collapseAfter_encode, List.map_cons, collapseLexeme_quoted, ← shown]
      exact .quoted _ (standsApart_collapseAfter apart) (ih false)

end OperationBody

end WiredGraph
