import WiredGraph.Proofs.Token.Lexeme

/-!
# Texts that spell lexemes

A text spells a list of lexemes if it is made of their characters in order, with ignored characters
between them, and words, numbers and quoted texts stand apart from what follows. Such a text is
scanned as these lexemes. Comments do not occur in it.

Texts are put together from pieces. A piece prints lexemes if it spells them in front of every text
that stands apart from it.
-/

namespace WiredGraph

namespace Scan

/-- The characters that may go on with a word, a number or a quoted text. -/
def continuesToken (char : Char) : Bool := continuesNumber char || char == '"'

/-- A text stands apart from the token before it if its first character does not go on with it. -/
def StandsApart (text : List Char) : Prop := Text.Stops continuesToken text

@[simp]
theorem standsApart_nil : StandsApart [] := Text.stops_nil _

@[simp]
theorem standsApart_cons {first : Char} {rest : List Char} :
    StandsApart (first :: rest) ↔ continuesToken first = false := Text.stops_cons

/-- What a text is made of, from left to right. -/
inductive Spells : List Char → List Lexeme → Prop
  | nil : Spells [] []
  | ignored {char : Char} {rest : List Char} {lexemes : List Lexeme} :
      isIgnored char = true → Spells rest lexemes → Spells (char :: rest) lexemes
  | mark (mark : Punctuator) {rest : List Char} {lexemes : List Lexeme} :
      Spells rest lexemes → Spells (mark.chars ++ rest) (.mark mark :: lexemes)
  | word {text : String} {rest : List Char} {lexemes : List Lexeme} :
      Ascii.isIdentifier text.toList = true → StandsApart rest → Spells rest lexemes →
        Spells (text.toList ++ rest) (.word text :: lexemes)
  | number {kind : TokenKind} {text : String} {rest : List Char} {lexemes : List Lexeme} :
      IsNumberOf kind text.toList → StandsApart rest → Spells rest lexemes →
        Spells (text.toList ++ rest) (⟨kind, text⟩ :: lexemes)
  | quoted (text : String) {rest : List Char} {lexemes : List Lexeme} :
      StandsApart rest → Spells rest lexemes →
        Spells (Quoted.encode text.toList ++ rest) (.quoted text :: lexemes)

namespace StandsApart

variable {text : List Char}

theorem stops_number (apart : StandsApart text) : Text.Stops continuesNumber text := by
  intro first first_mem
  have ends := apart first first_mem
  simp only [continuesToken, Bool.or_eq_false_iff] at ends
  exact ends.1

theorem stops_name (apart : StandsApart text) : Text.Stops continuesName text := by
  intro first first_mem
  have ends := apart.stops_number first first_mem
  simp only [continuesNumber, Bool.or_eq_false_iff] at ends
  exact ends.1

theorem no_quote (apart : StandsApart text) : text.head? ≠ some '"' := by
  intro quote
  have ends := apart '"' quote
  revert ends
  decide

end StandsApart

/-- A text that spells lexemes is scanned as these lexemes. -/
theorem Spells.lexemes_eq {text : List Char} {lexemes : List Lexeme}
    (spells : Spells text lexemes) : Scan.lexemes text = lexemes := by
  induction spells with
  | nil => exact lexemes_nil
  | ignored isIgnored _ ih => rw [lexemes_ignored isIgnored, ih]
  | mark mark _ ih => rw [lexemes_mark, ih]
  | word identifier apart _ ih =>
      rw [lexemes_word identifier apart.stops_name, ih, String.ofList_toList]
  | number isNumber apart _ ih =>
      rw [lexemes_number isNumber apart.stops_number, ih, String.ofList_toList]
  | quoted text apart _ ih => rw [lexemes_quoted text apart.no_quote, ih]

/-- Every lexeme that is spelled may stand in a document. -/
theorem Spells.valid {text : List Char} {lexemes : List Lexeme} (spells : Spells text lexemes) :
    ∀ lexeme ∈ lexemes, lexeme.IsValid := by
  induction spells with
  | nil => simp
  | ignored _ _ ih => exact ih
  | mark mark _ ih => exact List.forall_mem_cons.mpr ⟨Lexeme.mark_isValid mark, ih⟩
  | word _ _ _ ih => exact List.forall_mem_cons.mpr ⟨Lexeme.word_isValid _, ih⟩
  | number isNumber _ _ ih =>
      refine List.forall_mem_cons.mpr ⟨?_, ih⟩
      rcases isNumber with ⟨_, _, decimals, exponent, -, -, rfl⟩
      unfold numberKind
      split <;> exact ⟨nofun, nofun⟩
  | quoted text _ _ ih => exact List.forall_mem_cons.mpr ⟨⟨nofun, nofun⟩, ih⟩

/-- A piece prints lexemes if it spells them in front of every text that stands apart. -/
def Prints (piece : List Char) (lexemes : List Lexeme) : Prop :=
  ∀ rest later, StandsApart rest → Spells rest later → Spells (piece ++ rest) (lexemes ++ later)

/-- A piece keeps apart if it stands apart from what is before it, or lets what follows do so. -/
def KeepsApart (piece : List Char) : Prop := ∀ rest, StandsApart rest → StandsApart (piece ++ rest)

section Pieces

variable {piece other : List Char} {lexemes later : List Lexeme}

theorem Prints.spells (prints : Prints piece lexemes) : Spells piece lexemes := by
  have whole := prints [] [] standsApart_nil .nil
  rwa [List.append_nil, List.append_nil] at whole

@[simp]
theorem keepsApart_nil : KeepsApart [] := fun _ apart => apart

theorem keepsApart_cons {first : Char} (ends : continuesToken first = false) :
    KeepsApart (first :: piece) := fun _ _ => standsApart_cons.mpr ends

theorem KeepsApart.append (first : KeepsApart piece) (second : KeepsApart other) :
    KeepsApart (piece ++ other) := by
  intro rest apart
  rw [List.append_assoc]
  exact first _ (second rest apart)

theorem prints_nil : Prints [] [] := fun _ _ _ spells => spells

/-- Pieces print their lexemes one after the other if the second keeps apart from the first. -/
theorem Prints.append (first : Prints piece lexemes) (second : Prints other later)
    (apart : KeepsApart other) : Prints (piece ++ other) (lexemes ++ later) := by
  intro rest following standsApart spells
  rw [List.append_assoc, List.append_assoc]
  exact first _ _ (apart rest standsApart) (second rest following standsApart spells)

theorem Prints.ignored {char : Char} (isIgnored : isIgnored char = true)
    (prints : Prints piece lexemes) : Prints (char :: piece) lexemes :=
  fun rest following apart spells => .ignored isIgnored (prints rest following apart spells)

theorem Prints.ignoredAll {blank : List Char} (isIgnored : ∀ char ∈ blank, isIgnored char = true)
    (prints : Prints piece lexemes) : Prints (blank ++ piece) lexemes := by
  induction blank with
  | nil => exact prints
  | cons char rest ih =>
      rcases List.forall_mem_cons.mp isIgnored with ⟨here, later⟩
      exact (ih later).ignored here

theorem Prints.blank (prints : Prints piece lexemes) : Prints (' ' :: piece) lexemes :=
  prints.ignored (by decide)

theorem Prints.mark (mark : Punctuator) (prints : Prints piece lexemes) :
    Prints (mark.chars ++ piece) (.mark mark :: lexemes) := by
  intro rest following apart spells
  rw [List.append_assoc]
  exact .mark mark (prints rest following apart spells)

theorem prints_mark (mark : Punctuator) : Prints mark.chars [.mark mark] := by
  have whole := prints_nil.mark mark
  rwa [List.append_nil] at whole

theorem prints_word {text : String} (identifier : Ascii.isIdentifier text.toList = true) :
    Prints text.toList [.word text] :=
  fun _ _ apart spells => .word identifier apart spells

theorem prints_number {kind : TokenKind} {text : String}
    (isNumber : IsNumberOf kind text.toList) : Prints text.toList [⟨kind, text⟩] :=
  fun _ _ apart spells => .number isNumber apart spells

theorem prints_quoted (text : String) : Prints (Quoted.encode text.toList) [.quoted text] :=
  fun _ _ apart spells => .quoted text apart spells

end Pieces

end Scan

end WiredGraph
