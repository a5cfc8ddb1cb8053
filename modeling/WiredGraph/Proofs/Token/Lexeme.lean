import WiredGraph.Proofs.Literal.Quoted
import WiredGraph.Proofs.Token.Number
import WiredGraph.Text.Ascii

/-!
# Lexemes

A lexeme is a token without its place. The lexemes of a text depend only on the text, not on where
it stands, so they can be found from left to right: an ignored character adds none, and a
punctuator, a word, a number or a quoted text adds itself where nothing goes on with it.
-/

namespace WiredGraph

/-- A kind of token and the characters of one. -/
structure Lexeme where
  kind : TokenKind
  text : String
deriving DecidableEq, Repr

namespace Lexeme

/-- The kind of a word: it may be a keyword. -/
def wordKind (text : String) : TokenKind :=
  match Keyword.ofText? text with
  | some keyword => .keyword keyword
  | none => .name

/-- A name or a keyword. -/
def word (text : String) : Lexeme := ⟨wordKind text, text⟩

/-- The lexeme of a punctuator. -/
def mark (mark : Punctuator) : Lexeme := ⟨.punctuator mark, String.ofList mark.chars⟩

/-- A text as it is written between quotation marks. -/
def quoted (text : String) : Lexeme := ⟨.string, String.ofList (Quoted.encode text.toList)⟩

@[simp]
theorem wordKind_keyword (keyword : Keyword) : wordKind keyword.text = .keyword keyword := by
  rw [wordKind, Keyword.ofText?_text]

/-- Only the word of a keyword has its kind. -/
theorem text_of_wordKind {text : String} {keyword : Keyword}
    (same : wordKind text = .keyword keyword) : keyword.text = text := by
  rw [wordKind] at same
  split at same
  · next found =>
      obtain rfl := TokenKind.keyword.inj same
      simpa using List.find?_some found
  · cases same

theorem word_isName (text : String) : (word text).kind.isName = true := by
  simp only [word, wordKind]
  split <;> rfl

/-- A lexeme is valid if it may stand in a document. -/
def IsValid (lexeme : Lexeme) : Prop :=
  lexeme.kind ≠ .invalid ∧ lexeme.kind ≠ .endOfInput

@[simp]
theorem mark_isValid (mark : Punctuator) : (Lexeme.mark mark).IsValid := ⟨nofun, nofun⟩

@[simp]
theorem word_isValid (text : String) : (word text).IsValid := by
  have isName := word_isName text
  constructor
  · intro invalid
    rw [invalid] at isName
    cases isName
  · intro ended
    rw [ended] at isName
    cases isName

end Lexeme

/-- What a token is, without where it stands. -/
def Token.lexeme (token : Token) : Lexeme := ⟨token.kind, token.text⟩

namespace Scan

open Text (takeWhile_run dropWhile_run)

/-- The lexemes of a text. -/
def lexemes (text : List Char) : List Lexeme := (tokens text).map Token.lexeme

theorem tokensFrom_of_ended {text skipped : List Char} (offset : Nat)
    (ended : splitIgnored false text = (skipped, [])) : tokensFrom offset text = [] := by
  rw [tokensFrom.eq_def]
  split <;> simp_all

theorem tokensFrom_of_found {text skipped rest : List Char} {first : Char} (offset : Nat)
    (found : splitIgnored false text = (skipped, first :: rest)) :
    ∃ span stop, tokensFrom offset text =
      ⟨(scan first rest).kind, String.ofList (scan first rest).chars, span⟩ ::
        tokensFrom stop (scan first rest).rest := by
  rw [tokensFrom.eq_def]
  split
  · simp_all
  · next same =>
      obtain ⟨rfl, rfl, rfl⟩ : _ ∧ _ ∧ _ := by simpa using same.symm.trans found
      exact ⟨_, _, rfl⟩

/-- The lexemes of a text do not depend on the offset at which it stands. -/
theorem map_lexeme_tokensFrom (offset other : Nat) (text : List Char) :
    (tokensFrom offset text).map Token.lexeme = (tokensFrom other text).map Token.lexeme := by
  induction offset, text using tokensFrom.induct generalizing other with
  | case1 offset text skipped ended =>
      rw [tokensFrom_of_ended offset ended, tokensFrom_of_ended other ended]
  | case2 offset text skipped first rest found scanned start stop ih =>
      rcases tokensFrom_of_found offset found with ⟨_, here, tokens⟩
      rcases tokensFrom_of_found other found with ⟨_, there, otherTokens⟩
      rw [tokens, otherTokens, List.map_cons, List.map_cons, ← ih here, ← ih there]
      rfl

/-- The first lexeme of a text is scanned where its ignored characters end. -/
theorem lexemes_eq (text : List Char) :
    lexemes text =
      match (splitIgnored false text).2 with
      | [] => []
      | first :: rest =>
          ⟨(scan first rest).kind, String.ofList (scan first rest).chars⟩ ::
            lexemes (scan first rest).rest := by
  rw [lexemes, tokens, tokensFrom.eq_def]
  split
  · next ended => simp [ended]
  · next skipped first rest split =>
      rw [split, List.map_cons, map_lexeme_tokensFrom _ 0]
      rfl

@[simp]
theorem lexemes_nil : lexemes [] = [] := by
  rw [lexemes_eq]
  rfl

/-- An ignored character adds no lexeme. -/
theorem lexemes_ignored {char : Char} (ignored : isIgnored char = true) (rest : List Char) :
    lexemes (char :: rest) = lexemes rest := by
  have noComment : char ≠ '#' := by
    rintro rfl
    revert ignored
    decide
  have skipped : (splitIgnored false (char :: rest)).2 = (splitIgnored false rest).2 := by
    simp [splitIgnored, ignored, beq_eq_false_iff_ne.mpr noComment]
  rw [lexemes_eq, lexemes_eq rest, skipped]

/-- A character that starts a token adds the lexeme that is scanned there. -/
theorem lexemes_scan {first : Char} (starts : isIgnored first = false ∧ first ≠ '#')
    (rest : List Char) :
    lexemes (first :: rest) =
      ⟨(scan first rest).kind, String.ofList (scan first rest).chars⟩ ::
        lexemes (scan first rest).rest := by
  have skipped : (splitIgnored false (first :: rest)).2 = first :: rest := by
    simp [splitIgnored, starts.1, starts.2]
  rw [lexemes_eq, skipped]

theorem lexemes_mark (mark : Punctuator) (rest : List Char) :
    lexemes (mark.chars ++ rest) = .mark mark :: lexemes rest := by
  cases mark <;>
    · rw [Punctuator.chars, List.cons_append, lexemes_scan (by decide)]
      simp [scan, startsName, Punctuator.ofChar?, Lexeme.mark, Punctuator.chars]

/-- The characters that tokens of other kinds, comments and ignored text start with. -/
private def otherStarts : List Char := [' ', '\t', '\r', '\n', ',', '\ufeff', '#', '"']

/-- A character that passes a test starts a token, but no string, if those that do otherwise fail
the test. -/
theorem starts_of_test (test : Char → Bool) {first : Char} (passes : test first = true)
    (others : otherStarts.any test = false) :
    (isIgnored first = false ∧ first ≠ '#') ∧ first ≠ '"' := by
  have differs : ∀ char ∈ otherStarts, first ≠ char := by
    rintro char listed rfl
    exact List.any_eq_false.mp others first listed passes
  simp only [otherStarts, List.forall_mem_cons] at differs
  rcases differs with ⟨space, tab, carriageReturn, lineFeed, comma, orderMark, comment, quote, -⟩
  refine ⟨⟨?_, comment⟩, quote⟩
  simp [isIgnored, space, tab, carriageReturn, lineFeed, comma, orderMark]

/-- A character that starts a name starts no number. -/
theorem no_number_of_startsName {first : Char} (starts : startsName first = true) :
    first ≠ '-' ∧ first.isDigit = false := by
  simp only [startsName, Bool.or_eq_true, beq_iff_eq] at starts
  rcases starts with letter | rfl
  · constructor
    · rintro rfl
      revert letter
      decide
    · have range : (decide (first.val ≥ 'A'.val ∧ first.val ≤ 'Z'.val) ||
          (first.val ≥ 'a'.val && first.val ≤ 'z'.val)) = true := letter
      change (first.val ≥ '0'.val && first.val ≤ '9'.val) = false
      grind
  · decide

theorem continuesName_of_isIdentifier {text : List Char}
    (identifier : Ascii.isIdentifier text = true) :
    ∀ char ∈ text, continuesName char = true := by
  rcases text with - | ⟨first, later⟩
  · simp
  simp only [Ascii.isIdentifier, Bool.and_eq_true, List.all_eq_true] at identifier
  intro char char_mem
  rcases List.mem_cons.mp char_mem with rfl | inLater
  · have starts := identifier.1
    simp only [continuesName, Char.isAlphanum, Bool.or_eq_true] at starts ⊢
    exact starts.imp_left .inl
  · exact identifier.2 char inLater

/-- A word adds itself where no character goes on with it. -/
theorem lexemes_word {text rest : List Char} (identifier : Ascii.isIdentifier text = true)
    (stops : Text.Stops continuesName rest) :
    lexemes (text ++ rest) = .word (String.ofList text) :: lexemes rest := by
  have passes := continuesName_of_isIdentifier identifier
  rcases text with - | ⟨first, later⟩
  · simp [Ascii.isIdentifier] at identifier
  simp only [Ascii.isIdentifier, Bool.and_eq_true, List.all_eq_true] at identifier
  rcases identifier with ⟨starts, -⟩
  have token := starts_of_test startsName starts (by decide)
  rcases no_number_of_startsName starts with ⟨notMinus, noDigit⟩
  have scanned : scan first (later ++ rest) = name (first :: later ++ rest) := by
    simp [scan, token.2, notMinus, noDigit, show startsName first = true from starts]
  rw [List.cons_append, lexemes_scan token.1, scanned, name, takeWhile_run passes stops,
    dropWhile_run passes stops]
  rfl

theorem IsNumberOf.head {kind : TokenKind} {text : List Char} (isNumber : IsNumberOf kind text) :
    ∃ first rest, text = first :: rest ∧ (first == '-' || first.isDigit) = true := by
  rcases isNumber with ⟨minus, whole, decimals, exponent, isNumber, rfl, -⟩
  rcases isNumber.minus with rfl | rfl
  · rcases whole with - | ⟨digit, digits⟩
    · exact absurd rfl isNumber.whole.nonempty
    · exact ⟨digit, _, rfl, by simp [isNumber.whole.digits digit]⟩
  · exact ⟨'-', _, rfl, by decide⟩

/-- A number adds itself where no character goes on with it. Its first character is neither a
quotation mark nor anything that is tested before numbers. -/
theorem lexemes_number {kind : TokenKind} {text rest : List Char}
    (isNumber : IsNumberOf kind text) (stops : Text.Stops continuesNumber rest) :
    lexemes (text ++ rest) = ⟨kind, String.ofList text⟩ :: lexemes rest := by
  rcases isNumber.head with ⟨first, later, rfl, starts⟩
  have token := starts_of_test (fun char => char == '-' || char.isDigit) starts (by decide)
  have scanned : scan first (later ++ rest) = number (first :: later ++ rest) := by
    simp only [scan, beq_eq_false_iff_ne.mpr token.2, Bool.false_eq_true, if_false, if_pos starts]
    rfl
  rcases isNumber with ⟨minus, whole, decimals, exponent, parts, same, rfl⟩
  rw [List.cons_append, lexemes_scan token.1, scanned, same, number_of_isNumber parts stops]

/-- A quoted text adds itself where no further quotation mark stands. -/
theorem lexemes_quoted (text : String) {rest : List Char} (separated : rest.head? ≠ some '"') :
    lexemes (Quoted.encode text.toList ++ rest) = .quoted text :: lexemes rest := by
  rw [Quoted.encode, List.cons_append, List.cons_append, lexemes_scan (by decide)]
  have scanned : string (text.toList.flatMap Quoted.encodeChar ++ ['"'] ++ rest) =
      ⟨.string, Quoted.encode text.toList, rest⟩ := Quoted.scan_encode fun _ => separated
  simp only [scan, BEq.rfl, if_true, scanned]
  rfl

/-- What the characters of a token have to be by its kind, for words and numbers. -/
structure IsGenuine (kind : TokenKind) (text : String) : Prop where
  word : kind.isName = true →
    Ascii.isIdentifier text.toList = true ∧ kind = Lexeme.wordKind text
  number : kind = .int ∨ kind = .float → IsNumberOf kind text.toList

/-- Tokens that are no words and no numbers may have any characters. -/
theorem isGenuine_of_other {kind : TokenKind} (text : String) (noWord : kind.isName = false)
    (noNumber : kind ≠ .int ∧ kind ≠ .float) : IsGenuine kind text where
  word isWord := absurd (isWord.symm.trans noWord) (by simp)
  number isNumber := (isNumber.elim noNumber.1 noNumber.2).elim

theorem isGenuine_name {first : Char} (starts : startsName first = true) (rest : List Char) :
    IsGenuine (name (first :: rest)).kind (String.ofList (name (first :: rest)).chars) where
  word _ := by
    have continues : continuesName first = true := by
      simp only [startsName, continuesName, Char.isAlphanum, Bool.or_eq_true] at starts ⊢
      exact starts.imp_left .inl
    refine ⟨?_, rfl⟩
    simp only [name, List.takeWhile_cons, continues, if_true, String.toList_ofList,
      Ascii.isIdentifier, Bool.and_eq_true, List.all_eq_true]
    exact ⟨starts, fun char char_mem => List.mem_takeWhile_imp (p := continuesName) char_mem⟩
  number isNumber := by
    have isWord := Lexeme.word_isName (String.ofList (name (first :: rest)).chars)
    change (name (first :: rest)).kind.isName = true at isWord
    rcases isNumber with isInt | isFloat
    · simp [isInt, TokenKind.isName] at isWord
    · simp [isFloat, TokenKind.isName] at isWord

theorem isGenuine_number (text : List Char) :
    IsGenuine (number text).kind (String.ofList (number text).chars) where
  word isWord := by
    by_cases valid : (number text).kind = .invalid
    · rw [valid] at isWord
      cases isWord
    · rcases isNumberOf_number valid with ⟨_, _, decimals, exponent, -, -, kind⟩
      rw [kind, numberKind] at isWord
      split at isWord <;> cases isWord
  number isNumber := by
    rw [String.toList_ofList]
    apply isNumberOf_number
    rcases isNumber with isInt | isFloat
    · rw [isInt]
      decide
    · rw [isFloat]
      decide

/-- A scanned token has the characters that its kind asks for. -/
theorem isGenuine_scan (first : Char) (rest : List Char) :
    IsGenuine (scan first rest).kind (String.ofList (scan first rest).chars) := by
  unfold scan
  split
  · unfold string
    split
    · simp only
      split <;> exact isGenuine_of_other _ rfl (by decide)
    · simp only
      split <;> exact isGenuine_of_other _ rfl (by decide)
  · split
    · exact isGenuine_number _
    · split
      · next starts => exact isGenuine_name starts rest
      · split
        · exact isGenuine_of_other _ rfl ⟨nofun, nofun⟩
        · split <;> exact isGenuine_of_other _ rfl ⟨nofun, nofun⟩

/-- What holds of every token that can be scanned holds of every lexeme of a text. The induction is
on the scan of the whole text, as offsets do not matter to lexemes. -/
theorem forall_mem_lexemes {Holds : Lexeme → Prop}
    (each : ∀ first rest, Holds ⟨(scan first rest).kind, String.ofList (scan first rest).chars⟩)
    (text : List Char) : ∀ lexeme ∈ lexemes text, Holds lexeme := by
  refine tokensFrom.induct (motive := fun _ text => ∀ lexeme ∈ lexemes text, Holds lexeme)
    ?_ ?_ 0 text
  · intro _ text skipped ended
    simp [lexemes_eq, ended]
  · intro _ text skipped first rest found _ _ _ ih lexeme lexeme_mem
    rw [lexemes_eq, found, List.mem_cons] at lexeme_mem
    rcases lexeme_mem with rfl | later
    · exact each first rest
    · exact ih lexeme later

/-- The lexemes of a text have the characters that their kinds ask for. -/
theorem isGenuine_of_mem_lexemes (text : List Char) :
    ∀ lexeme ∈ lexemes text, IsGenuine lexeme.kind lexeme.text :=
  forall_mem_lexemes isGenuine_scan text

theorem kind_number (text : List Char) : (number text).kind ∈ [.int, .float, .invalid] := by
  by_cases valid : (number text).kind = .invalid
  · simp [valid]
  · rcases isNumberOf_number valid with ⟨_, _, decimals, exponent, -, -, kind⟩
    rw [kind, numberKind]
    split <;> simp

theorem kind_string (rest : List Char) :
    (string rest).kind ∈ [.string, .blockString, .invalid] := by
  unfold string
  split
  · simp only
    split <;> simp
  · simp only
    split <;> simp

/-- A token is a punctuator with the characters of its mark, a word, or of another kind. -/
theorem scan_cases (first : Char) (rest : List Char) :
    (∃ mark, (scan first rest).kind = .punctuator mark ∧ (scan first rest).chars = mark.chars) ∨
      (scan first rest).kind.isName = true ∨
        (scan first rest).kind ∈ [.string, .blockString, .int, .float, .invalid] := by
  unfold scan
  split
  · have kinds := kind_string rest
    exact .inr (.inr (by grind))
  split
  · have kinds := kind_number (first :: rest)
    exact .inr (.inr (by grind))
  split
  · exact .inr (.inl (Lexeme.word_isName (String.ofList (name (first :: rest)).chars)))
  split
  · exact .inl ⟨.spread, rfl, rfl⟩
  · split
    · next mark found =>
        refine .inl ⟨mark, rfl, ?_⟩
        unfold Punctuator.ofChar? at found
        split at found <;> cases found <;> rfl
    · simp

end Scan

end WiredGraph
