import WiredGraph.Source.Span
import WiredGraph.Token.Kind

/-!
# Scanning

A source is read as tokens with ignored text between them. Ignored are spaces, tabs, line breaks,
commas, byte order marks, and comments, which run from a number sign to the end of the line. Each
scanning function takes characters off the front of the text and gives back the characters it took
together with those it left, so that nothing is read twice and nothing is lost:
`scan_chars_append_rest` says so for a whole token.

Text that forms no token becomes an invalid token. It is never empty: an unknown character, a
number that lacks its digits as far as it goes, or a string up to the end of its line.
-/

namespace WiredGraph

/-- A piece of a source with the place where it stands. -/
structure Token where
  kind : TokenKind
  text : String
  span : Span
deriving DecidableEq, Repr

/-- What scanning one token found: its kind, its characters, and the text after it. -/
structure Scanned where
  kind : TokenKind
  chars : List Char
  rest : List Char

namespace Scan

/-- Whether a character is ignored between tokens. -/
def isIgnored (char : Char) : Bool :=
  char == ' ' || char == '\t' || char == '\r' || char == '\n' || char == ',' || char == '\ufeff'

/-- Whether a character ends a line, and with it a comment. -/
def endsLine (char : Char) : Bool := char == '\n' || char == '\r'

/-- Whether a character may start a name. -/
def startsName (char : Char) : Bool := char.isAlpha || char == '_'

/-- Whether a character may go on with a name. -/
def continuesName (char : Char) : Bool := char.isAlphanum || char == '_'

/-- The ignored characters at the front of a text and what follows them. -/
def splitIgnored : (inComment : Bool) → List Char → List Char × List Char
  | _, [] => ([], [])
  | inComment, char :: rest =>
      if inComment || isIgnored char || char == '#' then
        let (skipped, left) := splitIgnored (!endsLine char && (inComment || char == '#')) rest
        (char :: skipped, left)
      else
        ([], char :: rest)

theorem splitIgnored_append (inComment : Bool) (text : List Char) :
    (splitIgnored inComment text).1 ++ (splitIgnored inComment text).2 = text := by
  induction text generalizing inComment with
  | nil => rfl
  | cons char rest ih =>
      simp only [splitIgnored]
      split
      · simp [ih]
      · rfl

/-- The name at the front of a text. -/
def name (text : List Char) : Scanned :=
  let word := text.takeWhile continuesName
  let kind := match Keyword.ofText? (String.ofList word) with
    | some keyword => .keyword keyword
    | none => .name
  ⟨kind, word, text.dropWhile continuesName⟩

/-- A point with at least one digit after it, if one is next. -/
def fraction : List Char → List Char × List Char
  | '.' :: digit :: rest =>
      if digit.isDigit then
        ('.' :: digit :: rest.takeWhile Char.isDigit, rest.dropWhile Char.isDigit)
      else
        ([], '.' :: digit :: rest)
  | text => ([], text)

/-- An optional sign out of the given ones. -/
def sign (signs : List Char) : List Char → List Char × List Char
  | [] => ([], [])
  | char :: rest => if char ∈ signs then ([char], rest) else ([], char :: rest)

/-- The number at the front of a text: a sign, digits, a fraction and an exponent, of which only
the digits are required, and after an exponent mark digits again. -/
def number (text : List Char) : Scanned :=
  let (minus, unsigned) := sign ['-'] text
  let whole := unsigned.takeWhile Char.isDigit
  if whole.isEmpty then
    ⟨.invalid, minus, unsigned⟩
  else
    let (decimals, afterDecimals) := fraction (unsigned.dropWhile Char.isDigit)
    let mantissa := minus ++ whole ++ decimals
    match sign ['e', 'E'] afterDecimals with
    | ([], rest) => ⟨if decimals.isEmpty then .int else .float, mantissa, rest⟩
    | (mark, afterMark) =>
        let (plusMinus, magnitude) := sign ['+', '-'] afterMark
        let digits := magnitude.takeWhile Char.isDigit
        ⟨if digits.isEmpty then .invalid else .float, mantissa ++ mark ++ plusMinus ++ digits,
          magnitude.dropWhile Char.isDigit⟩

/-- Whether a string is closed, its characters after the opening mark, and what follows them. A
backslash takes the character after it along. -/
def stringBody : List Char → Bool × List Char × List Char
  | [] => (false, [], [])
  | ['\\'] => (false, ['\\'], [])
  | '\\' :: escaped :: rest =>
      let (closed, taken, left) := stringBody rest
      (closed, '\\' :: escaped :: taken, left)
  | char :: rest =>
      if char == '"' then
        (true, ['"'], rest)
      else if endsLine char then
        (false, [], char :: rest)
      else
        let (closed, taken, left) := stringBody rest
        (closed, char :: taken, left)

/-- Whether a block string is closed, its characters after the opening marks, and what follows
them. A backslash before three marks takes them along. -/
def blockBody : List Char → Bool × List Char × List Char
  | [] => (false, [], [])
  | '"' :: '"' :: '"' :: rest => (true, ['"', '"', '"'], rest)
  | '\\' :: '"' :: '"' :: '"' :: rest =>
      let (closed, taken, left) := blockBody rest
      (closed, '\\' :: '"' :: '"' :: '"' :: taken, left)
  | char :: rest =>
      let (closed, taken, left) := blockBody rest
      (closed, char :: taken, left)

/-- The string whose opening mark has just been read; two further marks open a block string. -/
def string : List Char → Scanned
  | '"' :: '"' :: rest =>
      let (closed, taken, left) := blockBody rest
      ⟨if closed then .blockString else .invalid, '"' :: '"' :: '"' :: taken, left⟩
  | rest =>
      let (closed, taken, left) := stringBody rest
      ⟨if closed then .string else .invalid, '"' :: taken, left⟩

/-- The token that starts with a character, which is no ignored one. -/
def scan (first : Char) (rest : List Char) : Scanned :=
  if first == '"' then
    string rest
  else if first == '-' || first.isDigit then
    number (first :: rest)
  else if startsName first then
    name (first :: rest)
  else
    match first, rest with
    | '.', '.' :: '.' :: left => ⟨.punctuator .spread, ['.', '.', '.'], left⟩
    | _, _ =>
        match Punctuator.ofChar? first with
        | some mark => ⟨.punctuator mark, [first], rest⟩
        | none => ⟨.invalid, [first], rest⟩

theorem fraction_append (text : List Char) : (fraction text).1 ++ (fraction text).2 = text := by
  unfold fraction
  split
  · split <;> simp
  · rfl

theorem sign_append (signs text : List Char) :
    (sign signs text).1 ++ (sign signs text).2 = text := by
  unfold sign
  split
  · rfl
  · split <;> simp

theorem number_append (text : List Char) : (number text).chars ++ (number text).rest = text := by
  have minus := sign_append ['-'] text
  have decimals := fraction_append ((sign ['-'] text).2.dropWhile Char.isDigit)
  have mark := sign_append ['e', 'E']
    (fraction ((sign ['-'] text).2.dropWhile Char.isDigit)).2
  simp only [number]
  split
  · exact minus
  · split
    · next rest found =>
        simp only [found, List.nil_append] at mark
        rw [mark, List.append_assoc, decimals, List.append_assoc, List.takeWhile_append_dropWhile,
          minus]
    · next afterMark _ found =>
        have plusMinus := sign_append ['+', '-'] afterMark
        simp only [found] at mark
        simp only [List.append_assoc, List.takeWhile_append_dropWhile, plusMinus, mark, decimals,
          minus]

theorem stringBody_append (text : List Char) :
    (stringBody text).2.1 ++ (stringBody text).2.2 = text := by
  fun_induction stringBody text <;> simp_all

theorem blockBody_append (text : List Char) :
    (blockBody text).2.1 ++ (blockBody text).2.2 = text := by
  fun_induction blockBody text <;> simp_all

theorem string_append (rest : List Char) :
    (string rest).chars ++ (string rest).rest = '"' :: rest := by
  unfold string
  split
  · simp [blockBody_append]
  · simp [stringBody_append]

/-- The characters of a token and the text after it make up the text before. -/
theorem scan_chars_append_rest (first : Char) (rest : List Char) :
    (scan first rest).chars ++ (scan first rest).rest = first :: rest := by
  unfold scan
  split
  · next isMark => simp_all [string_append]
  · split
    · exact number_append _
    · split
      · simp [name]
      · split
        · rfl
        · split <;> rfl

theorem number_chars_ne_nil {first : Char} (rest : List Char)
    (starts : first = '-' ∨ first.isDigit = true) : (number (first :: rest)).chars ≠ [] := by
  simp only [number, sign, List.mem_singleton]
  rcases starts with rfl | digit
  · simp only [if_true]
    split
    · simp
    · split <;> simp
  · have notMinus : first ≠ '-' := by
      rintro rfl
      simp [Char.isDigit] at digit
    simp only [notMinus, if_false, List.takeWhile_cons, digit, if_true, List.isEmpty_cons,
      Bool.false_eq_true]
    split <;> simp

/-- A token has at least one character. -/
theorem scan_chars_ne_nil (first : Char) (rest : List Char) : (scan first rest).chars ≠ [] := by
  unfold scan
  split
  · unfold string
    split <;> simp
  · split
    · next starts =>
        exact number_chars_ne_nil rest (by simpa using starts)
    · split
      · next starts =>
          have continues : continuesName first = true := by
            simp only [startsName, continuesName, Char.isAlphanum, Bool.or_eq_true] at *
            grind
          simp [name, continues]
      · split
        · simp
        · split <;> simp

theorem scan_rest_length_lt (first : Char) (rest : List Char) :
    (scan first rest).rest.length < (first :: rest).length := by
  have whole := congrArg List.length (scan_chars_append_rest first rest)
  have nonempty := List.length_pos_iff.2 (scan_chars_ne_nil first rest)
  simp only [List.length_append] at whole
  omega

/-- The tokens of a text that stands at an offset. -/
def tokensFrom (offset : Nat) (text : List Char) : List Token :=
  match _ : splitIgnored false text with
  | (_, []) => []
  | (skipped, first :: rest) =>
      let scanned := scan first rest
      let start := offset + Utf8.length skipped
      let stop := start + Utf8.length scanned.chars
      ⟨scanned.kind, String.ofList scanned.chars, ⟨start, stop⟩⟩ :: tokensFrom stop scanned.rest
termination_by text.length
decreasing_by
  have whole := congrArg List.length (splitIgnored_append false text)
  rw [‹splitIgnored false text = _›] at whole
  have shorter := scan_rest_length_lt first rest
  simp only [List.length_append] at whole
  omega

/-- The tokens of a source. -/
def tokens (text : List Char) : List Token := tokensFrom 0 text

/-- The token that stands for the end of a source. -/
def endToken (text : List Char) : Token := ⟨.endOfInput, "", .empty (Utf8.length text)⟩

/-- The tokens of a source and the token for its end. -/
def tokenize (text : List Char) : List Token := tokens text ++ [endToken text]

end Scan

end WiredGraph
