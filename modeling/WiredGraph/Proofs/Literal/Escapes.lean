import Mathlib.Data.List.Forall2
import WiredGraph.Proofs.Literal.Quoted
import WiredGraph.Proofs.Token.Lexeme

/-!
# Escapes in quoted text

What a string stands for is stated here as a relation between its body and a text: a letter after a
backslash stands for one character, and so do `u` and four hexadecimal digits, while everything else
stands for itself. Decoding agrees with the relation on every string but for escapes by number that
are written with fewer than four digits at the end of the string or with a plus sign: it reads those
as well.
-/

namespace WiredGraph

namespace Quoted

section Escapes

/-- The letters that may follow a backslash, each with the character that it stands for. -/
def letterEscapes : List (Char × Char) :=
  [('"', '"'), ('\\', '\\'), ('/', '/'), ('b', '\x08'), ('f', '\x0c'), ('n', '\n'), ('r', '\r'),
    ('t', '\t')]

/-- The hexadecimal digits, each with its value. -/
def hexDigits : List (Char × Nat) := "0123456789abcdef".toList.zipIdx ++ "ABCDEF".toList.zipIdx 10

/-- Hexadecimal digits write a number, the first one counting most. -/
def Writes (digits : List Char) (number : Nat) : Prop :=
  ∃ values, List.Forall₂ (fun digit value => (digit, value) ∈ hexDigits) digits values ∧
    values.foldl (fun number value => number * 16 + value) 0 = number

/-- Four digits stand for the character whose number they write, whatever text follows. -/
def FourDigits (digits _rest : List Char) (char : Char) : Prop :=
  digits.length = 4 ∧ Writes digits char.toNat

/-- Fewer than four digits may end a text, and a plus sign may take the place of a digit in front of
the others. -/
inductive LooseDigits : List Char → List Char → Char → Prop where
  | short {digits : List Char} {char : Char} (nonempty : digits ≠ []) (few : digits.length < 4)
      (written : Writes digits char.toNat) : LooseDigits digits [] char
  | signed {digits rest : List Char} {char : Char} (nonempty : digits ≠ [])
      (width : digits.length = 3 ∨ digits.length < 3 ∧ rest = [])
      (written : Writes digits char.toNat) : LooseDigits ('+' :: digits) rest char

/-- The digits that are read as a character by decoding. -/
def ReadDigits (digits rest : List Char) (char : Char) : Prop :=
  FourDigits digits rest char ∨ LooseDigits digits rest char

/-- A text stands for another one if every backslash in it starts an escape, by a letter or by a
number that is written as asked for, and the other one has a character in place of each escape and
is the same everywhere else. -/
inductive Unescapes (numbered : List Char → List Char → Char → Prop) :
    List Char → List Char → Prop where
  | nil : Unescapes numbered [] []
  | plain {char : Char} {rest value : List Char} (unescaped : char ≠ '\\')
      (later : Unescapes numbered rest value) : Unescapes numbered (char :: rest) (char :: value)
  | letter {letter char : Char} {rest value : List Char} (listed : (letter, char) ∈ letterEscapes)
      (later : Unescapes numbered rest value) :
      Unescapes numbered ('\\' :: letter :: rest) (char :: value)
  | number {digits rest value : List Char} {char : Char} (denoted : numbered digits rest char)
      (later : Unescapes numbered rest value) :
      Unescapes numbered ('\\' :: 'u' :: (digits ++ rest)) (char :: value)

/-- A text has a loose escape if one by number is written too short or with a sign where the
escapes before it are as they should be. -/
def HasLooseEscape (body : List Char) : Prop :=
  ∃ front value digits rest char, body = front ++ '\\' :: 'u' :: (digits ++ rest) ∧
    Unescapes FourDigits front value ∧ LooseDigits digits rest char

end Escapes

section Numbers

theorem unescapeLetter?_eq_some_iff {letter char : Char} :
    unescapeLetter? letter = some char ↔ (letter, char) ∈ letterEscapes := by
  constructor
  · intro stands
    unfold unescapeLetter? at stands
    split at stands <;> cases stands <;> simp [letterEscapes]
  · intro listed
    have each : ∀ pair ∈ letterEscapes, unescapeLetter? pair.1 = some pair.2 := by decide
    exact each _ listed

/-- The mark of an escape by number is no letter of another escape. -/
theorem ne_of_mem_letterEscapes {letter char : Char} (listed : (letter, char) ∈ letterEscapes) :
    letter ≠ 'u' := by
  rintro rfl
  simp [letterEscapes] at listed

theorem hexDigit?_eq_some_iff {digit : Char} {value : Nat} :
    hexDigit? digit = some value ↔ (digit, value) ∈ hexDigits := by
  constructor
  · intro read
    unfold hexDigit? at read
    split at read
    · next between =>
        cases read
        exact Ascii.of_between (fun digit step => (digit, step) ∈ hexDigits) (by decide) between
    split at read
    · next between =>
        cases read
        exact Ascii.of_between (fun digit step => (digit, step + 10) ∈ hexDigits) (by decide) between
    split at read
    · next between =>
        cases read
        exact Ascii.of_between (fun digit step => (digit, step + 10) ∈ hexDigits) (by decide) between
    · cases read
  · intro listed
    have each : ∀ pair ∈ hexDigits, hexDigit? pair.1 = some pair.2 := by decide
    exact each _ listed

theorem hexFrom_eq_some_iff {digits : List Char} {start number : Nat} :
    hexFrom start digits = some number ↔
      ∃ values, List.Forall₂ (fun digit value => (digit, value) ∈ hexDigits) digits values ∧
        values.foldl (fun number value => number * 16 + value) start = number := by
  induction digits generalizing start with
  | nil => simp [hexFrom]
  | cons digit rest ih =>
      simp only [hexFrom, Option.bind_eq_bind, Option.bind_eq_some_iff, ih,
        List.forall₂_cons_left_iff, hexDigit?_eq_some_iff]
      constructor
      · rintro ⟨value, listed, values, related, sum⟩
        exact ⟨value :: values, ⟨value, values, listed, related, rfl⟩, sum⟩
      · rintro ⟨-, ⟨value, values, listed, related, rfl⟩, sum⟩
        exact ⟨value, listed, values, related, sum⟩

theorem hexFrom_zero_eq_some_iff {digits : List Char} {number : Nat} :
    hexFrom 0 digits = some number ↔ Writes digits number :=
  hexFrom_eq_some_iff

theorem not_writes_plus (digits : List Char) (number : Nat) : ¬Writes ('+' :: digits) number := by
  have none : hexDigit? '+' = none := by decide
  rw [← hexFrom_zero_eq_some_iff, hexFrom, none]
  exact (Option.some_ne_none _).symm

/-- A number is read from digits, of which there is at least one, or from a plus sign and digits. -/
theorem hexNumber?_eq_some_iff {text : List Char} {number : Nat} :
    hexNumber? text = some number ↔
      ∃ digits, digits ≠ [] ∧ (text = digits ∨ text = '+' :: digits) ∧ Writes digits number := by
  rw [hexNumber?.eq_def]
  split
  · simp
  · have unread : ∀ digits, digits ≠ [] → ['+'] = digits → ¬Writes digits number := by
      rintro _ - rfl
      exact not_writes_plus _ _
    grind
  · next digits notAlone =>
      rw [hexFrom_zero_eq_some_iff]
      constructor
      · intro written
        exact ⟨digits, by simpa using notAlone, .inr rfl, written⟩
      · rintro ⟨_, -, rfl | same, written⟩
        · exact absurd written (not_writes_plus _ _)
        · cases same
          exact written
  · next nonempty _ unsigned =>
      rw [hexFrom_zero_eq_some_iff]
      constructor
      · intro written
        exact ⟨text, nonempty, .inl rfl, written⟩
      · rintro ⟨_, -, rfl | same, written⟩
        · exact written
        · exact absurd same (unsigned _)

theorem charOfCode?_eq_some_iff {code : Nat} {char : Char} :
    charOfCode? code = some char ↔ code = char.toNat := by
  unfold charOfCode?
  constructor
  · intro read
    split at read
    · next valid =>
        cases read
        rw [Char.ofNat, dif_pos valid]
        rfl
    · cases read
  · rintro rfl
    have valid : char.toNat.isValidChar := char.valid
    rw [if_pos valid, Char.ofNat_toNat]

end Numbers

section Reading

variable {digits rest : List Char} {char : Char}

theorem ReadDigits.width (read : ReadDigits digits rest char) :
    digits.length = 4 ∨ digits.length < 4 ∧ rest = [] := by
  rcases read with ⟨four, -⟩ | loose
  · exact .inl four
  · cases loose with
    | short nonempty few written => exact .inr ⟨few, rfl⟩
    | signed nonempty width written =>
        rw [List.length_cons]
        rcases width with three | ⟨fewer, ended⟩
        · exact .inl (by omega)
        · exact .inr ⟨by omega, ended⟩

theorem ReadDigits.take_append (read : ReadDigits digits rest char) :
    (digits ++ rest).take 4 = digits ∧ (digits ++ rest).drop 4 = rest := by
  rcases read.width with four | ⟨fewer, rfl⟩
  · rw [← four]
    exact ⟨List.take_left, List.drop_left⟩
  · rw [List.append_nil]
    exact ⟨List.take_of_length_le (by omega), List.drop_of_length_le (by omega)⟩

/-- The digits that are read are those of a number, in so far as the text has four of them. -/
theorem readDigits_iff (width : digits.length = 4 ∨ digits.length < 4 ∧ rest = []) :
    ReadDigits digits rest char ↔ hexNumber? digits = some char.toNat := by
  rw [hexNumber?_eq_some_iff]
  constructor
  · rintro (⟨four, written⟩ | loose)
    · exact ⟨digits, List.length_pos_iff.mp (by omega), .inl rfl, written⟩
    · cases loose with
      | short nonempty few written => exact ⟨digits, nonempty, .inl rfl, written⟩
      | signed nonempty _ written => exact ⟨_, nonempty, .inr rfl, written⟩
  · rintro ⟨_, nonempty, rfl | rfl, written⟩
    · rcases width with four | ⟨fewer, rfl⟩
      · exact .inl ⟨four, written⟩
      · exact .inr (.short nonempty fewer written)
    · rw [List.length_cons] at width
      refine .inr (.signed nonempty ?_ written)
      exact width.imp Nat.succ.inj fun fewer => ⟨by omega, fewer.2⟩

theorem decode_number_iff {following value : List Char} :
    decode ('\\' :: 'u' :: following) = some value ↔
      ∃ char later, hexNumber? (following.take 4) = some char.toNat ∧
        decode (following.drop 4) = some later ∧ value = char :: later := by
  simp only [decode, Option.bind_eq_bind, Option.bind_eq_some_iff, Option.some.injEq,
    charOfCode?_eq_some_iff]
  constructor
  · rintro ⟨_, read, char, rfl, later, decoded, rfl⟩
    exact ⟨char, later, read, decoded, rfl⟩
  · rintro ⟨char, later, read, decoded, rfl⟩
    exact ⟨_, read, char, rfl, later, decoded, rfl⟩

theorem decode_letter_iff {letter : Char} {rest value : List Char} (named : letter ≠ 'u') :
    decode ('\\' :: letter :: rest) = some value ↔
      ∃ char later, (letter, char) ∈ letterEscapes ∧ decode rest = some later ∧
        value = char :: later := by
  rw [decode.eq_4 letter rest named]
  simp only [Option.bind_eq_bind, Option.bind_eq_some_iff, Option.some.injEq,
    unescapeLetter?_eq_some_iff, exists_and_left, eq_comm (a := value)]

theorem decode_plain_iff {rest value : List Char} (unescaped : char ≠ '\\') :
    decode (char :: rest) = some value ↔
      ∃ later, decode rest = some later ∧ value = char :: later := by
  rw [decode_plain unescaped, Option.map_eq_some_iff]
  simp only [eq_comm]

theorem unescapes_of_decode {body value : List Char} (decoded : decode body = some value) :
    Unescapes ReadDigits body value := by
  induction body using decode.induct generalizing value with
  | case1 =>
      rw [decode] at decoded
      cases decoded
      exact .nil
  | case2 =>
      rw [decode] at decoded
      cases decoded
  | case3 following ih =>
      rcases decode_number_iff.mp decoded with ⟨char, later, read, decodedLater, rfl⟩
      rw [← List.take_append_drop 4 following]
      refine .number ((readDigits_iff ?_).mpr read) (ih decodedLater)
      rcases Nat.lt_or_ge following.length 4 with fewer | enough
      · exact .inr ⟨by simp; omega, List.drop_of_length_le (by omega)⟩
      · exact .inl (by simp; omega)
  | case4 letter rest named ih =>
      rcases (decode_letter_iff named).mp decoded with ⟨char, later, listed, decodedLater, rfl⟩
      exact .letter listed (ih decodedLater)
  | case5 char rest alone numbered escaped ih =>
      have unescaped : char ≠ '\\' := by
        rintro rfl
        cases rest with
        | nil => exact alone rfl rfl
        | cons letter rest => exact escaped letter rest rfl rfl
      rcases (decode_plain_iff unescaped).mp decoded with ⟨later, decodedLater, rfl⟩
      exact .plain unescaped (ih decodedLater)

theorem decode_of_unescapes {body value : List Char} (stands : Unescapes ReadDigits body value) :
    decode body = some value := by
  induction stands with
  | nil => rw [decode]
  | plain unescaped _ ih => exact (decode_plain_iff unescaped).mpr ⟨_, ih, rfl⟩
  | letter listed _ ih =>
      exact (decode_letter_iff (ne_of_mem_letterEscapes listed)).mpr ⟨_, _, listed, ih, rfl⟩
  | number denoted _ ih =>
      rcases denoted.take_append with ⟨taken, left⟩
      refine decode_number_iff.mpr ⟨_, _, ?_, left.symm ▸ ih, rfl⟩
      rw [taken]
      exact (readDigits_iff denoted.width).mp denoted

/-- Decoding reads exactly the texts with escapes by a letter or by digits that are read. -/
theorem decode_eq_some_iff {body value : List Char} :
    decode body = some value ↔ Unescapes ReadDigits body value :=
  ⟨unescapes_of_decode, decode_of_unescapes⟩

end Reading

section Looseness

variable {body value : List Char}

theorem Unescapes.mono {numbered wider : List Char → List Char → Char → Prop}
    (stands : Unescapes numbered body value)
    (weaker : ∀ digits rest char, numbered digits rest char → wider digits rest char) :
    Unescapes wider body value := by
  induction stands with
  | nil => exact .nil
  | plain unescaped _ ih => exact .plain unescaped ih
  | letter listed _ ih => exact .letter listed ih
  | number denoted _ ih => exact .number (weaker _ _ _ denoted) ih

/-- A text that is read either has all its numbers written by four digits or a first one that is
not. -/
theorem Unescapes.fourDigits_or_loose (stands : Unescapes ReadDigits body value) :
    Unescapes FourDigits body value ∨ HasLooseEscape body := by
  induction stands with
  | nil => exact .inl .nil
  | plain unescaped _ ih =>
      refine ih.imp (.plain unescaped) ?_
      rintro ⟨front, read, digits, rest, char, rfl, before, loose⟩
      exact ⟨_ :: front, _, digits, rest, char, rfl, .plain unescaped before, loose⟩
  | letter listed _ ih =>
      refine ih.imp (.letter listed) ?_
      rintro ⟨front, read, digits, rest, char, rfl, before, loose⟩
      exact ⟨_ :: _ :: front, _, digits, rest, char, rfl, .letter listed before, loose⟩
  | @number digits rest value char denoted _ ih =>
      rcases denoted with four | loose
      · refine ih.imp (.number four) ?_
        rintro ⟨front, read, later, rest, last, rfl, before, loose⟩
        exact ⟨'\\' :: 'u' :: (digits ++ front), _, later, rest, last, by simp,
          .number four before, loose⟩
      · exact .inr ⟨[], [], digits, rest, char, rfl, .nil, loose⟩

/-- No loose escape is one by four digits. -/
theorem LooseDigits.not_fourDigits {digits rest four after : List Char} {char other : Char}
    (loose : LooseDigits digits rest char) (same : four ++ after = digits ++ rest) :
    ¬FourDigits four after other := by
  rintro ⟨width, written⟩
  cases loose with
  | short nonempty few =>
      have lengths := congrArg List.length same
      rw [List.append_nil, List.length_append] at lengths
      omega
  | signed =>
      cases four with
      | nil => cases width
      | cons first others =>
          rw [List.cons_append, List.cons_append, List.cons.injEq] at same
          rw [same.1] at written
          exact not_writes_plus _ _ written

section Inversion

variable {numbered : List Char → List Char → Char → Prop} {first letter : Char} {rest : List Char}

theorem Unescapes.of_plain (unescaped : first ≠ '\\')
    (stands : Unescapes numbered (first :: rest) value) :
    ∃ later, Unescapes numbered rest later := by
  cases stands with
  | plain _ later => exact ⟨_, later⟩
  | letter => exact absurd rfl unescaped
  | number => exact absurd rfl unescaped

theorem Unescapes.of_letter (named : letter ≠ 'u')
    (stands : Unescapes numbered ('\\' :: letter :: rest) value) :
    ∃ later, Unescapes numbered rest later := by
  cases stands with
  | plain unescaped => exact absurd rfl unescaped
  | letter _ later => exact ⟨_, later⟩
  | number => exact absurd rfl named

theorem Unescapes.of_number (stands : Unescapes numbered ('\\' :: 'u' :: rest) value) :
    ∃ digits following char later, rest = digits ++ following ∧ numbered digits following char ∧
      Unescapes numbered following later := by
  cases stands with
  | plain unescaped => exact absurd rfl unescaped
  | letter listed => exact absurd rfl (ne_of_mem_letterEscapes listed)
  | number denoted later => exact ⟨_, _, _, _, rfl, denoted, later⟩

end Inversion

/-- Where one escape ends does not depend on the text after it. -/
theorem Unescapes.of_append {front rest before : List Char}
    (stands : Unescapes FourDigits front before)
    (whole : Unescapes FourDigits (front ++ rest) value) :
    ∃ after, Unescapes FourDigits rest after := by
  induction stands generalizing value with
  | nil => exact ⟨value, whole⟩
  | plain unescaped _ ih =>
      obtain ⟨later, stands⟩ := whole.of_plain unescaped
      exact ih stands
  | letter listed _ ih =>
      obtain ⟨later, stands⟩ := whole.of_letter (ne_of_mem_letterEscapes listed)
      exact ih stands
  | number denoted _ ih =>
      rw [List.cons_append, List.cons_append, List.append_assoc] at whole
      obtain ⟨digits, following, char, later, same, four, stands⟩ := whole.of_number
      have rest_eq := List.append_inj_right same (denoted.1.trans four.1.symm)
      exact ih (rest_eq ▸ stands)

theorem HasLooseEscape.not_fourDigits (loose : HasLooseEscape body) (value : List Char) :
    ¬Unescapes FourDigits body value := by
  rcases loose with ⟨front, before, digits, rest, char, rfl, stands, loose⟩
  intro whole
  obtain ⟨after, escaped⟩ := stands.of_append whole
  obtain ⟨four, following, other, later, same, denoted, -⟩ := escaped.of_number
  exact loose.not_fourDigits same.symm denoted

end Looseness

section Tokens

theorem exists_append_mark_of_stringBody {text taken left : List Char}
    (closed : Scan.stringBody text = (true, taken, left)) : ∃ inside, taken = inside ++ ['"'] := by
  fun_induction Scan.stringBody text generalizing taken left with
  | case1 => cases closed
  | case2 => cases closed
  | case3 escaped rest isClosed more after body ih =>
      obtain ⟨rfl, rfl, rfl⟩ : isClosed = true ∧ _ = taken ∧ after = left := by simpa using closed
      obtain ⟨inside, rfl⟩ := ih body
      exact ⟨'\\' :: escaped :: inside, rfl⟩
  | case4 char rest _ _ isMark =>
      cases closed
      exact ⟨[], rfl⟩
  | case5 => cases closed
  | case6 char rest _ _ _ _ isClosed more after body ih =>
      obtain ⟨rfl, rfl, rfl⟩ : isClosed = true ∧ _ = taken ∧ after = left := by simpa using closed
      obtain ⟨inside, rfl⟩ := ih body
      exact ⟨char :: inside, rfl⟩

/-- A string starts with a quotation mark. -/
theorem first_of_scan_string {first : Char} {rest : List Char}
    (kind : (Scan.scan first rest).kind = .string) : first = '"' := by
  unfold Scan.scan at kind
  split at kind
  · next isMark => exact eq_of_beq isMark
  split at kind
  · have kinds := Scan.kind_number (first :: rest)
    rw [kind] at kinds
    simp at kinds
  split at kind
  · have isName := Lexeme.word_isName (String.ofList (Scan.name (first :: rest)).chars)
    change (Scan.name (first :: rest)).kind.isName = true at isName
    rw [kind] at isName
    cases isName
  split at kind
  · cases kind
  · split at kind <;> cases kind

/-- A string stands between two quotation marks. -/
theorem exists_body_of_scan {first : Char} {rest : List Char}
    (kind : (Scan.scan first rest).kind = .string) :
    ∃ body, (Scan.scan first rest).chars = '"' :: body ++ ['"'] := by
  obtain rfl := first_of_scan_string kind
  change (Scan.string rest).kind = .string at kind
  change ∃ body, (Scan.string rest).chars = '"' :: body ++ ['"']
  unfold Scan.string at kind ⊢
  split at kind
  · simp only at kind
    split at kind <;> cases kind
  · simp only at kind ⊢
    split at kind
    · next closed =>
        rcases exists_append_mark_of_stringBody (Prod.ext closed rfl) with ⟨inside, taken⟩
        exact ⟨inside, by simp [taken]⟩
    · cases kind

theorem exists_body_of_mem_lexemes (text : List Char) : ∀ lexeme ∈ Scan.lexemes text,
    lexeme.kind = .string → ∃ body, lexeme.text.toList = '"' :: body ++ ['"'] := by
  apply Scan.forall_mem_lexemes
  intro first rest kind
  rw [String.toList_ofList]
  exact exists_body_of_scan kind

theorem decodeToken?_marks (body : List Char) :
    decodeToken? ('"' :: body ++ ['"']) = decode body := by
  simp [decodeToken?]

/-- Every string of a source stands between quotation marks, and it is decoded exactly to what it
stands for by its letters and the digits that are read. That is what it stands for with four digits
for each number, unless it has a loose escape. -/
theorem decodeToken?_iff_unescapes {source : List Char} {token : Token}
    (token_mem : token ∈ Scan.tokenize source) (kind : token.kind = .string) :
    ∃ body, token.text.toList = '"' :: body ++ ['"'] ∧
      (∀ value, decodeToken? token.text.toList = some value ↔ Unescapes ReadDigits body value) ∧
      ∀ value, Unescapes FourDigits body value ↔
        decodeToken? token.text.toList = some value ∧ ¬HasLooseEscape body := by
  have found : token.lexeme ∈ Scan.lexemes source := by
    rw [Scan.tokenize, List.mem_append, List.mem_singleton] at token_mem
    rcases token_mem with token_mem | rfl
    · exact List.mem_map_of_mem token_mem
    · cases kind
  obtain ⟨body, written⟩ : ∃ body, token.text.toList = '"' :: body ++ ['"'] :=
    exists_body_of_mem_lexemes source _ found kind
  rw [written, decodeToken?_marks]
  refine ⟨body, rfl, fun value => decode_eq_some_iff, fun value => ?_⟩
  rw [decode_eq_some_iff]
  constructor
  · intro stands
    exact ⟨stands.mono fun _ _ _ => .inl, fun loose => loose.not_fourDigits value stands⟩
  · rintro ⟨read, noLoose⟩
    exact read.fourDigits_or_loose.resolve_right noLoose

/-- A string that ends with a number of two digits. -/
def shortNumber : List Char := "\"\\u41\"".toList

/-- The number is read, although it has not four digits. -/
theorem decodeToken?_iff_unescapes_shortNumber :
    ∃ token ∈ Scan.tokenize shortNumber, token.kind = .string ∧
      decodeToken? token.text.toList = some ['A'] ∧
      ∃ body, token.text.toList = '"' :: body ++ ['"'] ∧
        ∀ value, ¬Unescapes FourDigits body value := by
  have token_mem : (⟨.string, String.ofList shortNumber, ⟨0, 6⟩⟩ : Token) ∈
      Scan.tokenize shortNumber := by decide +kernel
  obtain ⟨body, written, read, strict⟩ := decodeToken?_iff_unescapes token_mem rfl
  have chars : (String.ofList shortNumber).toList = '"' :: ['\\', 'u', '4', '1'] ++ ['"'] := by
    rw [String.toList_ofList]
    rfl
  obtain ⟨-, rfl⟩ := List.cons.inj (List.append_cancel_right (written.symm.trans chars))
  have loose : LooseDigits ['4', '1'] [] 'A' :=
    .short (by decide) (by decide) ⟨[4, 1], by simp [hexDigits], rfl⟩
  have short : ReadDigits ['4', '1'] [] 'A' := .inr loose
  have decoded := (read ['A']).mpr (.number short .nil)
  refine ⟨_, token_mem, rfl, decoded, _, written, fun value stands => ?_⟩
  exact ((strict value).mp stands).2 ⟨[], [], ['4', '1'], [], 'A', rfl, .nil, loose⟩

end Tokens

end Quoted

end WiredGraph
