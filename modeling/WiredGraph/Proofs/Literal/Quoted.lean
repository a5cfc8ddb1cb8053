import WiredGraph.Literal.Quoted
import WiredGraph.Token.Scan

/-!
# Quoted text is read back

A text written between quotation marks is scanned as one string, whatever follows, and decoding
that string gives the text again. Both are shown one character at a time: what a character is
written as never ends the string, and stands for that character alone.
-/

namespace WiredGraph

namespace Quoted

/-- A character may stand in a string as it is if it neither ends it nor starts an escape. -/
def IsPlain (char : Char) : Prop :=
  char ≠ '"' ∧ char ≠ '\\' ∧ Scan.endsLine char = false

instance (char : Char) : Decidable (IsPlain char) := inferInstanceAs (Decidable (_ ∧ _ ∧ _))

theorem upperHexDigit_spec :
    ∀ value < 16, hexDigit? (upperHexDigit value) = some value ∧ IsPlain (upperHexDigit value) := by
  decide

theorem hexNumber?_of_byte {code : Nat} (small : code < 256) :
    hexNumber? ['0', '0', upperHexDigit (code / 16), upperHexDigit (code % 16)] = some code := by
  have high := (upperHexDigit_spec (code / 16) (by omega)).1
  have low := (upperHexDigit_spec (code % 16) (by omega)).1
  have zero : hexDigit? '0' = some 0 := by decide
  have read : hexNumber? ['0', '0', upperHexDigit (code / 16), upperHexDigit (code % 16)] =
      hexFrom 0 ['0', '0', upperHexDigit (code / 16), upperHexDigit (code % 16)] := rfl
  simp only [read, hexFrom, zero, high, low, Option.bind_eq_bind, Option.bind_some]
  congr 1
  omega

/-- How a character is written: as it is, by a letter after a backslash, or by its number. -/
theorem encodeChar_cases (char : Char) :
    encodeChar char = [char] ∧ IsPlain char ∨
      (∃ letter, encodeChar char = ['\\', letter] ∧ letter ≠ 'u' ∧
        unescapeLetter? letter = some char) ∨
      (char.toNat < 256 ∧ encodeChar char =
        ['\\', 'u', '0', '0', upperHexDigit (char.toNat / 16),
          upperHexDigit (char.toNat % 16)]) := by
  unfold encodeChar
  split
  · next quote => exact .inr (.inl ⟨'"', rfl, by decide, by rw [quote]; rfl⟩)
  split
  · next backslash => exact .inr (.inl ⟨'\\', rfl, by decide, by rw [backslash]; rfl⟩)
  split
  · next lineFeed => exact .inr (.inl ⟨'n', rfl, by decide, by rw [lineFeed]; rfl⟩)
  split
  · next carriageReturn => exact .inr (.inl ⟨'r', rfl, by decide, by rw [carriageReturn]; rfl⟩)
  split
  · next tab => exact .inr (.inl ⟨'t', rfl, by decide, by rw [tab]; rfl⟩)
  split
  · next backspace => exact .inr (.inl ⟨'b', rfl, by decide, by rw [backspace]; rfl⟩)
  split
  · next formFeed => exact .inr (.inl ⟨'f', rfl, by decide, by rw [formFeed]; rfl⟩)
  split
  · next control => exact .inr (.inr ⟨by omega, rfl⟩)
  · next notQuote notBackslash notLineFeed notReturn _ _ _ _ =>
      exact .inl ⟨rfl, notQuote, notBackslash, by simp [Scan.endsLine, notLineFeed, notReturn]⟩

section Scanning

theorem stringBody_plain {char : Char} (plain : IsPlain char) (rest : List Char) :
    Scan.stringBody (char :: rest) =
      ((Scan.stringBody rest).1, char :: (Scan.stringBody rest).2.1,
        (Scan.stringBody rest).2.2) := by
  rcases plain with ⟨notQuote, notBackslash, inLine⟩
  rw [Scan.stringBody.eq_def]
  split
  · next empty => simp at empty
  · next only => simp_all
  · next both => simp_all
  · next same => simp_all

/-- The characters that a character is written as are taken into the string. -/
theorem stringBody_encodeChar (char : Char) (rest : List Char) :
    Scan.stringBody (encodeChar char ++ rest) =
      ((Scan.stringBody rest).1, encodeChar char ++ (Scan.stringBody rest).2.1,
        (Scan.stringBody rest).2.2) := by
  rcases encodeChar_cases char with ⟨written, plain⟩ | ⟨letter, written, -⟩ | ⟨small, written⟩
  · rw [written]
    exact stringBody_plain plain rest
  · rw [written]
    rfl
  · have zero : IsPlain '0' := by decide
    have high := (upperHexDigit_spec (char.toNat / 16) (by omega)).2
    have low := (upperHexDigit_spec (char.toNat % 16) (by omega)).2
    rw [written]
    simp only [List.cons_append, List.nil_append, Scan.stringBody, stringBody_plain zero,
      stringBody_plain high, stringBody_plain low]

/-- A written text is taken into the string up to the closing mark. -/
theorem stringBody_encode (text rest : List Char) :
    Scan.stringBody (text.flatMap encodeChar ++ '"' :: rest) =
      (true, text.flatMap encodeChar ++ ['"'], rest) := by
  induction text with
  | nil => simp [Scan.stringBody]
  | cons char text ih =>
      rw [List.flatMap_cons, List.append_assoc, stringBody_encodeChar, ih]
      simp only [List.append_assoc]

/-- The first of the characters that a character is written as is no quotation mark. -/
theorem head_encodeChar (char : Char) : ∀ first ∈ (encodeChar char).head?, first ≠ '"' := by
  rcases encodeChar_cases char with ⟨written, plain⟩ | ⟨letter, written, -⟩ | ⟨small, written⟩
  · simp [written, plain.1]
  · simp [written]
  · simp [written]

/-- A written text is scanned as one string, unless it is empty and a further mark follows. Three
marks would start a block string, but no character is written with one in front. -/
theorem scan_encode {text rest : List Char} (separated : text = [] → rest.head? ≠ some '"') :
    Scan.string ((text.flatMap encodeChar ++ ['"']) ++ rest) =
      ⟨.string, encode text, rest⟩ := by
  have body := stringBody_encode text rest
  rw [List.append_assoc, List.singleton_append]
  unfold Scan.string
  split
  · next afterMarks opened =>
      cases text with
      | nil =>
          rw [List.flatMap_nil, List.nil_append, List.cons.injEq] at opened
          exact absurd (by rw [opened.2]; rfl) (separated rfl)
      | cons char text =>
          have unquoted := head_encodeChar char
          rcases encodeChar_cases char with ⟨written, -⟩ | ⟨letter, written, -⟩ | ⟨-, written⟩ <;>
            simp_all
  · rw [body]
    simp [encode]

end Scanning

section Decoding

theorem decode_plain {char : Char} (notBackslash : char ≠ '\\') (rest : List Char) :
    decode (char :: rest) = (decode rest).map (char :: ·) := by
  rw [decode.eq_def]
  split
  · next empty => simp at empty
  · next only => simp_all
  · next escape => simp_all
  · next escape => simp_all
  · next same =>
      rw [List.cons.injEq] at same
      rcases same with ⟨rfl, rfl⟩
      cases decode rest <;> rfl

/-- What a character is written as stands for that character. -/
theorem decode_encodeChar (char : Char) (rest : List Char) :
    decode (encodeChar char ++ rest) = (decode rest).map (char :: ·) := by
  rcases encodeChar_cases char with
    ⟨written, -, notBackslash, -⟩ | ⟨letter, written, named, meant⟩ | ⟨small, written⟩
  · rw [written]
    exact decode_plain notBackslash rest
  · rw [written, List.cons_append, List.cons_append, List.nil_append, decode.eq_4]
    · simp only [meant, Option.bind_eq_bind, Option.bind_some]
      cases decode rest <;> rfl
    · exact named
  · have valid : char.toNat.isValidChar := char.valid
    rw [written]
    simp only [List.cons_append, List.nil_append, decode, List.take_succ_cons, List.take_zero,
      List.drop_succ_cons, List.drop_zero, hexNumber?_of_byte small, charOfCode?, if_pos valid,
      Char.ofNat_toNat, Option.bind_eq_bind, Option.bind_some]
    cases decode rest <;> rfl

theorem decode_encode (text : List Char) : decode (text.flatMap encodeChar) = some text := by
  induction text with
  | nil => simp [decode]
  | cons char text ih => rw [List.flatMap_cons, decode_encodeChar, ih, Option.map_some]

/-- A written text, marks included, is decoded to the text. -/
theorem decodeToken?_encode (text : List Char) : decodeToken? (encode text) = some text := by
  have closed : (text.flatMap encodeChar ++ ['"']).getLast? = some '"' := by simp
  have body : (text.flatMap encodeChar ++ ['"']).dropLast = text.flatMap encodeChar := by simp
  rw [encode, List.cons_append, decodeToken?, if_pos closed, body]
  exact decode_encode text

end Decoding

end Quoted

end WiredGraph
