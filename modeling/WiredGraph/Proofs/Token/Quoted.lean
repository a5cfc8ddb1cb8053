import WiredGraph.Proofs.Token.Append

/-!
# Written strings are tokens

A text that is written between quotation marks is scanned as one string token from its first to its
last byte, and this token is decoded to the text. What stands behind does not matter, with one
exception: a further quotation mark behind an empty text opens a block string.
-/

namespace WiredGraph

namespace Quoted

open Scan (tokens tokensFrom tokenize endToken)

/-- The token for a text that is written at the start of a source. -/
def token (text : String) : Token :=
  ⟨.string, String.ofList (encode text.toList), ⟨0, Utf8.length (encode text.toList)⟩⟩

/-- A written text is the first token wherever it stands, and scanning goes on behind it. -/
theorem tokensFrom_encode (offset : Nat) {text rest : List Char}
    (separated : text = [] → rest.head? ≠ some '"') :
    tokensFrom offset (encode text ++ rest) =
      ⟨.string, String.ofList (encode text), ⟨offset, offset + Utf8.length (encode text)⟩⟩ ::
        tokensFrom (offset + Utf8.length (encode text)) rest := by
  have found : Scan.splitIgnored false (encode text ++ rest) =
      ([], '"' :: (text.flatMap encodeChar ++ ['"'] ++ rest)) := by
    simp [encode, Scan.splitIgnored, Scan.isIgnored]
  have scanned : Scan.scan '"' (text.flatMap encodeChar ++ ['"'] ++ rest) =
      ⟨.string, encode text, rest⟩ := scan_encode separated
  rw [Scan.tokensFrom_eq_cons found, scanned, Utf8.length_nil, Nat.add_zero]

/-- Three quotation marks do not start a string. -/
theorem kind_string_ne_string (rest : List Char) :
    (Scan.string ('"' :: '"' :: rest)).kind ≠ .string := by
  simp only [Scan.string]
  split <;> nofun

/-- How a written text is read. -/
structure ReadBack (text : String) : Prop where
  /-- Alone it is one token. -/
  alone : tokenize (encode text.toList) = [token text, endToken (encode text.toList)]
  /-- The token stands for the text. -/
  decoded : decodeToken? (token text).text.toList = some text.toList
  /-- Before any character but a quotation mark it is the same token, and scanning goes on there. -/
  followed : ∀ next rest, next ≠ '"' → tokens (encode text.toList ++ next :: rest) =
    token text :: tokensFrom (token text).span.stop (next :: rest)
  /-- It is not the first token only if it is empty and before a quotation mark. -/
  first_iff : ∀ rest, (tokens (encode text.toList ++ rest)).head? = some (token text) ↔
    (text = "" → rest.head? ≠ some '"')

theorem tokens_encode {text : String} {rest : List Char}
    (separated : text = "" → rest.head? ≠ some '"') :
    tokens (encode text.toList ++ rest) =
      token text :: tokensFrom (token text).span.stop rest := by
  have apart : text.toList = [] → rest.head? ≠ some '"' :=
    fun empty => separated (String.toList_eq_nil_iff.mp empty)
  rw [tokens, tokensFrom_encode 0 apart]
  simp only [token, Nat.zero_add]

/-- Every text that is written between quotation marks is read back. -/
theorem readBack_encode (text : String) : ReadBack text where
  alone := by
    have scanned : tokens (encode text.toList ++ []) =
        token text :: tokensFrom (token text).span.stop [] := tokens_encode fun _ => nofun
    rw [List.append_nil] at scanned
    rw [tokenize, scanned, Scan.tokensFrom_of_ended _ (show _ = ([], []) from rfl)]
    rfl
  decoded := by
    rw [token, String.toList_ofList]
    exact decodeToken?_encode text.toList
  followed next rest other := tokens_encode fun _ marked => other (Option.some.inj marked)
  first_iff rest := by
    constructor
    · rintro first rfl marked
      rcases rest with - | ⟨mark, after⟩
      · cases marked
      · obtain rfl : mark = '"' := Option.some.inj marked
        have found : Scan.splitIgnored false (encode [] ++ '"' :: after) =
            ([], '"' :: '"' :: '"' :: after) := rfl
        rw [String.toList_empty, tokens, Scan.tokensFrom_eq_cons found, List.head?_cons] at first
        exact kind_string_ne_string after (congrArg Token.kind (Option.some.inj first))
    · intro separated
      rw [tokens_encode separated, List.head?_cons]

end Quoted

end WiredGraph
