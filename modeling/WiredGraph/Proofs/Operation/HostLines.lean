import WiredGraph.Operation.Template
import WiredGraph.Proofs.CommandLine.Paths
import WiredGraph.Proofs.Source.Lines
import WiredGraph.Proofs.Success

/-!
# Lines of embedded documents in their host files

The text of an embedded document is that of its template, with as many blanks in place of each
interpolation as the interpolation has bytes. Offsets in the document are therefore offsets in the
template. Its lines are those of the host file only up to the first interpolation with a line feed:
the blanks have none, so every line after it is reported too low by the line feeds that were blanked
out.
-/

namespace WiredGraph

namespace Template

/-- A template is made of characters that stand for themselves and of interpolations. -/
inductive Piece where
  | plain (char : Char)
  | interpolation (inside : List Char)

namespace Piece

/-- The text of a piece in the template. -/
def chars : Piece → List Char
  | .plain char => [char]
  | .interpolation inside => '$' :: '\x7b' :: inside ++ ['\x7d']

/-- The text of a piece in the embedded document. -/
def blanked : Piece → List Char
  | .plain char => [char]
  | .interpolation inside =>
      List.replicate (Utf8.length (interpolation inside).chars) ' '

/-- The line feeds of an interpolation before an offset from its start. -/
def blankedLineFeeds (offset : Nat) : Piece → Nat
  | .plain _ => 0
  | .interpolation inside => lineFeedsBefore offset (interpolation inside).chars

end Piece

/-- The line feeds in interpolations before an offset from the start of the first piece. -/
def blankedLineFeeds (offset : Nat) : List Piece → Nat
  | [] => 0
  | piece :: pieces =>
      piece.blankedLineFeeds offset +
        blankedLineFeeds (offset - Utf8.length piece.chars) pieces

/-- The pieces of a template. An interpolation runs from its opening marks to the first closing
brace; opening marks without a brace after them stand for themselves. -/
inductive Pieces : List Char → List Piece → Prop
  | nil : Pieces [] []
  | interpolation {inside rest : List Char} {pieces : List Piece} :
      '\x7d' ∉ inside → Pieces rest pieces →
        Pieces ((Piece.interpolation inside).chars ++ rest) (.interpolation inside :: pieces)
  | plain {char : Char} {rest : List Char} {pieces : List Piece} :
      (∀ inside after, '\x7d' ∉ inside →
          char :: rest ≠ (Piece.interpolation inside).chars ++ after) →
        Pieces rest pieces → Pieces (char :: rest) (.plain char :: pieces)

section Blanks

variable {body : List Char} {pieces : List Piece}

theorem length_replicate_space (count : Nat) : Utf8.length (List.replicate count ' ') = count := by
  induction count with
  | zero => rfl
  | succ count ih =>
      rw [List.replicate_succ, Utf8.length_cons, ih, Nat.add_comm]
      rfl

/-- Blanking an interpolation out from its inside on leads on behind its closing brace. -/
theorem blankInterpolations_inside {inside : List Char} (closed : '\x7d' ∉ inside)
    (rest : List Char) :
    blankInterpolations true (inside ++ '\x7d' :: rest) =
      List.replicate (Utf8.length (inside ++ ['\x7d'])) ' ' ++ blankInterpolations false rest := by
  induction inside with
  | nil => rfl
  | cons char inside ih =>
      rw [List.mem_cons, not_or] at closed
      have goesOn : (char != '\x7d') = true := bne_iff_ne.mpr (Ne.symm closed.1)
      rw [List.cons_append, blankInterpolations, goesOn, ih closed.2, List.cons_append,
        Utf8.length_cons, ← List.replicate_append_replicate, List.append_assoc]

theorem blankInterpolations_interpolation {inside : List Char} (closed : '\x7d' ∉ inside)
    (rest : List Char) :
    blankInterpolations false ((Piece.interpolation inside).chars ++ rest) =
      (Piece.interpolation inside).blanked ++ blankInterpolations false rest := by
  have opens : (Piece.interpolation inside).chars ++ rest =
      '$' :: '\x7b' :: (inside ++ '\x7d' :: rest) := by
    simp [Piece.chars]
  have brace : ('\x7b' != '\x7d') = true := by decide
  have blanked : (Piece.interpolation inside).blanked =
      ' ' :: (List.replicate '\x7b'.utf8Size ' ' ++
        List.replicate (Utf8.length (inside ++ ['\x7d'])) ' ') := by
    have dollar : '$'.utf8Size = 1 := rfl
    rw [List.replicate_append_replicate, ← List.replicate_succ, Piece.blanked, Piece.chars,
      List.cons_append, List.cons_append, Utf8.length_cons, Utf8.length_cons, dollar,
      Nat.add_comm 1]
  rw [opens, blankInterpolations, if_pos (by simp), blankInterpolations, brace,
    blankInterpolations_inside closed, blanked, List.cons_append, List.append_assoc]

/-- A character at which no interpolation starts is kept. An interpolation would end with the first
closing brace. -/
theorem blankInterpolations_plain {char : Char} {rest : List Char}
    (noStart : ∀ inside after, '\x7d' ∉ inside →
      char :: rest ≠ (Piece.interpolation inside).chars ++ after) :
    blankInterpolations false (char :: rest) = char :: blankInterpolations false rest := by
  rw [blankInterpolations, if_neg]
  rintro ⟨rfl, brace, closes⟩
  cases rest with
  | nil => nomatch brace
  | cons opening later =>
      obtain rfl : opening = '\x7b' := by simpa using brace
      rcases List.eq_append_cons_of_mem (by simpa using closes) with ⟨inside, after, rfl, closed⟩
      exact noStart inside after closed (by simp [Piece.chars])

theorem exists_pieces (body : List Char) : ∃ pieces, Pieces body pieces := by
  induction size : body.length using Nat.strongRecOn generalizing body with
  | _ size ih =>
      subst size
      cases body with
      | nil => exact ⟨[], .nil⟩
      | cons char rest =>
          by_cases starts : ∃ inside after,
              '\x7d' ∉ inside ∧ char :: rest = (Piece.interpolation inside).chars ++ after
          · rcases starts with ⟨inside, after, closed, whole⟩
            have shorter : after.length < (char :: rest).length := by
              rw [whole, List.length_append]
              simp [Piece.chars]
            rcases ih _ shorter after rfl with ⟨pieces, later⟩
            rw [whole]
            exact ⟨_, .interpolation closed later⟩
          · rcases ih _ (Nat.lt_succ_self rest.length) rest rfl with ⟨pieces, later⟩
            exact ⟨_, .plain (fun inside after closed whole =>
              starts ⟨inside, after, closed, whole⟩) later⟩

theorem blankInterpolations_eq (parts : Pieces body pieces) :
    blankInterpolations false body = pieces.flatMap Piece.blanked := by
  induction parts with
  | nil => rfl
  | interpolation closed _ ih =>
      rw [blankInterpolations_interpolation closed, ih, List.flatMap_cons]
  | plain noStart _ ih =>
      rw [blankInterpolations_plain noStart, ih, List.flatMap_cons]
      rfl

theorem flatMap_chars (parts : Pieces body pieces) : pieces.flatMap Piece.chars = body := by
  induction parts with
  | nil => rfl
  | interpolation _ _ ih => rw [List.flatMap_cons, ih]
  | plain _ _ ih =>
      rw [List.flatMap_cons, ih]
      rfl

theorem length_blanked (piece : Piece) : Utf8.length piece.blanked = Utf8.length piece.chars := by
  cases piece with
  | plain char => rfl
  | interpolation inside => exact length_replicate_space _

theorem lineFeedsBefore_chars (offset : Nat) (piece : Piece) :
    lineFeedsBefore offset piece.chars =
      lineFeedsBefore offset piece.blanked + piece.blankedLineFeeds offset := by
  cases piece with
  | plain char => rfl
  | interpolation inside =>
      have none : '\n' ∉ (Piece.interpolation inside).blanked := by
        intro feed_mem
        cases List.eq_of_mem_replicate feed_mem
      rw [lineFeedsBefore_of_not_mem none, Nat.zero_add]
      rfl

/-- What stands before an offset has the line feeds that are left and those that were blanked
out. -/
theorem lineFeedsBefore_flatMap_chars (offset : Nat) (pieces : List Piece) :
    lineFeedsBefore offset (pieces.flatMap Piece.chars) =
      lineFeedsBefore offset (pieces.flatMap Piece.blanked) + blankedLineFeeds offset pieces := by
  induction pieces generalizing offset with
  | nil => rfl
  | cons piece pieces ih =>
      rw [List.flatMap_cons, List.flatMap_cons, lineFeedsBefore_append, lineFeedsBefore_append,
        lineFeedsBefore_chars, ih, length_blanked, blankedLineFeeds]
      omega

theorem length_flatMap_blanked (pieces : List Piece) :
    Utf8.length (pieces.flatMap Piece.blanked) = Utf8.length (pieces.flatMap Piece.chars) := by
  induction pieces with
  | nil => rfl
  | cons piece pieces ih =>
      rw [List.flatMap_cons, List.flatMap_cons, Utf8.length_append, Utf8.length_append, ih,
        length_blanked]

end Blanks

section Found

variable {text : List Char} {template : Template}

/-- Where a template stands in a host file: the text before its body, the text from there on, and
the pieces that its body is made of. -/
structure StandsIn (text : List Char) (template : Template) (before body : List Char)
    (pieces : List Piece) : Prop where
  declared : ∃ rest comment declaration, rest <:+ text ∧
    documented? rest = some (comment, declaration) ∧
    template = ofDeclaration text comment declaration ∧ declaration.body = body ∧
    text = before ++ declaration.fromBody
  enclosed : ∃ front after, before = front ++ ['\x60'] ∧
    text = before ++ body ++ '\x60' :: after
  parts : Pieces body pieces

theorem suffix_of_dropStart? {start rest : List Char}
    (found : Text.dropStart? start text = some rest) : rest <:+ text :=
  ⟨start, (Text.dropStart?_eq_some.mp found).symm⟩

theorem suffix_of_afterBlanks? {rest : List Char} (found : afterBlanks? text = some rest) :
    rest <:+ text := by
  rw [afterBlanks?] at found
  split at found
  · cases found
    exact List.dropWhile_suffix _
  · nomatch found

theorem suffix_of_afterEquals? {rest : List Char} (found : afterEquals? text = some rest) :
    rest <:+ text := by
  unfold afterEquals? at found
  split at found
  · split at found
    · exact (suffix_of_dropStart? found).trans
        ((List.dropWhile_suffix _).trans (List.suffix_cons _ _))
    · nomatch found
  · exact suffix_of_dropStart? found

/-- A declaration opens its template and closes it. -/
theorem append_of_declaration? {rest : List Char} {declaration : Declaration}
    (found : declaration? rest = some declaration) :
    '\x60' :: declaration.fromBody <:+ rest ∧
      declaration.fromBody = declaration.body ++ '\x60' :: declaration.after := by
  obtain ⟨afterWord, word, found⟩ := Option.bind_eq_some_iff.mp found
  obtain ⟨afterExport, blanks, found⟩ := Option.bind_eq_some_iff.mp found
  obtain ⟨afterConst, const, found⟩ := Option.bind_eq_some_iff.mp found
  obtain ⟨fromName, name, found⟩ := Option.bind_eq_some_iff.mp found
  obtain ⟨-, -, found⟩ := Option.bind_eq_some_iff.mp found
  obtain ⟨value, equals, found⟩ := Option.bind_eq_some_iff.mp found
  obtain ⟨tagged, tag, found⟩ := Option.bind_eq_some_iff.mp found
  obtain ⟨fromBody, opens, found⟩ := Option.bind_eq_some_iff.mp found
  obtain ⟨⟨body, after⟩, closes, same⟩ := Option.bind_eq_some_iff.mp found
  obtain rfl := Option.some.inj same
  have trims (text : List Char) : Text.trimStart text <:+ text := List.dropWhile_suffix _
  refine ⟨?_, by simpa using Text.append_of_splitAround? closes⟩
  have opened := trims tagged
  rw [Text.dropStart?_eq_some.mp opens] at opened
  have fromTag : tagged <:+ fromName :=
    (suffix_of_dropStart? tag).trans <| (trims value).trans <|
      (suffix_of_afterEquals? equals).trans <| (trims _).trans (List.dropWhile_suffix _)
  have fromExport : fromName <:+ rest :=
    (suffix_of_afterBlanks? name).trans <| (suffix_of_dropStart? const).trans <|
      (suffix_of_afterBlanks? blanks).trans (suffix_of_dropStart? word)
  exact opened.trans (fromTag.trans fromExport)

theorem suffix_of_comment? {comment after : List Char}
    (found : comment? text = some (comment, after)) : after <:+ text := by
  simp only [comment?, bind, Option.bind_eq_some_iff] at found
  rcases found with ⟨inside, opens, ⟨content, rest⟩, closes, same⟩
  cases same
  refine .trans ⟨content ++ "*/".toList, ?_⟩ (suffix_of_dropStart? opens)
  exact (Text.append_of_splitAround? closes).symm

/-- A documented declaration is one that follows its comment. -/
theorem exists_declaration?_of_documented? {comment : Option (List Char)}
    {declaration : Declaration} (found : documented? text = some (comment, declaration)) :
    ∃ rest, rest <:+ text ∧ declaration? rest = some declaration := by
  rw [documented?] at found
  split at found
  · next whole withComment =>
      simp only [bind, Option.bind_eq_some_iff] at withComment
      rcases withComment with ⟨⟨content, after⟩, commented, declared, read, same⟩
      cases found
      cases same
      exact ⟨_, (List.dropWhile_suffix _).trans (suffix_of_comment? commented), read⟩
  · rcases Option.map_eq_some_iff.mp found with ⟨declared, read, same⟩
    cases same
    exact ⟨text, List.suffix_rfl, read⟩

/-- Every template that is found stands somewhere in the text. -/
theorem exists_standsIn {bound : Nat} {rest : List Char} (within : rest <:+ text)
    (found : template ∈ findUpTo text bound rest) :
    ∃ before body pieces, StandsIn text template before body pieces := by
  induction bound generalizing rest with
  | zero => nomatch found
  | succ bound ih =>
      rw [findUpTo] at found
      split at found
      · next comment declaration documented =>
          rcases exists_declaration?_of_documented? documented with ⟨declared, later, read⟩
          rcases append_of_declaration? read with ⟨opened, closed⟩
          have place : '\x60' :: declaration.fromBody <:+ text :=
            opened.trans (later.trans within)
          rcases List.mem_cons.mp found with rfl | there
          · rcases place with ⟨front, whole⟩
            rcases exists_pieces declaration.body with ⟨pieces, parts⟩
            refine ⟨front ++ ['\x60'], declaration.body, pieces, ?_, ?_, parts⟩
            · exact ⟨rest, comment, declaration, within, documented, rfl, rfl, by simp [← whole]⟩
            · exact ⟨front, declaration.after, rfl, by simp [← whole, closed]⟩
          · refine ih (.trans ?_ place) there
            rw [closed]
            exact (List.suffix_cons _ _).trans
              ((List.suffix_append _ _).trans (List.suffix_cons _ _))
      · exact ih ((List.drop_suffix 1 rest).trans within) found

section Stands

variable {before body : List Char} {pieces : List Piece}
  (stands : StandsIn text template before body pieces)

include stands

theorem StandsIn.chars_source (path : String) :
    (template.source path).chars = pieces.flatMap Piece.blanked := by
  rcases stands.declared with ⟨rest, comment, declaration, -, -, rfl, rfl, -⟩
  rw [← blankInterpolations_eq stands.parts]
  exact String.toList_ofList

theorem StandsIn.length_chars (path : String) :
    Utf8.length (template.source path).chars = Utf8.length body := by
  rw [stands.chars_source, length_flatMap_blanked, flatMap_chars stands.parts]

theorem StandsIn.firstLine_source (path : String) :
    (template.source path).firstLine = before.count '\n' + 1 := by
  rcases stands.declared with ⟨rest, comment, declaration, -, -, rfl, -, place⟩
  change lineOfRest text declaration.fromBody = _
  rw [lineOfRest, place, List.count_append, Nat.add_sub_cancel]

/-- The lines of a template's document are those of the host file, less the line feeds that were
blanked out. -/
theorem StandsIn.lineOf_source (path : String) {offset : Nat}
    (within : offset ≤ Utf8.length body) (stop : Nat) :
    (template.source path).lineOf ⟨offset, stop⟩ + blankedLineFeeds offset pieces =
      lineFeedsBefore (Utf8.length before + offset) text + 1 := by
  rcases stands.enclosed with ⟨front, after, -, whole⟩
  have inside := lineFeedsBefore_flatMap_chars offset pieces
  rw [flatMap_chars stands.parts] at inside
  have host := lineFeedsBefore_append_add offset before (body ++ '\x60' :: after)
  have ends : lineFeedsBefore 0 ('\x60' :: after) = 0 :=
    lineFeedsBefore_of_short (Char.utf8Size_pos _) after
  rw [← List.append_assoc, ← whole, lineFeedsBefore_append, Nat.sub_eq_zero_of_le within, ends]
    at host
  rw [SourceFile.lineOf_eq, stands.chars_source, stands.firstLine_source, host, inside,
    Nat.add_sub_cancel]
  change lineFeedsBefore offset _ + 1 + _ + _ = _
  omega

end Stands

end Found

end Template

namespace EmbeddedDocuments

open Template (StandsIn blankedLineFeeds)

/-- Every document of a host file comes from a template there and is as long as its body. The line
reported for an offset in it, and the line feeds of interpolations before the offset, make up the
line of the host file on which the same byte of the body stands. -/
theorem lineOf_add_blankedLineFeeds {path text : String} {found : EmbeddedDocuments}
    (extracts : ofHostFile path text = .ok found) :
    ∀ file ∈ found.documents, ∃ template before body pieces,
      file = template.source path ∧ StandsIn text.toList template before body pieces ∧
        Utf8.length file.chars = Utf8.length body ∧
        ∀ offset ≤ Utf8.length file.chars, ∀ stop,
          file.lineOf ⟨offset, stop⟩ + blankedLineFeeds offset pieces =
            lineFeedsBefore (Utf8.length before + offset) text.toList + 1 := by
  simp only [ofHostFile, Success.bind_eq_ok, Success.pure_eq_ok] at extracts
  rcases extracts with ⟨entries, -, rfl⟩
  intro file file_mem
  rcases List.mem_map.mp file_mem with ⟨template, template_mem, rfl⟩
  rcases Template.exists_standsIn List.suffix_rfl template_mem with
    ⟨before, body, pieces, stands⟩
  have same := stands.length_chars path
  refine ⟨template, before, body, pieces, rfl, stands, same, ?_⟩
  intro offset within stop
  exact stands.lineOf_source path (same ▸ within) stop

/-- A template with two line feeds in an interpolation and a query after it. -/
def interpolatedQuery : String := "export const A = gql\x60$\x7b\nB\n\x7d\n\x7b a \x7d\x60"

/-- The query stands on the fourth line, and the second one is reported. -/
theorem lineOf_add_blankedLineFeeds_interpolatedQuery :
    lineFeedsBefore (Utf8.length "export const A = gql\x60".toList + 7)
        interpolatedQuery.toList + 1 = 4 ∧
      ∃ found, ofHostFile "gql.ts" interpolatedQuery = .ok found ∧
        found.documents.map (·.lineOf ⟨7, 8⟩) = [2] ∧
        ∀ file ∈ found.documents, ∃ template before body pieces,
          file = template.source "gql.ts" ∧
            StandsIn interpolatedQuery.toList template before body pieces ∧
            Utf8.length file.chars = Utf8.length body ∧
            ∀ offset ≤ Utf8.length file.chars, ∀ stop,
              file.lineOf ⟨offset, stop⟩ + blankedLineFeeds offset pieces =
                lineFeedsBefore (Utf8.length before + offset) interpolatedQuery.toList + 1 := by
  refine ⟨by decide +kernel, ?_⟩
  have read : (ofHostFile "gql.ts" interpolatedQuery).toOption.any (fun found =>
      found.documents.map (·.lineOf ⟨7, 8⟩) == [2]) = true := by decide +kernel
  cases extracts : ofHostFile "gql.ts" interpolatedQuery with
  | error block =>
      rw [extracts] at read
      cases read
  | ok found =>
      rw [extracts] at read
      refine ⟨found, rfl, ?_, lineOf_add_blankedLineFeeds extracts⟩
      simpa [Except.toOption] using read

end EmbeddedDocuments

end WiredGraph
