import Mathlib.Data.List.Chain
import WiredGraph.Proofs.Source.Boundaries
import WiredGraph.Proofs.Token.Append

/-!
# Tokens and the text between them

The tokens of a source, with the gaps in front of them, make up the source: no character is skipped
and none is read twice. A gap holds nothing but separators and comments, and a comment goes on up to
the end of its line, or up to the end of the source if no line follows. The last token stands for
the end of the source and covers no text, every other one covers some.
-/

namespace WiredGraph

namespace Scan

section Gaps

/-- The characters that stand between tokens on their own. -/
def separators : List Char := [' ', '\t', '\n', '\r', ',', '\ufeff']

/-- The characters that end a line. -/
def lineEnds : List Char := ['\n', '\r']

/-- A gap in front of a text is made of separators and of comments, each of which runs from a number
sign to the end of its line or of the source. -/
inductive Gap (after : List Char) : List Char → Prop where
  | nil : Gap after []
  | separator {char : Char} {rest : List Char} (listed : char ∈ separators)
      (gap : Gap after rest) : Gap after (char :: rest)
  | comment {body rest : List Char} (inLine : ∀ char ∈ body, char ∉ lineEnds)
      (ends : ∀ next ∈ (rest ++ after).head?, next ∈ lineEnds) (gap : Gap after rest) :
      Gap after ('#' :: (body ++ rest))

theorem isIgnored_iff {char : Char} : isIgnored char = true ↔ char ∈ separators := by
  simp only [isIgnored, separators, Bool.or_eq_true, beq_iff_eq, List.mem_cons, List.not_mem_nil]
  grind

theorem endsLine_iff {char : Char} : endsLine char = true ↔ char ∈ lineEnds := by
  simp [endsLine, lineEnds]

theorem mem_separators_of_mem_lineEnds {char : Char} (ends : char ∈ lineEnds) :
    char ∈ separators := by
  simp only [lineEnds, List.mem_cons, List.not_mem_nil, or_false] at ends
  rcases ends with rfl | rfl
  · decide
  · decide

/-- The rest of a comment is its text up to the end of the line and the gap that starts there. -/
def CommentGap (after rest : List Char) : Prop :=
  ∃ body gap, rest = body ++ gap ∧ (∀ char ∈ body, char ∉ lineEnds) ∧
    (∀ next ∈ (gap ++ after).head?, next ∈ lineEnds) ∧ Gap after gap

/-- What is skipped is a gap, or the rest of a comment that was open. -/
theorem gap_of_splitIgnored {inComment : Bool} {text skipped left : List Char}
    (found : splitIgnored inComment text = (skipped, left)) :
    if inComment then CommentGap left skipped else Gap left skipped := by
  induction text generalizing inComment skipped with
  | nil =>
      cases found
      cases inComment with
      | false => exact .nil
      | true => exact ⟨[], [], rfl, nofun, nofun, .nil⟩
  | cons char text ih =>
      rw [splitIgnored] at found
      split at found
      · next ignored =>
          cases rest : splitIgnored (!endsLine char && (inComment || char == '#')) text with
          | mk later left =>
              rw [rest] at found
              obtain ⟨rfl, rfl⟩ := Prod.mk.inj found
              cases inComment with
              | false =>
                  by_cases opens : char = '#'
                  · subst opens
                    obtain ⟨body, gap, rfl, inLine, ends, isGap⟩ : CommentGap left later := ih rest
                    exact .comment inLine ends isGap
                  · rw [Bool.false_or, beq_eq_false_iff_ne.mpr opens, Bool.and_false] at rest
                    exact .separator (isIgnored_iff.mp (by simpa [opens] using ignored)) (ih rest)
              | true =>
                  by_cases ends : char ∈ lineEnds
                  · rw [endsLine_iff.mpr ends] at rest
                    refine ⟨[], char :: later, rfl, nofun, by simpa using ends, ?_⟩
                    exact .separator (mem_separators_of_mem_lineEnds ends) (ih rest)
                  · rw [Bool.eq_false_iff.mpr (mt endsLine_iff.mp ends)] at rest
                    obtain ⟨body, gap, rfl, inLine, stops, isGap⟩ : CommentGap left later := ih rest
                    refine ⟨char :: body, gap, rfl, ?_, stops, isGap⟩
                    exact List.forall_mem_cons.mpr ⟨ends, inLine⟩
      · next visible =>
          cases found
          cases inComment with
          | false => exact .nil
          | true => simp at visible

end Gaps

section Tiles

/-- From an offset on, a text is made of gaps and tokens in turn, each token standing where its span
says, and the token for the end follows the last gap. -/
inductive Tiles : Nat → List Char → List Token → Prop where
  | finish {offset : Nat} {gap : List Char} (isGap : Gap [] gap) :
      Tiles offset gap [⟨.endOfInput, "", .empty (offset + Utf8.length gap)⟩]
  | next {offset : Nat} {gap rest : List Char} {token : Token} {tokens : List Token}
      (isGap : Gap (token.text.toList ++ rest) gap) (notEnd : token.kind ≠ .endOfInput)
      (some : token.text.toList ≠ []) (start : token.span.start = offset + Utf8.length gap)
      (stop : token.span.stop = token.span.start + Utf8.length token.text.toList)
      (follow : Tiles token.span.stop rest tokens) :
      Tiles offset (gap ++ (token.text.toList ++ rest)) (token :: tokens)

theorem kind_scan_ne_endOfInput (first : Char) (rest : List Char) :
    (scan first rest).kind ≠ .endOfInput := by
  rcases scan_cases first rest with ⟨mark, kind, -⟩ | isName | listed
  · rw [kind]
    nofun
  · intro ended
    rw [ended] at isName
    cases isName
  · intro ended
    rw [ended] at listed
    revert listed
    decide

/-- The tokens that are scanned from a text tile it. -/
theorem tiles_tokensFrom (offset : Nat) (text : List Char) :
    Tiles offset text
      (tokensFrom offset text ++ [⟨.endOfInput, "", .empty (offset + Utf8.length text)⟩]) := by
  induction offset, text using tokensFrom.induct with
  | case1 offset text skipped ended =>
      have whole := splitIgnored_append false text
      rw [ended, List.append_nil] at whole
      rw [tokensFrom_of_ended offset ended, ← whole]
      exact .finish (gap_of_splitIgnored ended)
  | case2 offset text skipped first rest found scanned start stop ih =>
      have whole := splitIgnored_append false text
      rw [found, ← scan_chars_append_rest first rest] at whole
      have finish : offset + Utf8.length text = stop + Utf8.length scanned.rest := by
        simp only [← whole, Utf8.length_append, stop, start, scanned, Nat.add_assoc]
      have isGap : Gap (scanned.chars ++ scanned.rest) skipped := by
        rw [scan_chars_append_rest]
        exact gap_of_splitIgnored found
      rw [tokensFrom_eq_cons found, List.cons_append, finish, ← whole]
      have tile := @Tiles.next offset skipped scanned.rest
        ⟨scanned.kind, String.ofList scanned.chars, ⟨start, stop⟩⟩ _ (by simpa using isGap)
        (kind_scan_ne_endOfInput first rest) (by simpa using scan_chars_ne_nil first rest) rfl
        (by simp [stop]) ih
      simpa using tile

variable {source before text : List Char} {offset : Nat} {tokens : List Token}

theorem Tiles.exists_front (tiles : Tiles offset text tokens) :
    ∃ front, tokens = front ++ [⟨.endOfInput, "", .empty (offset + Utf8.length text)⟩] ∧
      ∀ token ∈ front, token.kind ≠ .endOfInput ∧ token.span.start < token.span.stop := by
  induction tiles with
  | finish isGap => exact ⟨[], rfl, nofun⟩
  | @next offset gap rest token tokens isGap notEnd some start stop follow ih =>
      obtain ⟨front, rfl, covering⟩ := ih
      have size := Utf8.length_pos some
      have finish : token.span.stop + Utf8.length rest =
          offset + Utf8.length (gap ++ (token.text.toList ++ rest)) := by
        rw [stop, start, Utf8.length_append, Utf8.length_append, Nat.add_assoc, Nat.add_assoc]
      refine ⟨token :: front, by rw [finish, List.cons_append], ?_⟩
      exact List.forall_mem_cons.mpr ⟨⟨notEnd, by omega⟩, covering⟩

theorem Tiles.offset_le (tiles : Tiles offset text tokens) :
    ∀ token ∈ tokens, offset ≤ token.span.start := by
  induction tiles with
  | finish isGap =>
      rw [List.forall_mem_singleton]
      exact Nat.le_add_right _ _
  | next isGap notEnd some start stop follow ih =>
      refine List.forall_mem_cons.mpr ⟨by omega, fun later later_mem => ?_⟩
      have := ih later later_mem
      omega

theorem Tiles.ordered (tiles : Tiles offset text tokens) :
    tokens.Pairwise fun first second => first.span.stop ≤ second.span.start := by
  induction tiles with
  | finish isGap => exact List.pairwise_singleton _ _
  | next isGap notEnd some start stop follow ih => exact .cons follow.offset_le ih

/-- Between two offsets of a source stands a gap. -/
def GapBetween (source : List Char) (start stop : Nat) : Prop :=
  ∃ before gap after, source = before ++ gap ++ after ∧ Utf8.length before = start ∧
    start + Utf8.length gap = stop ∧ Gap after gap

section Placed

variable (whole : source = before ++ text) (place : Utf8.length before = offset)

include whole place

theorem Tiles.covers (tiles : Tiles offset text tokens) :
    ∀ token ∈ tokens, token.span.Covers source token.text.toList := by
  induction tiles generalizing before with
  | finish isGap =>
      rw [List.forall_mem_singleton, ← place, ← Utf8.length_append, ← whole]
      exact Span.covers_empty (Utf8.boundary_length source)
  | @next offset gap rest token tokens isGap notEnd some start stop follow ih =>
      have cut : source = before ++ gap ++ token.text.toList ++ rest := by simp [whole]
      have front : Utf8.length (before ++ gap) = token.span.start := by
        rw [Utf8.length_append, place, start]
      refine List.forall_mem_cons.mpr ⟨⟨_, rest, cut, front, stop.symm⟩, ih cut ?_⟩
      rw [Utf8.length_append, front, stop]

theorem Tiles.gapBetween_head (tiles : Tiles offset text tokens) :
    ∀ first ∈ tokens.head?, GapBetween source offset first.span.start := by
  cases tiles with
  | finish isGap =>
      rintro first ⟨⟩
      exact ⟨before, text, [], by simp [whole], place, rfl, isGap⟩
  | @next _ gap rest token tokens isGap notEnd some start stop follow =>
      rintro first ⟨⟩
      exact ⟨before, gap, _, by simp [whole], place, start.symm, isGap⟩

theorem Tiles.gapBetween (tiles : Tiles offset text tokens) :
    tokens.IsChain fun first second => GapBetween source first.span.stop second.span.start := by
  induction tiles generalizing before with
  | finish isGap => exact List.isChain_singleton _
  | @next offset gap rest token tokens isGap notEnd some start stop follow ih =>
      have cut : source = before ++ gap ++ token.text.toList ++ rest := by simp [whole]
      have front : Utf8.length (before ++ gap ++ token.text.toList) = token.span.stop := by
        rw [Utf8.length_append, Utf8.length_append, place, stop, start]
      exact List.isChain_cons.mpr ⟨follow.gapBetween_head cut front, ih cut front⟩

end Placed

theorem Tiles.exists_gaps (tiles : Tiles offset text tokens) :
    ∃ gaps : List (List Char), gaps.length = tokens.length ∧
      text = (gaps.zip tokens).flatMap fun (gap, token) => gap ++ token.text.toList := by
  induction tiles with
  | @finish offset gap isGap => exact ⟨[gap], rfl, by simp⟩
  | @next offset gap rest token tokens isGap notEnd some start stop follow ih =>
      obtain ⟨gaps, same, rfl⟩ := ih
      exact ⟨gap :: gaps, by simp [same], by simp⟩

end Tiles

/-- What the tokens of a source have to do with it. -/
structure TokensOf (source : List Char) (tokens : List Token) : Prop where
  /-- The last token, and no other one, is for the end; every other one covers some text. -/
  finish : ∃ front, tokens = front ++ [⟨.endOfInput, "", .empty (Utf8.length source)⟩] ∧
    ∀ token ∈ front, token.kind ≠ .endOfInput ∧ token.span.start < token.span.stop
  boundaries : ∀ token ∈ tokens,
    Utf8.Boundary source token.span.start ∧ Utf8.Boundary source token.span.stop
  covers : ∀ token ∈ tokens, token.span.Covers source token.text.toList
  ordered : tokens.Pairwise fun first second => first.span.stop ≤ second.span.start
  before : ∀ first ∈ tokens.head?, GapBetween source 0 first.span.start
  between : tokens.IsChain fun first second =>
    GapBetween source first.span.stop second.span.start
  /-- The source is its tokens with text in front of each. -/
  whole : ∃ gaps : List (List Char), gaps.length = tokens.length ∧
    source = (gaps.zip tokens).flatMap fun (gap, token) => gap ++ token.text.toList

/-- The tokens of every source tile it: nothing but gaps stands in front of them and between them,
and they end with the token for the end of the source. -/
theorem tokensOf_tokenize (source : List Char) : TokensOf source (tokenize source) := by
  have tiles : Tiles 0 source (tokenize source) := by
    have scanned := tiles_tokensFrom 0 source
    rwa [Nat.zero_add] at scanned
  have whole : source = [] ++ source := rfl
  have covers := tiles.covers whole rfl
  exact {
    finish := by simpa using tiles.exists_front
    boundaries := fun token token_mem =>
      ⟨(covers token token_mem).start_boundary, (covers token token_mem).stop_boundary⟩
    covers := covers
    ordered := tiles.ordered
    before := tiles.gapBetween_head whole rfl
    between := tiles.gapBetween whole rfl
    whole := tiles.exists_gaps }

end Scan

end WiredGraph
