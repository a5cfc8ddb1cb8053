import WiredGraph.Proofs.Document.Parser.Persistence
import WiredGraph.Proofs.Source.Boundaries
import WiredGraph.Proofs.Token.Append

/-!
# Passing the tokens of a source

The tokens of a source stand in it one after the other, each where its span says. A cursor that
starts before the first of them and passes one after the other stands in the source as well: what
it has passed ends where the tokens ahead may start. Reading passes no invalid token, and where it
stops it points at the token in view.
-/

namespace WiredGraph

namespace Token

/-- From an offset on, tokens stand in a source one after the other. -/
inductive StandFrom (source : List Char) : Nat → List Token → Prop where
  | nil {offset : Nat} : StandFrom source offset []
  | cons {offset : Nat} {token : Token} {rest : List Token} (later : offset ≤ token.span.start)
      (covers : token.span.Covers source token.text.toList)
      (follow : StandFrom source token.span.stop rest) : StandFrom source offset (token :: rest)

end Token

theorem Scan.standFrom_tokensFrom {source text : List Char} (before : List Char) {offset : Nat}
    (whole : source = before ++ text) (place : Utf8.length before = offset) :
    Token.StandFrom source offset (tokensFrom offset text) := by
  induction offset, text using tokensFrom.induct generalizing before with
  | case1 offset text skipped ended =>
      rw [tokensFrom_of_ended offset ended]
      exact .nil
  | case2 offset text skipped first rest found scanned start stop ih =>
      have whole_text : text = skipped ++ (scanned.chars ++ scanned.rest) := by
        rw [scan_chars_append_rest, ← splitIgnored_append false text, found]
      have cut : source = before ++ skipped ++ scanned.chars ++ scanned.rest := by
        simp only [whole, whole_text, List.append_assoc]
      rw [tokensFrom_eq_cons found]
      refine .cons (Nat.le_add_right _ _) ?_ (ih _ cut ?_)
      · rw [String.toList_ofList]
        exact ⟨before ++ skipped, scanned.rest, cut, by rw [Utf8.length_append, place], rfl⟩
      · rw [Utf8.length_append, Utf8.length_append, place]

namespace Cursor

variable {source : List Char} {origin middle cursor last : Cursor} {tokens more : List Token}

/-- A cursor stands in a source between the last token passed and the tokens ahead. -/
structure StandsIn (source : List Char) (cursor : Cursor) : Prop where
  boundary : Utf8.Boundary source cursor.passed
  ahead : Token.StandFrom source cursor.passed cursor.ahead
  finish : cursor.finish = Utf8.length source

theorem standsIn_start (source : List Char) : (Document.startCursor source).StandsIn source where
  boundary := Utf8.boundary_zero source
  ahead := Scan.standFrom_tokensFrom [] (List.nil_append source).symm rfl
  finish := rfl

/-- The token in view, also the one for the end, is the text under its span. -/
theorem StandsIn.covers (standsIn : cursor.StandsIn source) :
    cursor.current.span.Covers source cursor.current.text.toList := by
  rcases cursor with ⟨passed, - | ⟨token, rest⟩, finish⟩
  · obtain rfl := standsIn.finish
    exact Span.covers_empty (Utf8.boundary_length source)
  · cases standsIn.ahead with
    | cons later covers follow => exact covers

theorem StandsIn.passed_le (standsIn : cursor.StandsIn source) :
    cursor.passed ≤ cursor.current.span.start := by
  rcases cursor with ⟨passed, - | ⟨token, rest⟩, finish⟩
  · obtain rfl := standsIn.finish
    exact standsIn.boundary.le_length
  · cases standsIn.ahead with
    | cons later covers follow => exact later

/-- The cursor behind the token in view, whatever comes into view there. -/
def after (cursor : Cursor) : Cursor :=
  ⟨cursor.current.span.stop, cursor.ahead.drop 1, cursor.finish⟩

theorem StandsIn.after (standsIn : cursor.StandsIn source) : cursor.after.StandsIn source where
  boundary := standsIn.covers.stop_boundary
  ahead := by
    rcases cursor with ⟨passed, - | ⟨token, rest⟩, finish⟩
    · exact .nil
    · cases standsIn.ahead with
      | cons later covers follow => exact follow
  finish := standsIn.finish

/-- From one cursor to another by passing tokens, each of them valid and in view. -/
inductive Passes (origin : Cursor) : List Token → Cursor → Prop where
  | stay : Passes origin [] origin
  | pass {tokens : List Token} {cursor : Cursor} (passes : Passes origin tokens cursor)
      (visible : cursor.ahead ≠ []) (valid : cursor.current.kind ≠ .invalid) :
      Passes origin (tokens ++ [cursor.current]) cursor.after

namespace Passes

theorem trans (first : Passes origin tokens middle) (second : Passes middle more last) :
    Passes origin (tokens ++ more) last := by
  induction second with
  | stay => rwa [List.append_nil]
  | pass passes visible valid ih =>
      rw [← List.append_assoc]
      exact .pass ih visible valid

theorem valid (passes : Passes origin tokens cursor) :
    ∀ token ∈ tokens, token.kind ≠ .invalid := by
  induction passes with
  | stay => exact nofun
  | pass passes visible valid ih =>
      exact List.forall_mem_append.mpr ⟨ih, List.forall_mem_singleton.mpr valid⟩

theorem standsIn (passes : Passes origin tokens cursor) (standsIn : origin.StandsIn source) :
    cursor.StandsIn source := by
  induction passes with
  | stay => exact standsIn
  | pass passes visible valid ih => exact ih.after

theorem passed_le (passes : Passes origin tokens cursor) (standsIn : origin.StandsIn source) :
    origin.passed ≤ cursor.passed := by
  induction passes with
  | stay => exact Nat.le_refl _
  | pass passes visible valid ih =>
      have here := passes.standsIn standsIn
      exact (ih.trans here.passed_le).trans here.covers.start_le_stop

theorem start_le (passes : Passes origin tokens cursor) (standsIn : origin.StandsIn source) :
    origin.current.span.start ≤ cursor.current.span.start := by
  induction passes with
  | stay => exact Nat.le_refl _
  | pass passes visible valid ih =>
      have here := passes.standsIn standsIn
      exact (ih.trans here.covers.start_le_stop).trans here.after.passed_le

end Passes

/-- A reading that started at a cursor stops with a fault at a token that it does not pass, or at a
block string without a value. -/
def HaltsFrom (origin : Cursor) (halt : Halt) : Prop :=
  (∃ tokens last code title message,
    origin.Passes tokens last ∧ halt = last.halt code title message) ∨
  ∃ span, halt = .misalignedBlock span

theorem HaltsFrom.of_passes {halt : Halt} (passes : origin.Passes tokens middle)
    (halts : middle.HaltsFrom halt) : origin.HaltsFrom halt := by
  rcases halts with ⟨more, last, code, title, message, further, same⟩ | misaligned
  · exact .inl ⟨_, last, code, title, message, passes.trans further, same⟩
  · exact .inr misaligned

/-- An invalid token is where reading stops. -/
theorem exists_halt_of_check {halt : Halt} (failed : cursor.check = .error halt) :
    ∃ code title message, halt = cursor.halt code title message := by
  rw [check] at failed
  split at failed
  · split at failed
    · exact ⟨_, _, _, (Except.error.inj failed).symm⟩
    · exact ⟨_, _, _, (Except.error.inj failed).symm⟩
  · cases failed

end Cursor

end WiredGraph
