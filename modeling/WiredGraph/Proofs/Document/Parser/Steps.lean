import WiredGraph.Document.Parser.Cursor
import WiredGraph.Proofs.Token.Lexeme

/-!
# Steps of reading

A reading that starts at a cursor either succeeds with a part of the document and a cursor, or it
stops. `Succeeds` says that it does succeed, with a result of a certain kind, and `Ensures` that
its result is of that kind if it does. Both are carried through a sequence of steps: what holds
after the first step is what may be assumed before the second.
-/

namespace WiredGraph

/-- A cursor stands before lexemes that may stand in a document. -/
structure Cursor.Before (cursor : Cursor) (lexemes : List Lexeme) : Prop where
  ahead : cursor.ahead.map Token.lexeme = lexemes
  valid : ∀ lexeme ∈ lexemes, lexeme.IsValid

namespace Cursor.Before

variable {cursor : Cursor} {lexeme : Lexeme} {rest : List Lexeme}

theorem current_eq (before : cursor.Before (lexeme :: rest)) : cursor.current.lexeme = lexeme := by
  rcases cursor with ⟨passed, ahead, finish⟩
  cases ahead with
  | nil => cases before.ahead
  | cons token ahead => exact (List.cons.inj before.ahead).1

theorem kind_eq (before : cursor.Before (lexeme :: rest)) : cursor.current.kind = lexeme.kind :=
  congrArg Lexeme.kind before.current_eq

theorem text_eq (before : cursor.Before (lexeme :: rest)) : cursor.current.text = lexeme.text :=
  congrArg Lexeme.text before.current_eq

theorem kind_of_nil (before : cursor.Before []) : cursor.current.kind = .endOfInput := by
  rw [Cursor.current, List.map_eq_nil_iff.mp before.ahead]
  rfl

/-- No word is in view if the first lexeme is none. -/
theorem not_isName {lexemes : List Lexeme} (before : cursor.Before lexemes)
    (noWord : ∀ first ∈ lexemes.head?, first.kind.isName = false) :
    cursor.current.kind.isName = false := by
  cases lexemes with
  | nil =>
      rw [before.kind_of_nil]
      rfl
  | cons first rest =>
      rw [before.kind_eq]
      exact noWord first rfl

theorem not_invalid {lexemes : List Lexeme} (before : cursor.Before lexemes) :
    cursor.current.kind ≠ .invalid := by
  cases lexemes with
  | nil =>
      rw [before.kind_of_nil]
      decide
  | cons lexeme rest =>
      rw [before.kind_eq]
      exact (before.valid lexeme (by simp)).1

theorem check_eq {lexemes : List Lexeme} (before : cursor.Before lexemes) :
    cursor.check = .ok cursor := by
  rw [Cursor.check, if_neg before.not_invalid]

/-- The token in view can be passed if there is one. -/
theorem next_eq (before : cursor.Before (lexeme :: rest)) :
    ∃ next, cursor.next = .ok next ∧ next.Before rest := by
  have ahead : (cursor.ahead.drop 1).map Token.lexeme = rest := by
    rw [List.map_drop, before.ahead]
    rfl
  have after : Cursor.Before ⟨cursor.current.span.stop, cursor.ahead.drop 1, cursor.finish⟩ rest :=
    ⟨ahead, fun other other_mem => before.valid other (List.mem_cons_of_mem _ other_mem)⟩
  exact ⟨_, after.check_eq, after⟩

end Cursor.Before

namespace Reading

variable {Part Whole : Type} {cursor : Cursor}

/-- A reading succeeds with a result that a condition holds of. -/
def Succeeds (read : Reading Part) (cursor : Cursor) (post : Part → Cursor → Prop) : Prop :=
  ∃ part next, read cursor = .ok (part, next) ∧ post part next

section Succeeds

theorem succeeds_pure {part : Part} {post : Part → Cursor → Prop} (holds : post part cursor) :
    Succeeds (pure part) cursor post :=
  ⟨part, cursor, rfl, holds⟩

theorem succeeds_bind {first : Reading Part} {second : Part → Reading Whole}
    {between : Part → Cursor → Prop} {post : Whole → Cursor → Prop}
    (firstSucceeds : Succeeds first cursor between)
    (secondSucceeds : ∀ part next, between part next → Succeeds (second part) next post) :
    Succeeds (first >>= second) cursor post := by
  rcases firstSucceeds with ⟨part, next, firstRead, holds⟩
  rcases secondSucceeds part next holds with ⟨whole, last, secondRead, ends⟩
  refine ⟨whole, last, ?_, ends⟩
  change (first cursor >>= fun result => second result.1 result.2) = _
  rw [firstRead]
  exact secondRead

theorem Succeeds.imp {read : Reading Part} {weak strong : Part → Cursor → Prop}
    (succeeds : Succeeds read cursor strong)
    (implies : ∀ part next, strong part next → weak part next) : Succeeds read cursor weak := by
  rcases succeeds with ⟨part, next, found, holds⟩
  exact ⟨part, next, found, implies part next holds⟩

theorem succeeds_map {read : Reading Part} {change : Part → Whole}
    {post : Whole → Cursor → Prop}
    (succeeds : Succeeds read cursor fun part next => post (change part) next) :
    Succeeds (change <$> read) cursor post := by
  rcases succeeds with ⟨part, next, found, holds⟩
  refine ⟨change part, next, ?_, holds⟩
  change (read cursor >>= fun result => pure (change result.1, result.2)) = _
  rw [found]
  rfl

variable {post : Part → Cursor → Prop}

theorem succeeds_current {next : Token → Reading Part} :
    Succeeds (current >>= next) cursor post ↔ Succeeds (next cursor.current) cursor post := Iff.rfl

theorem succeeds_kind {next : TokenKind → Reading Part} :
    Succeeds (kind >>= next) cursor post ↔ Succeeds (next cursor.current.kind) cursor post :=
  Iff.rfl

theorem succeeds_startOffset {next : Nat → Reading Part} :
    Succeeds (startOffset >>= next) cursor post ↔
      Succeeds (next cursor.current.span.start) cursor post := Iff.rfl

theorem succeeds_spanFrom {start : Nat} {next : Span → Reading Part} :
    Succeeds (spanFrom start >>= next) cursor post ↔
      Succeeds (next ⟨start, max cursor.passed start⟩) cursor post := Iff.rfl

theorem succeeds_bounded {read : Nat → Reading Part} :
    Succeeds (bounded read) cursor post ↔ Succeeds (read cursor.ahead.length) cursor post :=
  Iff.rfl

variable {lexeme : Lexeme} {rest : List Lexeme}

theorem succeeds_advance (before : cursor.Before (lexeme :: rest)) :
    Succeeds advance cursor fun _ next => next.Before rest := by
  rcases before.next_eq with ⟨next, passed, after⟩
  refine ⟨(), next, ?_, after⟩
  rw [advance, passed]
  rfl

theorem succeeds_eat (before : cursor.Before (lexeme :: rest)) {wanted : TokenKind}
    (isWanted : lexeme.kind = wanted) :
    Succeeds (eat wanted) cursor fun eaten next => eaten = true ∧ next.Before rest := by
  rw [eat, succeeds_kind, if_pos (before.kind_eq.trans isWanted)]
  apply succeeds_bind (succeeds_advance before)
  intro _ next after
  exact succeeds_pure ⟨rfl, after⟩

theorem succeeds_eat_other {wanted : TokenKind} (other : cursor.current.kind ≠ wanted) :
    Succeeds (eat wanted) cursor fun eaten next => eaten = false ∧ next = cursor := by
  rw [eat, succeeds_kind, if_neg other]
  exact succeeds_pure ⟨rfl, rfl⟩

theorem succeeds_expect (before : cursor.Before (lexeme :: rest)) {wanted : TokenKind}
    (isWanted : lexeme.kind = wanted) :
    Succeeds (expect wanted) cursor fun _ next => next.Before rest := by
  rw [expect, succeeds_kind, if_pos (before.kind_eq.trans isWanted)]
  exact succeeds_advance before

theorem succeeds_name {text : String} (before : cursor.Before (.word text :: rest)) :
    Succeeds name cursor fun name next => name.text = text ∧ next.Before rest := by
  have isName : cursor.current.kind.isName = true := by
    rw [before.kind_eq]
    exact Lexeme.word_isName text
  rw [name, succeeds_current, if_pos isName]
  apply succeeds_bind (succeeds_advance before)
  intro _ next after
  exact succeeds_pure ⟨before.text_eq, after⟩

end Succeeds

end Reading

end WiredGraph
