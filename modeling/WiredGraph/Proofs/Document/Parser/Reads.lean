import WiredGraph.Proofs.Document.Grammar
import WiredGraph.Proofs.Document.Parser.Steps

/-!
# Readings that take in lexemes

A reading takes in certain lexemes if it passes exactly these, whatever follows, as long as what
follows does not go on with them. What may go on are punctuators that can stand at the end of what
is read, such as the exclamation mark after a type. Lists of items are read by taking in one item
after the other, each derived from lexemes of its own.
-/

namespace WiredGraph

namespace Lexeme

/-- Lexemes that do not start with any of some punctuators. -/
def Avoids (marks : List Punctuator) (lexemes : List Lexeme) : Prop :=
  ∀ first ∈ lexemes.head?, ∀ mark ∈ marks, first.kind ≠ .punctuator mark

@[simp]
theorem avoids_none (lexemes : List Lexeme) : Avoids [] lexemes := by simp [Avoids]

theorem avoids_cons {marks : List Punctuator} {first : Lexeme} {rest : List Lexeme}
    (other : ∀ mark ∈ marks, first.kind ≠ .punctuator mark) : Avoids marks (first :: rest) := by
  simpa [Avoids] using other

theorem avoids_word {marks : List Punctuator} (text : String) (rest : List Lexeme) :
    Avoids marks (.word text :: rest) := by
  apply avoids_cons
  intro mark _ same
  have isName := word_isName text
  rw [same] at isName
  cases isName

theorem Avoids.append {marks : List Punctuator} {lexemes rest : List Lexeme}
    (here : Avoids marks lexemes) (later : Avoids marks rest) : Avoids marks (lexemes ++ rest) := by
  cases lexemes with
  | nil => exact later
  | cons first others => exact fun first first_mem => here first first_mem

theorem avoids_mark {marks : List Punctuator} {mark : Punctuator} (rest : List Lexeme)
    (other : mark ∉ marks) : Avoids marks (.mark mark :: rest) := by
  apply avoids_cons
  rintro _ mark_mem same
  exact other (TokenKind.punctuator.inj same ▸ mark_mem)

theorem Avoids.mono {marks others : List Punctuator} {lexemes : List Lexeme}
    (avoids : Avoids marks lexemes) (fewer : others ⊆ marks) : Avoids others lexemes :=
  fun first first_mem mark mark_mem => avoids first first_mem mark (fewer mark_mem)

/-- Lexemes that do not start with a word. -/
def NoWord (lexemes : List Lexeme) : Prop :=
  ∀ first ∈ lexemes.head?, first.kind.isName = false

theorem NoWord.append {lexemes rest : List Lexeme} (here : NoWord lexemes)
    (later : NoWord rest) : NoWord (lexemes ++ rest) := by
  cases lexemes with
  | nil => exact later
  | cons first others => exact fun first first_mem => here first first_mem

/-- Lexemes that start with a certain punctuator if there are any. -/
def StartWith (mark : Punctuator) (lexemes : List Lexeme) : Prop :=
  ∀ first ∈ lexemes.head?, first = .mark mark

@[simp]
theorem startWith_nil (mark : Punctuator) : StartWith mark [] := by simp [StartWith]

@[simp]
theorem startWith_mark (mark : Punctuator) (rest : List Lexeme) :
    StartWith mark (.mark mark :: rest) := by
  simp [StartWith]

theorem StartWith.avoids {mark : Punctuator} {lexemes : List Lexeme}
    (starts : StartWith mark lexemes) {marks : List Punctuator} (other : mark ∉ marks) :
    Avoids marks lexemes := by
  rintro first first_mem _ mark_mem same
  rw [starts first first_mem] at same
  exact other (TokenKind.punctuator.inj same ▸ mark_mem)

theorem StartWith.noWord {mark : Punctuator} {lexemes : List Lexeme}
    (starts : StartWith mark lexemes) : NoWord lexemes := by
  intro first first_mem
  rw [starts first first_mem]
  rfl

end Lexeme

open Grammar
open Lexeme (Avoids)

theorem Cursor.Before.avoids {cursor : Cursor} {lexemes : List Lexeme}
    (before : cursor.Before lexemes) {marks : List Punctuator} (avoids : Avoids marks lexemes)
    {mark : Punctuator} (mark_mem : mark ∈ marks) : cursor.current.kind ≠ .punctuator mark := by
  cases lexemes with
  | nil =>
      rw [before.kind_of_nil]
      exact nofun
  | cons lexeme rest =>
      rw [before.kind_eq]
      exact avoids lexeme rfl mark mark_mem

namespace Reading

variable {Part : Type}

/-- A reading takes in some lexemes before everything that does not start with certain
punctuators, and yields a part that a condition holds of. -/
def Reads (read : Reading Part) (lexemes : List Lexeme) (stop : List Punctuator)
    (Good : Part → Prop) : Prop :=
  ∀ cursor rest, Cursor.Before cursor (lexemes ++ rest) → Avoids stop rest →
    Succeeds read cursor fun part next => Good part ∧ next.Before rest

section Bounds

variable {item : Part → List Lexeme → Prop} {content : Part → Part} {stop : List Punctuator}

/-- A reading takes in everything of a kind that derives from at most so many lexemes. -/
def ReadsWithin (limit : Nat) (read : Reading Part) (item : Part → List Lexeme → Prop)
    (content : Part → Part) (stop : List Punctuator) : Prop :=
  ∀ part lexemes, item part lexemes → lexemes.length ≤ limit →
    Reads read lexemes stop fun found => content found = part

/-- Nothing derives from no lexemes if everything has some. -/
theorem readsWithin_zero {read : Reading Part}
    (nonempty : ∀ part lexemes, item part lexemes → lexemes ≠ []) :
    ReadsWithin 0 read item content stop := by
  intro part lexemes derived short
  exact absurd (List.length_eq_zero_iff.mp (Nat.le_zero.mp short)) (nonempty part lexemes derived)

/-- What is read under every bound that is large enough is read under the number of tokens. -/
theorem reads_bounded {read : Nat → Reading Part}
    (reads : ∀ bound, ReadsWithin bound (read bound) item content stop) {part : Part}
    {lexemes : List Lexeme} (derived : item part lexemes) :
    Reads (bounded read) lexemes stop fun found => content found = part := by
  intro cursor rest before avoids
  have enough : lexemes.length ≤ cursor.ahead.length := by
    have whole := congrArg List.length before.ahead
    rw [List.length_map, List.length_append] at whole
    omega
  exact succeeds_bounded.mpr (reads _ part lexemes derived enough cursor rest before avoids)

end Bounds

section Items

variable {read : Reading Part} {item : Part → List Lexeme → Prop} {content : Part → Part}
  {limit : Nat} {stop : List Punctuator} {close : Punctuator} {parts : List Part}
  {inside rest : List Lexeme} {cursor : Cursor}

/-- Items of a kind can be read one after the other up to a closing punctuator, as long as they
have at most so many lexemes. -/
structure Listed (read : Reading Part) (item : Part → List Lexeme → Prop) (content : Part → Part)
    (limit : Nat) (stop : List Punctuator) (close : Punctuator) : Prop where
  reads : ReadsWithin limit read item content stop
  nonempty : ∀ part lexemes, item part lexemes → lexemes ≠ []
  opens : ∀ part lexemes, item part lexemes → Avoids (close :: stop) lexemes
  closes : close ∉ stop

/-- Neither the next item nor the closing punctuator goes on with an item. -/
theorem Listed.avoids_rest (listed : Listed read item content limit stop close)
    (many : Many item parts inside) (rest : List Lexeme) :
    Avoids stop (inside ++ .mark close :: rest) := by
  cases many with
  | nil => exact Lexeme.avoids_mark _ listed.closes
  | @cons part _ lexemes _ derived _ =>
      have opens := listed.opens part lexemes derived
      have nonempty := listed.nonempty part lexemes derived
      rcases lexemes with - | ⟨first, later⟩
      · exact absurd rfl nonempty
      · apply Lexeme.avoids_cons
        intro mark mark_mem
        exact opens first rfl mark (List.mem_cons_of_mem _ mark_mem)

theorem succeeds_itemsUpTo (listed : Listed read item content limit stop close)
    (many : Many item parts inside) (short : inside.length ≤ limit) {bound : Nat}
    (enough : parts.length ≤ bound) (before : cursor.Before (inside ++ .mark close :: rest)) :
    Succeeds (itemsUpTo close read bound) cursor fun found next =>
      found.map content = parts ∧ next.Before (.mark close :: rest) := by
  induction many generalizing cursor bound with
  | nil =>
      have closed : cursor.current.kind = .punctuator close := before.kind_eq
      cases bound with
      | zero => exact succeeds_pure ⟨rfl, before⟩
      | succ bound =>
          rw [itemsUpTo, succeeds_kind, if_pos (.inl closed)]
          exact succeeds_pure ⟨rfl, before⟩
  | @cons part others lexemes later derived many ih =>
      rw [List.length_append] at short
      cases bound with
      | zero => simp at enough
      | succ bound =>
          have goesOn : ¬ (cursor.current.kind = .punctuator close ∨
              cursor.current.kind = .endOfInput) := by
            have opens := listed.opens part lexemes derived
            rcases written : lexemes with - | ⟨first, more⟩
            · exact absurd written (listed.nonempty part lexemes derived)
            rw [written] at opens before
            rw [before.kind_eq, not_or]
            exact ⟨opens first rfl close (by simp), (before.valid first (by simp)).2⟩
          rw [itemsUpTo, succeeds_kind, if_neg goesOn]
          rw [List.append_assoc] at before
          apply succeeds_bind (listed.reads part lexemes derived (by omega) cursor _ before
            (listed.avoids_rest many rest))
          rintro found next ⟨same, after⟩
          apply succeeds_bind (ih (by omega) (by simpa using enough) after)
          rintro founds last ⟨sames, ends⟩
          exact succeeds_pure ⟨by rw [List.map_cons, same, sames], ends⟩

/-- Items can be read up to their closing punctuator, which is passed. -/
theorem succeeds_itemsUntil (listed : Listed read item content limit stop close)
    (many : Many item parts inside) (short : inside.length ≤ limit)
    (before : cursor.Before (inside ++ .mark close :: rest)) :
    Succeeds (itemsUntil close read) cursor fun found next =>
      found.map content = parts ∧ next.Before rest := by
  have enough : parts.length ≤ cursor.ahead.length := by
    have whole := congrArg List.length before.ahead
    have each := many.length_le listed.nonempty
    rw [List.length_map, List.length_append] at whole
    omega
  apply succeeds_bind (succeeds_bounded.mpr (succeeds_itemsUpTo listed many short enough before))
  rintro found next ⟨same, after⟩
  apply succeeds_bind (succeeds_expect after rfl)
  intro _ last ends
  exact succeeds_pure ⟨same, ends⟩

/-- Items can be read up to their closing punctuator and put together. -/
theorem succeeds_spannedItems {Whole : Type} {whole : List Part → Span → Whole}
    {Good : Whole → Prop} (listed : Listed read item content limit stop close)
    (many : Many item parts inside) (short : inside.length ≤ limit)
    (before : cursor.Before (inside ++ .mark close :: rest)) {start : Nat}
    (good : ∀ found span, found.map content = parts → Good (whole found span)) :
    Succeeds (spannedItems close read whole start) cursor fun found next =>
      Good found ∧ next.Before rest := by
  apply succeeds_bind (succeeds_itemsUntil listed many short before)
  rintro found last ⟨same, ends⟩
  rw [succeeds_spanFrom]
  exact succeeds_pure ⟨good found _ same, ends⟩

/-- Items between parentheses can be read, and so can their absence. -/
theorem reads_parenthesized (listed : ∀ limit, Listed read item content limit stop .parenClose)
    {lexemes : List Lexeme} (derived : Parenthesized item parts lexemes) :
    Reads (enclosedItems .parenOpen .parenClose read) lexemes [.parenOpen]
      fun found => found.map content = parts := by
  intro cursor rest before avoids
  cases derived with
  | absent =>
      apply succeeds_bind (succeeds_eat_other (before.avoids avoids (by simp)))
      rintro _ _ ⟨rfl, rfl⟩
      exact succeeds_pure ⟨rfl, before⟩
  | @present _ inside many =>
      rw [Lexeme.enclosed_append] at before
      apply succeeds_bind (succeeds_eat before rfl)
      rintro _ next ⟨rfl, after⟩
      exact succeeds_itemsUntil (listed inside.length) many (Nat.le_refl _) after

end Items

end Reading

end WiredGraph
