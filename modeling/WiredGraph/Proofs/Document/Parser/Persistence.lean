import WiredGraph.Proofs.Document.Parser.Parts
import WiredGraph.Proofs.Success

/-!
# Readings of a source that goes on

A reading looks no further than at the token in view. What it yields is therefore the same when
more tokens follow those ahead, as long as it does not come to their end. This has to be said for
two bounds at once, since the bound of a nested reading is the number of tokens ahead; and it needs
to be known which readings pass a token, for a list of items ends when no token is left to pass.
Every lemma here says both of one reading, and where the block string is that makes it fail without
a fault in the document.
-/

namespace WiredGraph

/-- A block string that has no value. -/
def Token.IsMisaligned (token : Token) : Prop :=
  token.kind = .blockString ∧ BlockString.decodeToken? token.text.toList = none

namespace Cursor

/-- The cursor in a source that goes on with more tokens. -/
def extend (cursor : Cursor) (more : List Token) (finish : Nat) : Cursor :=
  ⟨cursor.passed, cursor.ahead ++ more, finish⟩

theorem current_extend {cursor : Cursor} (more : List Token) (finish : Nat)
    (visible : cursor.ahead ≠ []) : (cursor.extend more finish).current = cursor.current := by
  rcases cursor with ⟨passed, - | ⟨token, ahead⟩, _⟩
  · exact absurd rfl visible
  · rfl

theorem eq_of_check {cursor checked : Cursor} (valid : cursor.check = .ok checked) :
    checked = cursor ∧ cursor.current.kind ≠ .invalid := by
  rw [check] at valid
  split at valid
  · split at valid <;> cases valid
  · next notInvalid => exact ⟨(Except.ok.inj valid).symm, notInvalid⟩

theorem check_eq_self {cursor : Cursor} (valid : cursor.current.kind ≠ .invalid) :
    cursor.check = .ok cursor := by
  rw [check, if_neg valid]

theorem check_ne_misaligned (cursor : Cursor) (span : Span) :
    cursor.check ≠ .error (.misalignedBlock span) := by
  rw [check]
  split
  · split <;> simp [halt]
  · nofun

theorem ahead_ne_nil_of_current {cursor : Cursor} (visible : cursor.current.kind ≠ .endOfInput) :
    cursor.ahead ≠ [] := by
  intro ended
  exact visible (by rw [current, ended]; rfl)

theorem current_mem_ahead {cursor : Cursor} (visible : cursor.current.kind ≠ .endOfInput) :
    cursor.current ∈ cursor.ahead := by
  rcases cursor with ⟨passed, - | ⟨token, ahead⟩, _⟩
  · exact absurd rfl visible
  · exact List.mem_cons_self

/-- What passing a token leads to. -/
theorem next_eq_ok {cursor next : Cursor} (passes : cursor.next = .ok next) :
    next = ⟨cursor.current.span.stop, cursor.ahead.drop 1, cursor.finish⟩ ∧
      next.current.kind ≠ .invalid := by
  rcases eq_of_check passes with ⟨rfl, valid⟩
  exact ⟨rfl, valid⟩

end Cursor

namespace Reading

variable {Part Whole : Type} {cursor : Cursor} {bound : Nat} {strict laterStrict : Bool}

/-- From a cursor, a reading passes tokens without putting any back, at least one if it is strict,
and another reading does the same where more tokens follow, unless the end was reached. -/
structure PersistsFrom (strict : Bool) (cursor : Cursor) (read other : Reading Part) : Prop where
  passes : ∀ part next, read cursor = .ok (part, next) → next.ahead <:+ cursor.ahead
  proceeds : strict = true →
    ∀ part next, read cursor = .ok (part, next) → next.ahead.length < cursor.ahead.length
  carries : ∀ part next, read cursor = .ok (part, next) → next.ahead ≠ [] →
    ∀ more finish, other (cursor.extend more finish) = .ok (part, next.extend more finish)
  misaligned : ∀ span, read cursor = .error (.misalignedBlock span) →
    ∃ token ∈ cursor.ahead, token.IsMisaligned ∧ token.span = span

/-- A reading persists from every cursor with at most so many tokens ahead. -/
def Persists (bound : Nat) (strict : Bool) (read other : Reading Part) : Prop :=
  ∀ cursor, cursor.ahead.length ≤ bound → PersistsFrom strict cursor read other

section Rules

variable {read other : Reading Part} {next otherNext : Part → Reading Whole}

theorem bind_apply (read : Reading Part) (next : Part → Reading Whole) (cursor : Cursor) :
    (read >>= next) cursor = read cursor >>= fun result => next result.1 result.2 := rfl

/-- Tokens that are left after two readings were left between them as well. -/
theorem PersistsFrom.sequence (first : PersistsFrom strict cursor read other)
    (second : ∀ part between, read cursor = .ok (part, between) →
      PersistsFrom laterStrict between (next part) (otherNext part)) :
    PersistsFrom (strict || laterStrict) cursor (read >>= next) (other >>= otherNext) where
  passes := by
    intro whole last found
    rcases bind_eq_ok found with ⟨part, between, here, there⟩
    exact ((second part between here).passes whole last there).trans
      (first.passes part between here)
  proceeds := by
    intro either whole last found
    rcases bind_eq_ok found with ⟨part, between, here, there⟩
    have before := (first.passes part between here).length_le
    have after := ((second part between here).passes whole last there).length_le
    rcases Bool.or_eq_true_iff.mp either with isStrict | isStrict
    · exact Nat.lt_of_le_of_lt after (first.proceeds isStrict part between here)
    · have proceeds := (second part between here).proceeds isStrict whole last there
      exact Nat.lt_of_lt_of_le proceeds before
  carries := by
    intro whole last found visible more finish
    rcases bind_eq_ok found with ⟨part, between, here, there⟩
    have later := second part between here
    have between_visible : between.ahead ≠ [] := by
      intro ended
      have suffix := later.passes whole last there
      rw [ended, List.suffix_nil] at suffix
      exact visible suffix
    rw [bind_apply, first.carries part between here between_visible more finish]
    exact later.carries whole last there visible more finish
  misaligned := by
    intro span failed
    rw [bind_apply, Success.bind_eq_error] at failed
    rcases failed with here | ⟨⟨part, between⟩, here, there⟩
    · exact first.misaligned span here
    · rcases (second part between here).misaligned span there with ⟨token, token_mem, misaligned⟩
      exact ⟨token, (first.passes part between here).mem token_mem, misaligned⟩

/-- What passes a token may pass one. -/
theorem PersistsFrom.weaken (persists : PersistsFrom true cursor read other) :
    PersistsFrom strict cursor read other :=
  { persists with proceeds := fun _ => persists.proceeds rfl }

theorem Persists.weaken (persists : Persists bound true read other) :
    Persists bound strict read other :=
  fun cursor fits => (persists cursor fits).weaken

theorem Persists.mono (persists : Persists bound strict read other) {less : Nat}
    (le : less ≤ bound) : Persists less strict read other :=
  fun cursor fits => persists cursor (Nat.le_trans fits le)

theorem PersistsFrom.bind (first : PersistsFrom strict cursor read other)
    (second : ∀ part between, read cursor = .ok (part, between) →
      PersistsFrom laterStrict between (next part) (otherNext part)) :
    PersistsFrom laterStrict cursor (read >>= next) (other >>= otherNext) := by
  have whole := first.sequence second
  exact { whole with proceeds := fun isStrict => whole.proceeds (by simp [isStrict]) }

/-- A reading goes on after another one within the same bound. -/
theorem Persists.bind (first : Persists bound strict read other)
    (second : ∀ part, Persists bound laterStrict (next part) (otherNext part)) :
    Persists bound laterStrict (read >>= next) (other >>= otherNext) := by
  intro cursor fits
  apply (first cursor fits).bind
  intro part between here
  exact second part between
    (Nat.le_trans ((first cursor fits).passes part between here).length_le fits)

/-- A reading goes on after a strict one within a smaller bound. -/
theorem PersistsFrom.proceed (fits : cursor.ahead.length ≤ bound)
    (first : PersistsFrom true cursor read other)
    (second : ∀ part, Persists (bound - 1) laterStrict (next part) (otherNext part)) :
    PersistsFrom true cursor (read >>= next) (other >>= otherNext) := by
  refine first.sequence fun part between here => second part between ?_
  have fewer := first.proceeds rfl part between here
  omega

theorem Persists.proceed (first : Persists bound true read other)
    (second : ∀ part, Persists (bound - 1) laterStrict (next part) (otherNext part)) :
    Persists bound true (read >>= next) (other >>= otherNext) :=
  fun cursor fits => (first cursor fits).proceed fits second

/-- A reading goes on after a strict one. -/
theorem Persists.then (first : Persists bound true read other)
    (second : ∀ part, Persists bound laterStrict (next part) (otherNext part)) :
    Persists bound true (read >>= next) (other >>= otherNext) := by
  intro cursor fits
  refine (first cursor fits).sequence fun part between here => second part between ?_
  exact Nat.le_trans ((first cursor fits).passes part between here).length_le fits

theorem persistsFrom_pure (part : Part) (cursor : Cursor) :
    PersistsFrom false cursor (pure part) (pure part) where
  passes := by
    rintro _ _ ⟨⟩
    exact List.suffix_rfl
  proceeds := nofun
  carries := by
    rintro _ _ ⟨⟩ _ more finish
    rfl
  misaligned := nofun

theorem persists_pure (part : Part) : Persists bound false (pure part) (pure part) :=
  fun cursor _ => persistsFrom_pure part cursor

theorem Persists.map {change : Part → Whole} (persists : Persists bound strict read other) :
    Persists bound strict (change <$> read) (change <$> other) := by
  intro cursor fits
  rw [map_eq_pure_bind, map_eq_pure_bind]
  have whole := (persists cursor fits).sequence fun part between _ =>
    persistsFrom_pure (change part) between
  rwa [Bool.or_false] at whole

theorem persists_ite {condition : Prop} [Decidable condition]
    {first otherFirst second otherSecond : Reading Whole}
    (whenTrue : condition → Persists bound strict first otherFirst)
    (whenFalse : ¬ condition → Persists bound strict second otherSecond) :
    Persists bound strict (if condition then first else second)
      (if condition then otherFirst else otherSecond) := by
  split
  · exact whenTrue ‹_›
  · exact whenFalse ‹_›

theorem persists_malformed (message : String) :
    Persists bound strict (malformed message) other :=
  fun _ _ => ⟨nofun, fun _ => nofun, nofun, nofun⟩

theorem persists_expected (wanted : String) :
    Persists bound strict (expected wanted) other :=
  fun _ _ => ⟨nofun, fun _ => nofun, nofun, nofun⟩

/-- Where no token is ahead, there is nothing that could persist. -/
theorem persists_pure_zero (part : Part) (other : Reading Part) :
    Persists 0 false (pure part) other := by
  intro cursor fits
  refine ⟨?_, nofun, ?_, nofun⟩
  · rintro _ _ ⟨⟩
    exact List.suffix_rfl
  · rintro _ _ ⟨⟩ visible
    exact absurd (List.length_eq_zero_iff.mp (Nat.le_zero.mp fits)) visible

end Rules

section Tokens

/-- What is seen of a token is the same if there is one. -/
theorem persistsFrom_see {Seen : Type} {see : Cursor → Seen}
    (same : ∀ cursor more finish, cursor.ahead ≠ [] → see (cursor.extend more finish) = see cursor)
    (cursor : Cursor) :
    PersistsFrom false cursor (fun cursor => .ok (see cursor, cursor))
      (fun cursor => .ok (see cursor, cursor)) where
  passes := by
    rintro _ _ ⟨⟩
    exact List.suffix_rfl
  proceeds := nofun
  carries := by
    rintro _ _ ⟨⟩ visible more finish
    simp only [same cursor more finish visible]
  misaligned := nofun

theorem persistsFrom_current (cursor : Cursor) : PersistsFrom false cursor current current :=
  persistsFrom_see (fun _ more finish visible => Cursor.current_extend more finish visible) cursor

theorem persists_kind : Persists bound false kind kind := fun cursor _ =>
  persistsFrom_see (fun _ more finish visible =>
    congrArg Token.kind (Cursor.current_extend more finish visible)) cursor

theorem persists_startOffset : Persists bound false startOffset startOffset := fun cursor _ =>
  persistsFrom_see (fun _ more finish visible =>
    congrArg (·.span.start) (Cursor.current_extend more finish visible)) cursor

theorem persists_spanFrom (start : Nat) : Persists bound false (spanFrom start) (spanFrom start) :=
  fun cursor _ => persistsFrom_see (fun _ _ _ _ => rfl) cursor

theorem advance_eq_ok {next : Cursor} :
    advance cursor = .ok ((), next) ↔ cursor.next = .ok next := by
  change (cursor.next >>= fun after => pure ((), after)) = _ ↔ _
  cases cursor.next <;> simp [bind, Except.bind, pure, Except.pure]

/-- A token that is there is passed in the same way whatever stands after those ahead. -/
theorem next_extend (visible : cursor.ahead ≠ []) (more : List Token) (finish : Nat) :
    (cursor.extend more finish).next =
      (Cursor.extend ⟨cursor.current.span.stop, cursor.ahead.drop 1, cursor.finish⟩ more
        finish).check := by
  rw [Cursor.next, Cursor.current_extend more finish visible]
  simp [Cursor.extend, List.drop_append_of_le_length (List.length_pos_iff.mpr visible)]

theorem persistsFrom_advance (cursor : Cursor) : PersistsFrom false cursor advance advance where
  passes := by
    rintro _ next found
    rw [(Cursor.next_eq_ok (advance_eq_ok.mp found)).1]
    exact List.drop_suffix 1 cursor.ahead
  proceeds := nofun
  carries := by
    rintro _ next found visible more finish
    rcases Cursor.next_eq_ok (advance_eq_ok.mp found) with ⟨rfl, valid⟩
    have here : cursor.ahead ≠ [] := fun ended => visible (by simp [ended])
    rw [advance_eq_ok, next_extend here]
    apply Cursor.check_eq_self
    rwa [Cursor.current_extend more finish visible]
  misaligned := by
    intro span failed
    change (cursor.next >>= fun after => pure ((), after)) = _ at failed
    rw [Success.bind_pure_eq_error] at failed
    exact absurd failed (Cursor.check_ne_misaligned _ span)

/-- A token that is there is passed. -/
theorem persistsFrom_advance_of_visible (visible : cursor.current.kind ≠ .endOfInput) :
    PersistsFrom true cursor advance advance :=
  { persistsFrom_advance cursor with
    proceeds := by
      rintro - _ next found
      have here := List.length_pos_iff.mpr (Cursor.ahead_ne_nil_of_current visible)
      rw [(Cursor.next_eq_ok (advance_eq_ok.mp found)).1, List.length_drop]
      omega }

/-- A kind in view can be told from the end of the document. -/
theorem persists_expect {wanted : TokenKind} (isToken : wanted ≠ .endOfInput) :
    Persists bound true (expect wanted) (expect wanted) := by
  intro cursor fits
  refine (persists_kind cursor fits).bind ?_
  rintro _ _ ⟨⟩
  split
  · next same => exact persistsFrom_advance_of_visible (same ▸ isToken)
  · exact persists_expected _ cursor fits

theorem persists_eat (wanted : TokenKind) : Persists bound false (eat wanted) (eat wanted) := by
  apply persists_kind.bind
  intro kind
  refine persists_ite (fun _ => ?_) fun _ => persists_pure false
  exact Persists.bind (fun cursor _ => persistsFrom_advance cursor) fun _ => persists_pure true

theorem eat_bind (wanted : TokenKind) (eaten left : Reading Part) :
    (eat wanted >>= fun found => if found = true then eaten else left) =
      kind >>= fun kind => if kind = wanted then advance >>= fun _ => eaten else left := by
  simp only [eat, bind_assoc, ite_bind, pure_bind, if_true, Bool.false_eq_true, if_false]

/-- After a token has been eaten, reading goes on within a smaller bound. -/
theorem persists_eat_bind {wanted : TokenKind} (isToken : wanted ≠ .endOfInput)
    {eaten otherEaten left otherLeft : Reading Part}
    (whenEaten : Persists (bound - 1) false eaten otherEaten)
    (otherwise : Persists bound strict left otherLeft) :
    Persists bound strict
      (eat wanted >>= fun found => if found = true then eaten else left)
      (eat wanted >>= fun found => if found = true then otherEaten else otherLeft) := by
  intro cursor fits
  rw [eat_bind, eat_bind]
  refine (persists_kind cursor fits).bind ?_
  rintro _ _ ⟨⟩
  split
  · next same =>
      exact ((persistsFrom_advance_of_visible (same ▸ isToken)).proceed fits
        fun _ => whenEaten).weaken
  · exact otherwise cursor fits

theorem persists_name : Persists bound true name name := by
  intro cursor fits
  refine (persistsFrom_current cursor).bind ?_
  rintro _ _ ⟨⟩
  split
  · next isName =>
      have visible : cursor.current.kind ≠ .endOfInput := by
        intro ended
        rw [ended] at isName
        cases isName
      exact (persistsFrom_advance_of_visible visible).sequence fun _ _ _ => persistsFrom_pure _ _
  · exact persists_expected _ cursor fits

theorem persistsFrom_quotedText (token : Token) (cursor : Cursor) :
    PersistsFrom false cursor (quotedText token) (quotedText token) := by
  unfold quotedText
  split
  · exact persistsFrom_pure _ cursor
  · exact persists_malformed _ cursor (Nat.le_refl _)

theorem persistsFrom_blockText {token : Token} (token_mem : token ∈ cursor.ahead)
    (isBlock : token.kind = .blockString) :
    PersistsFrom false cursor (blockText token) (blockText token) := by
  unfold blockText
  split
  · exact persistsFrom_pure _ cursor
  · next noValue =>
      refine ⟨nofun, nofun, nofun, ?_⟩
      rintro _ ⟨⟩
      exact ⟨token, token_mem, ⟨isBlock, noValue⟩, rfl⟩

theorem quotedText_stays {token : Token} {text : String} {next : Cursor}
    (found : quotedText token cursor = .ok (text, next)) : next = cursor := by
  rw [quotedText] at found
  cases decoded : Quoted.decodeToken? token.text.toList <;> rw [decoded] at found <;> cases found
  rfl

theorem blockText_stays {token : Token} {text : String} {next : Cursor}
    (found : blockText token cursor = .ok (text, next)) : next = cursor := by
  rw [blockText] at found
  cases decoded : BlockString.decodeToken? token.text.toList <;> rw [decoded] at found <;>
    cases found
  rfl

/-- A string in view is decoded and passed. -/
theorem persistsFrom_string (isString : cursor.current.kind = .string)
    {next otherNext : String → Reading Part}
    (rest : ∀ text, Persists (bound - 1) strict (next text) (otherNext text))
    (fits : cursor.ahead.length ≤ bound) :
    PersistsFrom true cursor
      (quotedText cursor.current >>= fun text => advance >>= fun _ => next text)
      (quotedText cursor.current >>= fun text => advance >>= fun _ => otherNext text) := by
  apply (persistsFrom_quotedText _ cursor).bind
  intro text between found
  obtain rfl := quotedText_stays found
  have visible : between.current.kind ≠ .endOfInput := by simp [isString]
  exact (persistsFrom_advance_of_visible visible).proceed fits fun _ => rest text

theorem persistsFrom_block (isBlock : cursor.current.kind = .blockString)
    {next otherNext : String → Reading Part}
    (rest : ∀ text, Persists (bound - 1) strict (next text) (otherNext text))
    (fits : cursor.ahead.length ≤ bound) :
    PersistsFrom true cursor
      (blockText cursor.current >>= fun text => advance >>= fun _ => next text)
      (blockText cursor.current >>= fun text => advance >>= fun _ => otherNext text) := by
  have visible : cursor.current.kind ≠ .endOfInput := by simp [isBlock]
  apply (persistsFrom_blockText (Cursor.current_mem_ahead visible) isBlock).bind
  intro text between found
  obtain rfl := blockText_stays found
  exact (persistsFrom_advance_of_visible visible).proceed fits fun _ => rest text

theorem persists_description : Persists bound false description description := by
  intro cursor fits
  refine (persistsFrom_current cursor).bind ?_
  rintro _ _ ⟨⟩
  split
  · next isString => exact (persistsFrom_string isString (fun _ => persists_pure _) fits).weaken
  · next isBlock => exact (persistsFrom_block isBlock (fun _ => persists_pure _) fits).weaken
  · exact persistsFrom_pure _ cursor

theorem persists_startAfter (description : Option Description) :
    Persists bound false (startAfter description) (startAfter description) := by
  cases description with
  | none => exact persists_startOffset
  | some description => exact persists_pure _

/-- A part with its span is read when the part is. -/
theorem persists_spanned (start : Nat) (make : Span → Part) :
    Persists bound false (do return make (← spanFrom start)) (do return make (← spanFrom start)) :=
  (persists_spanFrom start).bind fun _ => persists_pure _

end Tokens

section Lists

variable {item other : Reading Part}

theorem persists_bounded {read other : Nat → Reading Part}
    (each : ∀ smaller ≤ bound, ∀ larger ≥ smaller,
      Persists smaller strict (read smaller) (other larger)) :
    Persists bound strict (bounded read) (bounded other) := by
  intro cursor fits
  have here := fun larger (le : cursor.ahead.length ≤ larger) =>
    each cursor.ahead.length fits larger le cursor (Nat.le_refl _)
  exact {
    passes := (here _ (Nat.le_refl _)).passes
    proceeds := (here _ (Nat.le_refl _)).proceeds
    carries := fun part next found visible more finish =>
      (here (cursor.extend more finish).ahead.length (by simp [Cursor.extend])).carries part next
        found visible more finish
    misaligned := (here _ (Nat.le_refl _)).misaligned }

/-- Every item passes a token, so the bound is not reached before the tokens end. -/
theorem persists_itemsUpTo (close : Punctuator) {larger : Nat} (le : bound ≤ larger)
    (each : Persists bound true item other) :
    Persists bound false (itemsUpTo close item bound) (itemsUpTo close other larger) := by
  induction bound generalizing larger with
  | zero => exact persists_pure_zero _ _
  | succ bound ih =>
      cases larger with
      | zero => omega
      | succ larger =>
          apply persists_kind.bind
          intro kind
          refine persists_ite (fun _ => persists_pure _) fun _ => ?_
          apply Persists.weaken
          apply each.proceed
          intro first
          exact (ih (by omega) (each.mono (Nat.le_succ bound))).bind fun _ => persists_pure _

theorem persists_items (close : Punctuator) (each : Persists bound true item other) :
    Persists bound false (bounded (itemsUpTo close item)) (bounded (itemsUpTo close other)) :=
  persists_bounded fun _ le _ more => persists_itemsUpTo close more (each.mono le)

theorem persists_itemsUntil (close : Punctuator) (each : Persists bound true item other) :
    Persists bound true (itemsUntil close item) (itemsUntil close other) :=
  (persists_items close each).bind fun items =>
    (persists_expect (by nofun)).then fun _ => persists_pure items

theorem persists_spannedItems {Whole : Type} (close : Punctuator)
    (each : Persists bound true item other) (whole : List Part → Span → Whole) (start : Nat) :
    Persists bound true (spannedItems close item whole start)
      (spannedItems close other whole start) :=
  (persists_itemsUntil close each).then fun _ => persists_spanned start _

theorem persists_enclosedItems (openMark close : Punctuator)
    (each : Persists bound true item other) :
    Persists bound false (enclosedItems openMark close item) (enclosedItems openMark close other) :=
  persists_eat_bind (by nofun) (persists_itemsUntil close (each.mono (Nat.sub_le _ _))).weaken
    (persists_pure _)

theorem persists_separatedUpTo (separator : Punctuator) {larger : Nat} (le : bound ≤ larger)
    (each : Persists bound true item other) :
    Persists bound false (separatedUpTo separator item bound)
      (separatedUpTo separator other larger) := by
  induction bound generalizing larger with
  | zero => exact persists_pure_zero _ _
  | succ bound ih =>
      cases larger with
      | zero => omega
      | succ larger =>
          have fewer := each.mono (Nat.le_succ bound)
          refine persists_eat_bind (by nofun) ?_ (persists_pure _)
          apply fewer.bind
          intro first
          exact (ih (Nat.le_of_succ_le_succ le) fewer).bind fun _ => persists_pure _

theorem persists_separated (separator : Punctuator) (each : Persists bound true item other) :
    Persists bound true (separated separator item) (separated separator other) := by
  have first : Persists bound false (discard (eat (.punctuator separator)))
      (discard (eat (.punctuator separator))) := by
    rw [Functor.discard]
    exact Persists.map (persists_eat _)
  apply first.bind
  intro _
  apply each.then
  intro part
  apply Persists.bind
  · exact persists_bounded fun smaller le larger more =>
      persists_separatedUpTo separator more (each.mono le)
  · exact fun _ => persists_pure _

end Lists

section Values

theorem persists_typeBase {larger : Nat}
    (each : Persists bound true (typeUpTo bound) (typeUpTo larger)) (start : Nat) :
    Persists (bound + 1) true (typeBase bound start) (typeBase larger start) := by
  refine persists_eat_bind (by nofun) ?_ (persists_name.then fun _ => persists_pure _)
  apply each.bind
  intro item
  exact (persists_expect (by nofun)).bind fun _ => persists_spanned _ _

theorem persists_typeUpTo {larger : Nat} (le : bound ≤ larger) :
    Persists bound true (typeUpTo bound) (typeUpTo larger) := by
  induction bound generalizing larger with
  | zero => exact persists_expected _
  | succ bound ih =>
      cases larger with
      | zero => omega
      | succ larger =>
          rw [typeUpTo_succ, typeUpTo_succ]
          apply persists_startOffset.bind
          intro start
          apply (persists_typeBase (ih (by omega)) start).then
          intro base
          exact persists_eat_bind (by nofun) (persists_spanned start _) (persists_pure base)

theorem persists_type : Persists bound true type type :=
  persists_bounded fun _ _ _ more => persists_typeUpTo more

theorem persists_objectField {read other : Reading Value}
    (each : Persists bound true read other) :
    Persists bound true (objectField read) (objectField other) := by
  apply persists_startOffset.bind
  intro start
  apply persists_name.then
  intro name
  apply (persists_expect (by nofun)).then
  intro _
  exact each.then fun value => persists_spanned start _

/-- The token in view is passed in every branch of reading a value that does not fail. -/
theorem persists_valueUpTo {larger : Nat} (le : bound ≤ larger) :
    Persists bound true (valueUpTo bound) (valueUpTo larger) := by
  induction bound generalizing larger with
  | zero => exact persists_expected _
  | succ bound ih =>
      cases larger with
      | zero => omega
      | succ larger =>
          have nested := ih (Nat.le_of_succ_le_succ le)
          intro cursor fits
          rw [valueUpTo, valueUpTo]
          refine (persistsFrom_current cursor).bind ?_
          rintro _ _ ⟨⟩
          have passed : ∀ {kind : TokenKind}, cursor.current.kind = kind → kind ≠ .endOfInput →
              PersistsFrom true cursor advance advance := by
            rintro _ rfl visible
            exact persistsFrom_advance_of_visible visible
          split
          · next same =>
              exact (passed same (by nofun)).proceed fits fun _ =>
                persists_name.then fun _ => persists_pure _
          · next same => exact (passed same (by nofun)).proceed fits fun _ => persists_pure _
          · next same => exact (passed same (by nofun)).proceed fits fun _ => persists_pure _
          · next same => exact persistsFrom_string same (fun _ => persists_pure _) fits
          · next same => exact persistsFrom_block same (fun _ => persists_pure _) fits
          · next same => exact (passed same (by nofun)).proceed fits fun _ => persists_pure _
          · next same => exact (passed same (by nofun)).proceed fits fun _ => persists_pure _
          · next same => exact (passed same (by nofun)).proceed fits fun _ => persists_pure _
          · next same =>
              exact (passed same (by nofun)).proceed fits fun _ =>
                persists_spannedItems .bracketClose nested _ _
          · next same =>
              exact (passed same (by nofun)).proceed fits fun _ =>
                persists_spannedItems .braceClose (persists_objectField nested) _ _
          · split
            · exact persists_name.then (fun _ => persists_pure _) cursor fits
            · exact persists_expected _ cursor fits

theorem persists_value : Persists bound true value value :=
  persists_bounded fun _ _ _ more => persists_valueUpTo more

theorem persists_argument : Persists bound true argument argument := by
  apply persists_startOffset.bind
  intro start
  apply persists_name.then
  intro name
  apply (persists_expect (by nofun)).then
  intro _
  exact persists_value.then fun value => persists_spanned start _

theorem persists_arguments : Persists bound false arguments arguments :=
  persists_enclosedItems _ _ persists_argument

theorem persists_directivesUpTo {larger : Nat} (le : bound ≤ larger) :
    Persists bound false (directivesUpTo bound) (directivesUpTo larger) := by
  induction bound generalizing larger with
  | zero => exact persists_pure_zero _ _
  | succ bound ih =>
      cases larger with
      | zero => omega
      | succ larger =>
          apply persists_startOffset.bind
          intro start
          refine persists_eat_bind (by nofun) ?_ (persists_pure _)
          apply persists_name.bind
          intro name
          apply persists_arguments.bind
          intro arguments
          apply (persists_spanFrom start).bind
          intro span
          exact (ih (Nat.le_of_succ_le_succ le)).bind fun _ => persists_pure _

theorem persists_directives : Persists bound false directives directives :=
  persists_bounded fun _ _ _ more => persists_directivesUpTo more

end Values

section Selections

variable {set other : Reading SelectionSet}

theorem persists_optional {read otherRead : Reading Part} {condition : Prop} [Decidable condition]
    (persists : Persists bound true read otherRead) :
    Persists bound false (if condition then some <$> read else pure none)
      (if condition then some <$> otherRead else pure none) :=
  persists_ite (fun _ => persists.map.weaken) fun _ => persists_pure none

theorem persists_fieldRest (each : Persists bound true set other) (start : Nat)
    (aliasName : Option Name) (name : Name) :
    Persists bound false (fieldRest set start aliasName name)
      (fieldRest other start aliasName name) := by
  apply persists_arguments.bind
  intro arguments
  apply persists_directives.bind
  intro directives
  have optional : Persists bound false (optionalSet set) (optionalSet other) :=
    persists_kind.bind fun _ => persists_optional each
  exact optional.bind fun found => persists_spanned start _

theorem persists_fieldSelection (each : Persists bound true set other) :
    Persists bound true (fieldSelection set) (fieldSelection other) := by
  rw [fieldSelection_eq, fieldSelection_eq]
  apply persists_startOffset.bind
  intro start
  apply persists_name.then
  intro first
  refine persists_eat_bind (by nofun) ?_ (persists_fieldRest each start none first)
  apply persists_name.bind
  intro name
  exact persists_fieldRest (each.mono (Nat.sub_le _ _)) start (some first) name

theorem persists_afterSpread (each : Persists bound true set other) (start : Nat) :
    Persists bound false (afterSpread set start) (afterSpread other start) := by
  apply persists_kind.bind
  intro kind
  refine persists_ite (fun _ => ?_) fun _ => ?_
  · apply persists_name.bind
    intro name
    exact persists_directives.bind fun directives => persists_spanned start _
  · have condition : Persists bound false optionalCondition optionalCondition :=
      (persists_eat _).bind fun _ => persists_optional persists_name
    apply condition.bind
    intro condition
    apply persists_directives.bind
    intro directives
    exact each.bind fun found => persists_spanned start _

theorem persists_selection (each : Persists bound true set other) :
    Persists bound true (selection set) (selection other) := by
  rw [selection_eq, selection_eq]
  apply persists_startOffset.bind
  intro start
  exact persists_eat_bind (by nofun) (persists_afterSpread (each.mono (Nat.sub_le _ _)) start)
    (persists_fieldSelection each)

theorem persists_selectionSetUpTo {larger : Nat} (le : bound ≤ larger) :
    Persists bound true (selectionSetUpTo bound) (selectionSetUpTo larger) := by
  induction bound generalizing larger with
  | zero => exact persists_expected _
  | succ bound ih =>
      cases larger with
      | zero => omega
      | succ larger =>
          apply persists_startOffset.bind
          intro start
          apply (persists_expect (by nofun)).proceed
          intro _
          have selections := persists_selection (ih (Nat.le_of_succ_le_succ le))
          exact persists_spannedItems .braceClose selections _ start

theorem persists_selectionSet : Persists bound true selectionSet selectionSet :=
  persists_bounded fun _ _ _ more => persists_selectionSetUpTo more

end Selections

section TypeSystem

theorem persists_rootOperation : Persists bound true rootOperation rootOperation := by
  rw [rootOperation_eq]
  apply persists_startOffset.bind
  intro start cursor fits
  refine (persists_kind cursor fits).bind ?_
  rintro _ _ ⟨⟩
  have rest : ∀ operation : OperationType, cursor.current.kind ≠ .endOfInput →
      PersistsFrom true cursor (rootOperationOf start operation)
        (rootOperationOf start operation) := by
    intro operation visible
    apply (persistsFrom_advance_of_visible visible).proceed fits
    intro _
    apply (persists_expect (by nofun)).then
    intro _
    exact persists_name.then fun typeName => persists_spanned start _
  split
  · next same => exact rest .query (by simp [same])
  · next same => exact rest .mutation (by simp [same])
  · next same => exact rest .subscription (by simp [same])
  · exact persists_malformed _ cursor fits

theorem persists_schemaDefinition (description : Option Description) :
    Persists bound true (schemaDefinition description) (schemaDefinition description) := by
  apply (persists_startAfter description).bind
  intro start
  apply (persists_expect (by nofun)).then
  intro _
  apply persists_directives.bind
  intro directives
  apply (persists_expect (by nofun)).then
  intro _
  exact persists_spannedItems .braceClose persists_rootOperation _ start

theorem persists_optionalDefault : Persists bound false optionalDefault optionalDefault :=
  (persists_eat _).bind fun _ => persists_optional persists_value

theorem persists_inputValue : Persists bound true inputValue inputValue := by
  rw [inputValue_eq]
  apply persists_description.bind
  intro description
  apply (persists_startAfter description).bind
  intro start
  apply persists_name.then
  intro name
  apply (persists_expect (by nofun)).then
  intro _
  apply persists_type.then
  intro type
  apply persists_optionalDefault.bind
  intro default
  exact persists_directives.bind fun directives => persists_spanned start _

theorem persists_fieldDefinition : Persists bound true fieldDefinition fieldDefinition := by
  apply persists_description.bind
  intro description
  apply (persists_startAfter description).bind
  intro start
  apply persists_name.then
  intro name
  apply (persists_enclosedItems _ _ persists_inputValue).bind
  intro arguments
  apply (persists_expect (by nofun)).then
  intro _
  apply persists_type.then
  intro type
  exact persists_directives.bind fun directives => persists_spanned start _

theorem persists_enumValue : Persists bound true enumValue enumValue := by
  apply persists_description.bind
  intro description
  apply (persists_startAfter description).bind
  intro start
  apply persists_name.then
  intro name
  exact persists_directives.bind fun directives => persists_spanned start _

theorem persists_introduced {introduction : TokenKind} (separator : Punctuator)
    (visible : introduction ≠ .endOfInput) :
    Persists bound false (introduced introduction separator)
      (introduced introduction separator) :=
  persists_eat_bind visible (persists_separated _ persists_name).weaken (persists_pure _)

theorem persists_bracedBody {item : Reading Part}
    (persists : Persists bound true item item) (body : List Part → TypeDefinition.Body) :
    Persists bound false (bracedBody item body) (bracedBody item body) := by
  apply persists_directives.bind
  intro directives
  exact (persists_enclosedItems _ _ persists).bind fun _ => persists_pure _

theorem persists_typeBody (kind : TypeKind) :
    Persists bound false (typeBody kind) (typeBody kind) := by
  rw [typeBody_eq]
  cases kind with
  | object | interface =>
      apply (persists_introduced .ampersand (by nofun)).bind
      intro interfaces
      apply persists_directives.bind
      intro directives
      exact (persists_enclosedItems _ _ persists_fieldDefinition).bind fun _ => persists_pure _
  | union =>
      apply persists_directives.bind
      intro directives
      exact (persists_introduced .pipe (by nofun)).bind fun _ => persists_pure _
  | enum => exact persists_bracedBody persists_enumValue .enum
  | input => exact persists_bracedBody persists_inputValue .input
  | scalar => exact persists_directives.bind fun _ => persists_pure _

theorem persists_typeDefinition (description : Option Description) :
    Persists bound true (typeDefinition description) (typeDefinition description) := by
  apply (persists_startAfter description).bind
  intro start
  apply persists_kind.bind
  intro kind
  split
  · exact persists_malformed _
  · next typeKind _ =>
      apply Persists.bind fun cursor _ => persistsFrom_advance cursor
      intro _
      apply persists_name.then
      intro name
      exact (persists_typeBody typeKind).bind fun _ => persists_spanned start _

theorem persists_directiveLocation :
    Persists bound true directiveLocation directiveLocation := by
  intro cursor fits
  refine (persistsFrom_current cursor).bind ?_
  rintro _ _ ⟨⟩
  split
  · next location isName _ =>
      have visible : cursor.current.kind ≠ .endOfInput := by simp [isName]
      exact (persistsFrom_advance_of_visible visible).proceed fits fun _ => persists_pure _
  · exact persists_expected _ cursor fits

theorem persists_directiveDefinition (description : Option Description) :
    Persists bound true (directiveDefinition description) (directiveDefinition description) := by
  apply (persists_startAfter description).bind
  intro start
  apply (persists_expect (by nofun)).then
  intro _
  apply (persists_expect (by nofun)).then
  intro _
  apply persists_name.then
  intro name
  apply (persists_enclosedItems _ _ persists_inputValue).bind
  intro arguments
  apply (persists_eat _).bind
  intro repeatable
  apply (persists_expect (by nofun)).then
  intro _
  exact (persists_separated _ persists_directiveLocation).then fun locations =>
    persists_spanned start _

end TypeSystem

section Definitions

theorem persists_variableDefinition :
    Persists bound true variableDefinition variableDefinition := by
  rw [variableDefinition_eq]
  apply persists_startOffset.bind
  intro start
  apply (persists_expect (by nofun)).then
  intro _
  apply persists_name.then
  intro name
  apply (persists_expect (by nofun)).then
  intro _
  apply persists_type.then
  intro type
  apply persists_optionalDefault.bind
  intro default
  exact persists_directives.bind fun directives => persists_spanned start _

theorem persists_optionalName : Persists bound false optionalName optionalName :=
  persists_kind.bind fun _ => persists_optional persists_name

theorem persists_namedOperation (operation : OperationType) :
    Persists bound true (namedOperation operation) (namedOperation operation) := by
  rw [namedOperation_eq]
  apply persists_startOffset.bind
  intro start
  apply Persists.bind fun cursor _ => persistsFrom_advance cursor
  intro _
  apply persists_optionalName.bind
  intro name
  apply (persists_enclosedItems _ _ persists_variableDefinition).bind
  intro declared
  apply persists_directives.bind
  intro directives
  exact persists_selectionSet.then fun set => persists_spanned start _

theorem persists_shorthandQuery : Persists bound true shorthandQuery shorthandQuery := by
  apply persists_startOffset.bind
  intro start
  exact persists_selectionSet.then fun set => persists_spanned start _

theorem persists_namedFragment (start : Nat) :
    Persists bound true (namedFragment start) (namedFragment start) := by
  apply persists_name.then
  intro name
  apply (persists_expect (by nofun)).then
  intro _
  apply persists_name.then
  intro condition
  apply persists_directives.bind
  intro directives
  exact persists_selectionSet.then fun set => persists_spanned start _

theorem persists_fragmentDefinition :
    Persists bound true fragmentDefinition fragmentDefinition := by
  rw [fragmentDefinition_eq]
  apply persists_startOffset.bind
  intro start
  apply (persists_expect (by nofun)).then
  intro _
  apply persists_kind.bind
  intro kind
  exact persists_ite (fun _ => persists_malformed _) fun _ => persists_namedFragment start

theorem persists_describedDefinition (description : Option Description) :
    Persists bound true (describedDefinition description) (describedDefinition description) := by
  apply persists_kind.bind
  intro kind
  split
  · exact (persists_schemaDefinition description).map
  · apply Persists.bind fun cursor _ => persistsFrom_advance cursor
    exact fun _ => (persists_typeDefinition none).map
  · exact (persists_directiveDefinition description).map
  · exact (persists_namedOperation .query).map
  · exact (persists_namedOperation .mutation).map
  · exact (persists_namedOperation .subscription).map
  · exact persists_shorthandQuery.map
  · exact persists_fragmentDefinition.map
  · exact persists_ite (fun _ => (persists_typeDefinition description).map) fun _ =>
      persists_malformed _

theorem persists_definition : Persists bound true definition definition :=
  persists_description.bind persists_describedDefinition

end Definitions

end Reading

end WiredGraph
