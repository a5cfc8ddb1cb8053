import WiredGraph.Proofs.Document.Parser.Persistence

/-!
# Definitions that end with a brace

Where the last token of a source is a closing brace, the definition that passes it does nothing
after that: names, directives and lists in parentheses leave the brace, and what is in braces ends
with it. So if more tokens follow, the definition is the same, provided that the token after the
brace may come into view.
-/

namespace WiredGraph

namespace Cursor

/-- The last token ahead is a closing brace. -/
def EndsWithBrace (cursor : Cursor) : Prop :=
  cursor.ahead.getLast?.map Token.kind = some (.punctuator .braceClose)

namespace EndsWithBrace

variable {cursor next : Cursor}

theorem ahead_ne_nil (ends : cursor.EndsWithBrace) : cursor.ahead ≠ [] := by
  intro ended
  rw [EndsWithBrace, ended] at ends
  cases ends

theorem of_suffix (ends : cursor.EndsWithBrace) (suffix : next.ahead <:+ cursor.ahead)
    (visible : next.ahead ≠ []) : next.EndsWithBrace := by
  rcases suffix with ⟨front, split⟩
  rw [EndsWithBrace, ← split, List.getLast?_append, List.getLast?_eq_some_getLast visible,
    Option.some_or] at ends
  rwa [EndsWithBrace, List.getLast?_eq_some_getLast visible]

/-- A token that is no closing brace is not the last one. -/
theorem drop_ne_nil (ends : cursor.EndsWithBrace)
    (other : cursor.current.kind ≠ .punctuator .braceClose) : cursor.ahead.drop 1 ≠ [] := by
  rcases cursor with ⟨passed, - | ⟨token, - | ⟨second, rest⟩⟩, finish⟩
  · exact absurd rfl ends.ahead_ne_nil
  · exact absurd (Option.some.inj ends) other
  · simp

end EndsWithBrace

end Cursor

namespace Reading

variable {Part Whole : Type} {cursor : Cursor} {strict : Bool}

/-- A reading leaves the closing brace that is the last token ahead. -/
def LeavesBraceFrom (cursor : Cursor) (read : Reading Part) : Prop :=
  ∀ part next, cursor.EndsWithBrace → read cursor = .ok (part, next) → next.EndsWithBrace

/-- A reading leaves the closing brace wherever that is the last token ahead. -/
def LeavesBrace (read : Reading Part) : Prop := ∀ cursor, LeavesBraceFrom cursor read

/-- A reading that passes the closing brace at the end does nothing more: where tokens follow,
another reading yields the same if the next one may come into view. -/
def ClosesFrom (cursor : Cursor) (read other : Reading Part) : Prop :=
  ∀ part last more finish, cursor.EndsWithBrace → read cursor = .ok (part, last) →
    last.ahead = [] →
      other (cursor.extend more finish) =
        (last.extend more finish).check >>= fun next => .ok (part, next)

/-- A reading does nothing more after passing the closing brace at the end, wherever it starts. -/
def Closes (read : Reading Part) : Prop := ∀ cursor, ClosesFrom cursor read read

section Rules

variable {read other : Reading Part} {next otherNext : Part → Reading Whole}

theorem LeavesBraceFrom.bind (first : LeavesBraceFrom cursor read)
    (second : ∀ part between, read cursor = .ok (part, between) →
      LeavesBraceFrom between (next part)) : LeavesBraceFrom cursor (read >>= next) := by
  intro whole last ends found
  rcases bind_eq_ok found with ⟨part, between, here, there⟩
  exact second part between here whole last (first part between ends here) there

theorem LeavesBrace.bind (first : LeavesBrace read) (second : ∀ part, LeavesBrace (next part)) :
    LeavesBrace (read >>= next) :=
  fun cursor => (first cursor).bind fun part between _ => second part between

/-- A reading that passes no token leaves the brace. -/
theorem leavesBrace_of_stays (stays : ∀ cursor part next, read cursor = .ok (part, next) →
    next = cursor) : LeavesBrace read := by
  intro cursor part next ends found
  rwa [stays cursor part next found]

theorem leavesBrace_pure (part : Part) : LeavesBrace (pure part) :=
  leavesBrace_of_stays (by rintro _ _ _ ⟨⟩; rfl)

theorem leavesBrace_kind : LeavesBrace kind := leavesBrace_of_stays (by rintro _ _ _ ⟨⟩; rfl)

theorem leavesBrace_current : LeavesBrace current :=
  leavesBrace_of_stays (by rintro _ _ _ ⟨⟩; rfl)

theorem leavesBrace_startOffset : LeavesBrace startOffset :=
  leavesBrace_of_stays (by rintro _ _ _ ⟨⟩; rfl)

theorem leavesBrace_spanFrom (start : Nat) : LeavesBrace (spanFrom start) :=
  leavesBrace_of_stays (by rintro _ _ _ ⟨⟩; rfl)

theorem leavesBrace_expected (wanted : String) :
    LeavesBrace (expected wanted : Reading Part) :=
  leavesBrace_of_stays nofun

theorem LeavesBrace.map {change : Part → Whole} (leaves : LeavesBrace read) :
    LeavesBrace (change <$> read) := by
  rw [map_eq_pure_bind]
  exact leaves.bind fun _ => leavesBrace_pure _

theorem leavesBrace_ite {condition : Prop} [Decidable condition] {first second : Reading Part}
    (whenTrue : LeavesBrace first) (whenFalse : LeavesBrace second) :
    LeavesBrace (if condition then first else second) := by
  split
  · exact whenTrue
  · exact whenFalse

/-- A reading that leaves the brace does not pass it. -/
theorem LeavesBraceFrom.closes (leaves : LeavesBraceFrom cursor read) :
    ClosesFrom cursor read other := by
  intro part last more finish ends found ended
  exact absurd ended (leaves part last ends found).ahead_ne_nil

/-- A reading leaves the brace if what it does last does, and something is left to that. -/
theorem LeavesBraceFrom.needed (persists : PersistsFrom strict cursor read read)
    (second : ∀ part between, read cursor = .ok (part, between) →
      LeavesBraceFrom between (next part))
    (needs : ∀ part between whole last, read cursor = .ok (part, between) →
      next part between = .ok (whole, last) → between.ahead ≠ []) :
    LeavesBraceFrom cursor (read >>= next) := by
  intro whole last ends found
  rcases bind_eq_ok found with ⟨part, between, here, there⟩
  have visible := needs part between whole last here there
  have between_ends := ends.of_suffix (persists.passes part between here) visible
  exact second part between here whole last between_ends there

/-- A reading closes if what it does last closes, and something is left to that. -/
theorem ClosesFrom.bind (persists : PersistsFrom strict cursor read other)
    (second : ∀ part between, read cursor = .ok (part, between) →
      ClosesFrom between (next part) (otherNext part))
    (needs : ∀ part between whole last, read cursor = .ok (part, between) →
      next part between = .ok (whole, last) → between.ahead ≠ []) :
    ClosesFrom cursor (read >>= next) (other >>= otherNext) := by
  intro whole last more finish ends found ended
  rcases bind_eq_ok found with ⟨part, between, here, there⟩
  have visible := needs part between whole last here there
  have between_ends := ends.of_suffix (persists.passes part between here) visible
  rw [bind_apply, persists.carries part between here visible more finish]
  exact second part between here whole last more finish between_ends there ended

theorem ClosesFrom.after (leaves : LeavesBraceFrom cursor read)
    (persists : PersistsFrom strict cursor read other)
    (second : ∀ part between, read cursor = .ok (part, between) →
      ClosesFrom between (next part) (otherNext part)) :
    ClosesFrom cursor (read >>= next) (other >>= otherNext) := by
  intro whole last more finish ends
  refine ClosesFrom.bind persists second ?_ whole last more finish ends
  intro part between _ _ here _
  exact (leaves part between ends here).ahead_ne_nil

theorem Closes.after (leaves : LeavesBrace read)
    (persists : ∀ bound, Persists bound strict read read) (second : ∀ part, Closes (next part)) :
    Closes (read >>= next) :=
  fun cursor => .after (leaves cursor) (persists _ cursor (Nat.le_refl _))
    fun part between _ => second part between

/-- What is made of a part and the end of the last token passed, without a look at the tokens ahead,
does not change what a reading does at the brace. The token passed last is the same, as a check does
not move the cursor. -/
theorem ClosesFrom.finish (closes : ClosesFrom cursor read other)
    (silent : ∀ part passed, ∃ whole, ∀ ahead finish,
      next part ⟨passed, ahead, finish⟩ = .ok (whole, ⟨passed, ahead, finish⟩)) :
    ClosesFrom cursor (read >>= next) (other >>= next) := by
  intro whole last more finish ends found ended
  rcases bind_eq_ok found with ⟨part, between, here, there⟩
  rcases silent part between.passed with ⟨made, same⟩
  obtain ⟨rfl, rfl⟩ := Prod.mk.inj (Except.ok.inj ((same _ _).symm.trans there))
  rw [bind_apply, closes part between more finish ends here ended]
  cases checked : (between.extend more finish).check with
  | error halt => rfl
  | ok after =>
      obtain ⟨rfl, -⟩ := Cursor.eq_of_check checked
      exact same _ _

theorem ClosesFrom.spanned (closes : ClosesFrom cursor read other) (start : Nat)
    {make : Part → Span → Whole} :
    ClosesFrom cursor
      (read >>= fun part => spanFrom start >>= fun span => pure (make part span))
      (other >>= fun part => spanFrom start >>= fun span => pure (make part span)) :=
  closes.finish fun part passed => ⟨make part ⟨start, max passed start⟩, fun _ _ => rfl⟩

theorem ClosesFrom.map {change : Part → Whole} (closes : ClosesFrom cursor read other) :
    ClosesFrom cursor (change <$> read) (change <$> other) := by
  rw [map_eq_pure_bind, map_eq_pure_bind]
  exact closes.finish fun part _ => ⟨change part, fun _ _ => rfl⟩

theorem closesFrom_bounded {read other : Nat → Reading Part}
    (each : ∀ larger ≥ cursor.ahead.length,
      ClosesFrom cursor (read cursor.ahead.length) (other larger)) :
    ClosesFrom cursor (bounded read) (bounded other) :=
  fun part last more finish =>
    each (cursor.extend more finish).ahead.length (by simp [Cursor.extend]) part last more finish

theorem closes_ite {condition : Prop} [Decidable condition] {first second : Reading Part}
    (whenTrue : Closes first) (whenFalse : Closes second) :
    Closes (if condition then first else second) := by
  split
  · exact whenTrue
  · exact whenFalse

theorem closesFrom_of_never_ok (never : ∀ part next, read cursor ≠ .ok (part, next)) :
    ClosesFrom cursor read other :=
  fun part last _ _ _ found => absurd found (never part last)

end Rules

section Tokens

theorem leavesBraceFrom_advance (other : cursor.current.kind ≠ .punctuator .braceClose) :
    LeavesBraceFrom cursor advance := by
  rintro _ next ends found
  have moved := (Cursor.next_eq_ok (advance_eq_ok.mp found)).1
  refine ends.of_suffix ((persistsFrom_advance cursor).passes _ next found) ?_
  rw [moved]
  exact ends.drop_ne_nil other

theorem closes_advance : Closes advance := by
  rintro cursor _ last more finish ends found ended
  rcases Cursor.next_eq_ok (advance_eq_ok.mp found) with ⟨rfl, -⟩
  change ((cursor.extend more finish).next >>= fun after => pure ((), after)) = _
  rw [next_extend ends.ahead_ne_nil]
  rfl

theorem leavesBrace_eat {wanted : TokenKind} (other : wanted ≠ .punctuator .braceClose) :
    LeavesBrace (eat wanted) := by
  intro cursor
  refine (leavesBrace_kind cursor).bind ?_
  rintro _ _ ⟨⟩
  split
  · next same =>
      exact (leavesBraceFrom_advance (same ▸ other)).bind fun _ _ _ => leavesBrace_pure _ _
  · exact leavesBrace_pure _ cursor

theorem leavesBrace_expect {wanted : TokenKind} (other : wanted ≠ .punctuator .braceClose) :
    LeavesBrace (expect wanted) := by
  intro cursor
  refine (leavesBrace_kind cursor).bind ?_
  rintro _ _ ⟨⟩
  split
  · next same => exact leavesBraceFrom_advance (same ▸ other)
  · exact leavesBrace_expected _ cursor

theorem closes_expect (wanted : TokenKind) : Closes (expect wanted) := by
  intro cursor
  refine .after (leavesBrace_kind cursor) (persists_kind cursor (Nat.le_refl _)) ?_
  rintro _ _ ⟨⟩
  split
  · exact closes_advance cursor
  · exact closesFrom_of_never_ok nofun

/-- At the end of the document nothing is found that is expected. -/
theorem ahead_ne_nil_of_expect {wanted : TokenKind} (isToken : wanted ≠ .endOfInput) {next : Cursor}
    (found : expect wanted cursor = .ok ((), next)) : cursor.ahead ≠ [] := by
  have visible := (persists_expect isToken cursor (Nat.le_refl _)).proceeds rfl _ next found
  exact List.length_pos_iff.mp (by omega)

theorem leavesBrace_name : LeavesBrace name := by
  intro cursor
  refine (leavesBrace_current cursor).bind ?_
  rintro _ _ ⟨⟩
  split
  · next isName =>
      have other : cursor.current.kind ≠ .punctuator .braceClose := by
        intro same
        rw [same] at isName
        cases isName
      exact (leavesBraceFrom_advance other).bind fun _ _ _ => leavesBrace_pure _ _
  · exact leavesBrace_expected _ cursor

theorem leavesBrace_description : LeavesBrace description := by
  intro cursor
  refine (leavesBrace_current cursor).bind ?_
  rintro _ _ ⟨⟩
  have other : ∀ {kind : TokenKind}, cursor.current.kind = kind →
      kind ≠ .punctuator .braceClose → LeavesBraceFrom cursor advance := by
    rintro _ rfl differs
    exact leavesBraceFrom_advance differs
  split
  · next isString =>
      refine (leavesBrace_of_stays (fun _ _ _ => quotedText_stays) cursor).bind ?_
      intro text between found
      obtain rfl := quotedText_stays found
      exact (other isString nofun).bind fun _ _ _ => leavesBrace_pure _ _
  · next isBlock =>
      refine (leavesBrace_of_stays (fun _ _ _ => blockText_stays) cursor).bind ?_
      intro text between found
      obtain rfl := blockText_stays found
      exact (other isBlock nofun).bind fun _ _ _ => leavesBrace_pure _ _
  · exact leavesBrace_pure _ cursor

theorem leavesBrace_startAfter (description : Option Description) :
    LeavesBrace (startAfter description) := by
  cases description with
  | none => exact leavesBrace_startOffset
  | some description => exact leavesBrace_pure _

end Tokens

section Lists

variable {item : Reading Part}

theorem leavesBrace_bounded {read : Nat → Reading Part} (each : ∀ bound, LeavesBrace (read bound)) :
    LeavesBrace (bounded read) :=
  fun cursor => each cursor.ahead.length cursor

/-- Items are followed by their closing mark, which is there only if they leave a token. -/
theorem ahead_ne_nil_of_closing {close : Punctuator} {items whole : List Part} {last : Cursor}
    (found : (do expect (.punctuator close); return items : Reading (List Part)) cursor =
      .ok (whole, last)) : cursor.ahead ≠ [] := by
  rcases bind_eq_ok found with ⟨_, between, here, -⟩
  exact ahead_ne_nil_of_expect (by nofun) here

variable {item : Reading Part}

theorem closesFrom_itemsUntil (close : Punctuator) {other : Reading Part}
    (each : Persists cursor.ahead.length true item other) :
    ClosesFrom cursor (itemsUntil close item) (itemsUntil close other) := by
  refine .bind (persists_items close each cursor (Nat.le_refl _)) ?_
    fun _ _ _ _ _ found => ahead_ne_nil_of_closing found
  intro items between _
  exact (closes_expect _ between).finish fun _ _ => ⟨items, fun _ _ => rfl⟩

/-- The span of items that are put together is taken from their closing mark. -/
theorem closesFrom_spannedItems {Whole : Type} (close : Punctuator) {other : Reading Part}
    (each : Persists cursor.ahead.length true item other) (whole : List Part → Span → Whole)
    (start : Nat) :
    ClosesFrom cursor (spannedItems close item whole start)
      (spannedItems close other whole start) :=
  (closesFrom_itemsUntil close each).spanned start

section Each

variable (each : ∀ bound, Persists bound true item item)

include each

theorem leavesBrace_itemsUntil {close : Punctuator} (other : close ≠ .braceClose) :
    LeavesBrace (itemsUntil close item) := by
  have expected : TokenKind.punctuator close ≠ .punctuator .braceClose := by simpa using other
  intro cursor
  refine .needed (persists_items close (each _) cursor (Nat.le_refl _)) ?_
    fun _ _ _ _ _ found => ahead_ne_nil_of_closing found
  intro items between _
  exact ((leavesBrace_expect expected).bind fun _ => leavesBrace_pure items) between

theorem leavesBrace_parenthesized :
    LeavesBrace (enclosedItems .parenOpen .parenClose item) :=
  (leavesBrace_eat (by nofun)).bind fun _ =>
    leavesBrace_ite (leavesBrace_itemsUntil each (by nofun)) (leavesBrace_pure _)

theorem closes_braced : Closes (enclosedItems .braceOpen .braceClose item) :=
  .after (leavesBrace_eat (by nofun)) (fun _ => persists_eat _) fun _ =>
    closes_ite (fun _ => closesFrom_itemsUntil _ (each _)) fun cursor =>
      (leavesBrace_pure _ cursor).closes

end Each

theorem leavesBrace_separatedUpTo (separator : Punctuator) (other : separator ≠ .braceClose)
    (each : LeavesBrace item) (bound : Nat) :
    LeavesBrace (separatedUpTo separator item bound) := by
  induction bound with
  | zero => exact leavesBrace_pure _
  | succ bound ih =>
      have notBrace : TokenKind.punctuator separator ≠ .punctuator .braceClose := by
        simpa using other
      refine (leavesBrace_eat notBrace).bind fun _ => leavesBrace_ite ?_ (leavesBrace_pure _)
      exact each.bind fun _ => ih.bind fun _ => leavesBrace_pure _

theorem leavesBrace_separated (separator : Punctuator) (other : separator ≠ .braceClose)
    (each : LeavesBrace item) : LeavesBrace (separated separator item) := by
  have notBrace : TokenKind.punctuator separator ≠ .punctuator .braceClose := by
    simpa using other
  have first : LeavesBrace (discard (eat (.punctuator separator))) := by
    rw [Functor.discard]
    exact LeavesBrace.map (leavesBrace_eat notBrace)
  refine first.bind fun _ => each.bind fun _ => ?_
  exact (leavesBrace_bounded (leavesBrace_separatedUpTo separator other each)).bind fun _ =>
    leavesBrace_pure _

end Lists

section Parts

theorem leavesBrace_arguments : LeavesBrace arguments :=
  leavesBrace_parenthesized fun _ => persists_argument

theorem leavesBrace_directivesUpTo (bound : Nat) : LeavesBrace (directivesUpTo bound) := by
  induction bound with
  | zero => exact leavesBrace_pure _
  | succ bound ih =>
      apply leavesBrace_startOffset.bind
      intro start
      refine (leavesBrace_eat (by nofun)).bind fun _ => leavesBrace_ite ?_ (leavesBrace_pure _)
      apply leavesBrace_name.bind
      intro name
      apply leavesBrace_arguments.bind
      intro arguments
      apply (leavesBrace_spanFrom start).bind
      intro span
      exact ih.bind fun _ => leavesBrace_pure _

theorem leavesBrace_directives : LeavesBrace directives :=
  leavesBrace_bounded leavesBrace_directivesUpTo

theorem closesFrom_selectionSetUpTo {bound larger : Nat} (fits : cursor.ahead.length ≤ bound)
    (le : bound ≤ larger) :
    ClosesFrom cursor (selectionSetUpTo bound) (selectionSetUpTo larger) := by
  cases bound with
  | zero => exact closesFrom_of_never_ok nofun
  | succ bound =>
      cases larger with
      | zero => omega
      | succ larger =>
          refine .after (leavesBrace_startOffset cursor) (persists_startOffset cursor fits) ?_
          rintro start _ ⟨⟩
          have opened : PersistsFrom true cursor (expect (.punctuator .braceOpen))
              (expect (.punctuator .braceOpen)) := persists_expect (by nofun) cursor fits
          refine .after (leavesBrace_expect (by nofun) cursor) opened ?_
          intro _ between found
          have fewer := opened.proceeds rfl _ between found
          have sets := persists_selectionSetUpTo (Nat.le_of_succ_le_succ le)
          exact closesFrom_spannedItems _ ((persists_selection sets).mono (by omega)) _ _

theorem closes_selectionSet : Closes selectionSet :=
  fun _ => closesFrom_bounded fun _ => closesFrom_selectionSetUpTo (Nat.le_refl _)

theorem leavesBrace_introduced {introduction : TokenKind} {separator : Punctuator}
    (other : introduction ≠ .punctuator .braceClose) (between : separator ≠ .braceClose) :
    LeavesBrace (introduced introduction separator) :=
  (leavesBrace_eat other).bind fun _ =>
    leavesBrace_ite (leavesBrace_separated _ between leavesBrace_name) (leavesBrace_pure _)

end Parts

section Definitions

theorem closes_schemaDefinition (description : Option Description) :
    Closes (schemaDefinition description) := by
  apply Closes.after (leavesBrace_startAfter description) fun _ => persists_startAfter description
  intro start
  apply Closes.after (leavesBrace_expect (by nofun)) fun _ => persists_expect (by nofun)
  intro _
  apply Closes.after leavesBrace_directives fun _ => persists_directives
  intro directives
  apply Closes.after (leavesBrace_expect (by nofun)) fun _ => persists_expect (by nofun)
  intro _ cursor
  exact closesFrom_spannedItems _ persists_rootOperation _ start

theorem closes_bracedBody {Item : Type} {item : Reading Item}
    (each : ∀ bound, Persists bound true item item) (body : List Item → TypeDefinition.Body) :
    Closes (bracedBody item body) := by
  apply Closes.after leavesBrace_directives fun _ => persists_directives
  intro directives cursor
  exact (closes_braced each cursor).finish fun items _ => ⟨_, fun _ _ => rfl⟩

/-- A type has its body in braces, or it leaves the brace. -/
theorem closes_typeBody (kind : TypeKind) : Closes (typeBody kind) := by
  rw [typeBody_eq]
  cases kind with
  | object | interface =>
      apply Closes.after (leavesBrace_introduced (by nofun) (by nofun)) fun _ =>
        persists_introduced .ampersand (by nofun)
      intro interfaces
      apply Closes.after leavesBrace_directives fun _ => persists_directives
      intro directives cursor
      exact (closes_braced (fun _ => persists_fieldDefinition) cursor).finish
        fun fields _ => ⟨_, fun _ _ => rfl⟩
  | union =>
      exact fun cursor => LeavesBraceFrom.closes ((leavesBrace_directives.bind fun _ =>
        (leavesBrace_introduced (by nofun) (by nofun)).bind fun _ => leavesBrace_pure _) cursor)
  | enum => exact closes_bracedBody (fun _ => persists_enumValue) .enum
  | input => exact closes_bracedBody (fun _ => persists_inputValue) .input
  | scalar =>
      exact fun cursor => LeavesBraceFrom.closes
        ((leavesBrace_directives.bind fun _ => leavesBrace_pure _) cursor)

theorem closes_typeDefinition (description : Option Description) :
    Closes (typeDefinition description) := by
  apply Closes.after (leavesBrace_startAfter description) fun _ => persists_startAfter description
  intro start cursor
  refine .after (leavesBrace_kind cursor) (persists_kind cursor (Nat.le_refl _)) ?_
  rintro _ _ ⟨⟩
  split
  · exact closesFrom_of_never_ok nofun
  · next kind isKeyword =>
      have other : cursor.current.kind ≠ .punctuator .braceClose := by
        intro same
        rw [same] at isKeyword
        cases isKeyword
      refine .after (leavesBraceFrom_advance other) (persistsFrom_advance cursor) ?_
      intro _ after _
      refine Closes.after leavesBrace_name (fun _ => persists_name) ?_ after
      intro name
      exact fun between => (closes_typeBody kind between).spanned start

theorem leavesBrace_directiveLocation : LeavesBrace directiveLocation := by
  intro cursor
  refine (leavesBrace_current cursor).bind ?_
  rintro _ _ ⟨⟩
  split
  · next isName _ =>
      exact (leavesBraceFrom_advance (by simp [isName])).bind fun _ _ _ => leavesBrace_pure _ _
  · exact leavesBrace_expected _ cursor

theorem leavesBrace_directiveDefinition (description : Option Description) :
    LeavesBrace (directiveDefinition description) := by
  apply (leavesBrace_startAfter description).bind
  intro start
  apply (leavesBrace_expect (by nofun)).bind
  intro _
  apply (leavesBrace_expect (by nofun)).bind
  intro _
  apply leavesBrace_name.bind
  intro name
  apply (leavesBrace_parenthesized fun _ => persists_inputValue).bind
  intro arguments
  apply (leavesBrace_eat (by nofun)).bind
  intro repeatable
  apply (leavesBrace_expect (by nofun)).bind
  intro _
  apply (leavesBrace_separated _ (by nofun) leavesBrace_directiveLocation).bind
  intro locations
  exact (leavesBrace_spanFrom start).bind fun _ => leavesBrace_pure _

theorem leavesBrace_optionalName : LeavesBrace optionalName :=
  leavesBrace_kind.bind fun _ => leavesBrace_ite leavesBrace_name.map (leavesBrace_pure _)

theorem closesFrom_namedOperation (operation : OperationType)
    (other : cursor.current.kind ≠ .punctuator .braceClose) :
    ClosesFrom cursor (namedOperation operation) (namedOperation operation) := by
  rw [namedOperation_eq]
  refine .after (leavesBrace_startOffset cursor) (persists_startOffset cursor (Nat.le_refl _)) ?_
  rintro start _ ⟨⟩
  refine .after (leavesBraceFrom_advance other) (persistsFrom_advance cursor) ?_
  intro _ after _
  refine Closes.after leavesBrace_optionalName (fun _ => persists_optionalName) ?_ after
  intro name
  apply Closes.after (leavesBrace_parenthesized fun _ => persists_variableDefinition)
    fun _ => persists_enclosedItems _ _ persists_variableDefinition
  intro declared
  apply Closes.after leavesBrace_directives fun _ => persists_directives
  exact fun directives cursor => (closes_selectionSet cursor).spanned _

theorem closes_shorthandQuery : Closes shorthandQuery :=
  .after leavesBrace_startOffset (fun _ => persists_startOffset) fun start cursor =>
    (closes_selectionSet cursor).spanned start

theorem closes_fragmentDefinition : Closes fragmentDefinition := by
  apply Closes.after leavesBrace_startOffset fun _ => persists_startOffset
  intro start
  apply Closes.after (leavesBrace_expect (by nofun)) fun _ => persists_expect (by nofun)
  intro _
  apply Closes.after leavesBrace_kind fun _ => persists_kind
  intro kind
  refine closes_ite (fun _ => closesFrom_of_never_ok nofun) ?_
  apply Closes.after leavesBrace_name fun _ => persists_name
  intro name
  apply Closes.after (leavesBrace_expect (by nofun)) fun _ => persists_expect (by nofun)
  intro _
  apply Closes.after leavesBrace_name fun _ => persists_name
  intro condition
  apply Closes.after leavesBrace_directives fun _ => persists_directives
  exact fun directives cursor => (closes_selectionSet cursor).spanned start

theorem closes_describedDefinition (description : Option Description) :
    Closes (describedDefinition description) := by
  intro cursor
  refine .after (leavesBrace_kind cursor) (persists_kind cursor (Nat.le_refl _)) ?_
  rintro _ _ ⟨⟩
  split
  · exact (closes_schemaDefinition description cursor).map
  · next isExtend =>
      refine .after (leavesBraceFrom_advance (by simp [isExtend])) (persistsFrom_advance cursor) ?_
      exact fun _ after _ => (closes_typeDefinition none after).map
  · exact (leavesBrace_directiveDefinition description cursor).closes.map
  · next isQuery => exact (closesFrom_namedOperation .query (by simp [isQuery])).map
  · next isMutation => exact (closesFrom_namedOperation .mutation (by simp [isMutation])).map
  · next isSubscription =>
      exact (closesFrom_namedOperation .subscription (by simp [isSubscription])).map
  · exact (closes_shorthandQuery cursor).map
  · exact (closes_fragmentDefinition cursor).map
  · split
    · exact (closes_typeDefinition description cursor).map
    · exact closesFrom_of_never_ok nofun

theorem closes_definition : Closes definition :=
  .after leavesBrace_description (fun _ => persists_description) closes_describedDefinition

end Definitions

end Reading

end WiredGraph
