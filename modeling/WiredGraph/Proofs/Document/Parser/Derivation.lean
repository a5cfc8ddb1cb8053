import WiredGraph.Proofs.Document.RoundTrip

/-!
# What is read is derived

A reading that succeeds has passed lexemes that its result derives from, up to spans. `Takes` says
so of a reading from every cursor; the rules for sequences add up what is passed step by step, and
then there is one lemma for each production of the grammar. Every lexeme passed on the way is one
that may stand in a document. Only operations and fragments are followed here: definitions of the
type system have no derivation.
-/

namespace WiredGraph

open Grammar

namespace Lexeme

/-- What a scanned lexeme is known to be by its kind. -/
structure IsScanned (lexeme : Lexeme) : Prop where
  word : lexeme.kind.isName = true → lexeme = .word lexeme.text
  mark : ∀ mark, lexeme.kind = .punctuator mark → lexeme = .mark mark

/-- A lexeme that is no error and can be decoded if it is a text. -/
structure IsRead (lexeme : Lexeme) : Prop where
  valid : lexeme.kind ≠ .invalid
  decodes : lexeme.kind = .string → (Quoted.decodeToken? lexeme.text.toList).isSome = true

theorem isRead_of_other {lexeme : Lexeme} (valid : lexeme.kind ≠ .invalid)
    (noString : lexeme.kind ≠ .string) : lexeme.IsRead :=
  ⟨valid, fun isString => absurd isString noString⟩

theorem isRead_word (text : String) : (word text).IsRead := by
  have isName := word_isName text
  apply isRead_of_other
  all_goals
    intro same
    rw [same] at isName
    cases isName

/-- Every scanned lexeme of a kind is the same one, which may stand in a document. -/
structure IsOnly (one : Lexeme) (kind : TokenKind) : Prop where
  only : ∀ lexeme : Lexeme, lexeme.IsScanned → lexeme.kind = kind → lexeme = one
  goesOn : kind ≠ .endOfInput
  isRead : one.IsRead

theorem isOnly_mark (mark : Punctuator) : (Lexeme.mark mark).IsOnly (.punctuator mark) where
  only _ scanned kind := scanned.mark mark kind
  goesOn := nofun
  isRead := isRead_of_other nofun nofun

theorem isOnly_keyword (keyword : Keyword) : (word keyword.text).IsOnly (.keyword keyword) where
  only lexeme scanned kind := by
    have isWord := scanned.word (by rw [kind]; rfl)
    rw [isWord] at kind ⊢
    rw [text_of_wordKind kind]
  goesOn := nofun
  isRead := isRead_word keyword.text

end Lexeme

theorem Scan.isScanned_of_mem_lexemes (text : List Char) :
    ∀ lexeme ∈ lexemes text, lexeme.IsScanned ∧ lexeme.kind ≠ .endOfInput := by
  apply forall_mem_lexemes
  intro first rest
  refine ⟨⟨fun isName => ?_, fun mark isMark => ?_⟩, fun ended => ?_⟩
  · have genuine := (isGenuine_scan first rest).word isName
    rw [Lexeme.word, ← genuine.2]
  · have kinds := scan_cases first rest
    rw [show (scan first rest).kind = .punctuator mark from isMark] at kinds ⊢
    rcases kinds with ⟨_, ⟨⟩, chars⟩ | ⟨⟨⟩⟩ | others
    · rw [Lexeme.mark, chars]
    · simp at others
  · have kinds := scan_cases first rest
    rw [show (scan first rest).kind = .endOfInput from ended] at kinds
    simp [TokenKind.isName] at kinds

namespace Cursor

/-- The lexemes of the tokens ahead. -/
def lexemes (cursor : Cursor) : List Lexeme := cursor.ahead.map Token.lexeme

/-- The tokens ahead have been scanned, and none of them is a block string. -/
structure Plain (cursor : Cursor) : Prop where
  scanned : ∀ lexeme ∈ cursor.lexemes, lexeme.IsScanned
  goesOn : ∀ lexeme ∈ cursor.lexemes, lexeme.kind ≠ .endOfInput
  noBlock : ∀ lexeme ∈ cursor.lexemes, lexeme.kind ≠ .blockString

variable {cursor next : Cursor}

/-- The token in view is the first one ahead unless it stands for the end. -/
theorem lexemes_eq_cons (goesOn : cursor.current.kind ≠ .endOfInput) :
    cursor.lexemes = cursor.current.lexeme :: (cursor.ahead.drop 1).map Token.lexeme := by
  rcases cursor with ⟨passed, ahead, finish⟩
  cases ahead with
  | nil => exact absurd rfl goesOn
  | cons token ahead => rfl

theorem lexemes_of_ended (plain : cursor.Plain) (ended : cursor.current.kind = .endOfInput) :
    cursor.lexemes = [] := by
  rcases cursor with ⟨passed, ahead, finish⟩
  cases ahead with
  | nil => rfl
  | cons token ahead => exact absurd ended (plain.goesOn token.lexeme (by simp [lexemes]))

theorem Plain.current (plain : cursor.Plain) (goesOn : cursor.current.kind ≠ .endOfInput) :
    cursor.current.lexeme.IsScanned :=
  plain.scanned _ (by simp [lexemes_eq_cons goesOn])

theorem Plain.current_ne_block (plain : cursor.Plain) : cursor.current.kind ≠ .blockString := by
  intro isBlock
  have goesOn : cursor.current.kind ≠ .endOfInput := by
    rw [isBlock]
    exact nofun
  exact plain.noBlock cursor.current.lexeme (by simp [lexemes_eq_cons goesOn]) isBlock

/-- What was passed between two cursors are lexemes of a certain form that may stand in a
document. -/
def Passed (cursor next : Cursor) (Derived : List Lexeme → Prop) : Prop :=
  ∃ taken, cursor.lexemes = taken ++ next.lexemes ∧ (∀ lexeme ∈ taken, lexeme.IsRead) ∧
    Derived taken

theorem Passed.plain {Derived : List Lexeme → Prop} (passed : cursor.Passed next Derived)
    (plain : cursor.Plain) : next.Plain := by
  rcases passed with ⟨taken, whole, -, -⟩
  have fewer : ∀ lexeme ∈ next.lexemes, lexeme ∈ cursor.lexemes := by
    intro lexeme lexeme_mem
    rw [whole]
    exact List.mem_append_right taken lexeme_mem
  exact ⟨fun lexeme lexeme_mem => plain.scanned lexeme (fewer lexeme lexeme_mem),
    fun lexeme lexeme_mem => plain.goesOn lexeme (fewer lexeme lexeme_mem),
    fun lexeme lexeme_mem => plain.noBlock lexeme (fewer lexeme lexeme_mem)⟩

theorem Passed.trans {last : Cursor} {Before After : List Lexeme → Prop}
    (first : cursor.Passed next Before)
    (second : ∀ taken, Before taken → next.Passed last fun later => After (taken ++ later)) :
    cursor.Passed last After := by
  rcases first with ⟨taken, whole, isRead, before⟩
  rcases second taken before with ⟨later, rest, laterRead, after⟩
  refine ⟨taken ++ later, by rw [whole, rest, List.append_assoc], ?_, after⟩
  exact List.forall_mem_append.mpr ⟨isRead, laterRead⟩

theorem Passed.imp {Before After : List Lexeme → Prop} (passed : cursor.Passed next Before)
    (implies : ∀ taken, Before taken → After taken) : cursor.Passed next After := by
  rcases passed with ⟨taken, whole, isRead, before⟩
  exact ⟨taken, whole, isRead, implies taken before⟩

end Cursor

namespace Reading

variable {Part Whole : Type} {cursor : Cursor}

/-- Whatever a reading yields from a cursor derives from the lexemes that it passes. -/
def TakesFrom (cursor : Cursor) (read : Reading Part) (Derived : Part → List Lexeme → Prop) :
    Prop :=
  ∀ part next, cursor.Plain → read cursor = .ok (part, next) → cursor.Passed next (Derived part)

/-- Whatever a reading yields derives from the lexemes that it passes. -/
def Takes (read : Reading Part) (Derived : Part → List Lexeme → Prop) : Prop :=
  ∀ cursor, TakesFrom cursor read Derived

theorem takesFrom_of_plain {read : Reading Part} {Derived : Part → List Lexeme → Prop}
    (takes : cursor.Plain → TakesFrom cursor read Derived) : TakesFrom cursor read Derived :=
  fun part next plain found => takes plain part next plain found

theorem map_eq_ok {read : Reading Part} {change : Part → Whole} {whole : Whole} {last : Cursor}
    (found : (change <$> read) cursor = .ok (whole, last)) :
    ∃ part, read cursor = .ok (part, last) ∧ whole = change part := by
  rw [map_eq_pure_bind] at found
  rcases bind_eq_ok found with ⟨part, between, read, ⟨⟩⟩
  exact ⟨part, read, rfl⟩

section Rules

variable {read : Reading Part} {next : Part → Reading Whole}
  {Between : Part → List Lexeme → Prop} {Derived : Whole → List Lexeme → Prop}

theorem TakesFrom.bind (first : TakesFrom cursor read Between)
    (second : ∀ part taken, Between part taken →
      Takes (next part) fun whole later => Derived whole (taken ++ later)) :
    TakesFrom cursor (read >>= next) Derived := by
  intro whole last plain found
  rcases bind_eq_ok found with ⟨part, between, firstRead, secondRead⟩
  have passed := first part between plain firstRead
  exact passed.trans fun taken holds =>
    second part taken holds between whole last (passed.plain plain) secondRead

theorem Takes.bind (first : Takes read Between)
    (second : ∀ part taken, Between part taken →
      Takes (next part) fun whole later => Derived whole (taken ++ later)) :
    Takes (read >>= next) Derived :=
  fun cursor => (first cursor).bind second

theorem takes_pure {whole : Whole} (derived : Derived whole []) : Takes (pure whole) Derived := by
  rintro cursor _ _ plain ⟨⟩
  exact ⟨[], rfl, by simp, derived⟩

theorem TakesFrom.imp (takes : TakesFrom cursor read Between)
    {Weaker : Part → List Lexeme → Prop}
    (implies : ∀ part taken, Between part taken → Weaker part taken) :
    TakesFrom cursor read Weaker :=
  fun part next plain found => (takes part next plain found).imp (implies part)

theorem Takes.imp (takes : Takes read Between) {Weaker : Part → List Lexeme → Prop}
    (implies : ∀ part taken, Between part taken → Weaker part taken) : Takes read Weaker :=
  fun cursor => (takes cursor).imp implies

theorem TakesFrom.map {change : Part → Whole}
    (takes : TakesFrom cursor read fun part => Derived (change part)) :
    TakesFrom cursor (change <$> read) Derived := by
  intro whole last plain found
  rcases map_eq_ok found with ⟨part, firstRead, rfl⟩
  exact takes part last plain firstRead

theorem takes_expected (wanted : String) : Takes (expected wanted) Derived := nofun

theorem takesFrom_current {next : Token → Reading Whole} :
    TakesFrom cursor (current >>= next) Derived ↔
      TakesFrom cursor (next cursor.current) Derived := Iff.rfl

theorem takesFrom_kind {next : TokenKind → Reading Whole} :
    TakesFrom cursor (kind >>= next) Derived ↔
      TakesFrom cursor (next cursor.current.kind) Derived := Iff.rfl

theorem takesFrom_startOffset {next : Nat → Reading Whole} :
    TakesFrom cursor (startOffset >>= next) Derived ↔
      TakesFrom cursor (next cursor.current.span.start) Derived := Iff.rfl

theorem takes_startOffset {next : Nat → Reading Whole}
    (takes : ∀ start, Takes (next start) Derived) : Takes (startOffset >>= next) Derived :=
  fun cursor => takesFrom_startOffset.mpr (takes cursor.current.span.start cursor)

theorem takes_spanFrom {start : Nat} {next : Span → Reading Whole}
    (takes : ∀ span, Takes (next span) Derived) : Takes (spanFrom start >>= next) Derived :=
  fun cursor => takes ⟨start, max cursor.passed start⟩ cursor

theorem takes_bounded {read : Nat → Reading Whole}
    (takes : ∀ bound, Takes (read bound) Derived) : Takes (bounded read) Derived :=
  fun cursor => takes cursor.ahead.length cursor

end Rules

section Tokens

variable {one : Lexeme} {wanted : TokenKind} {Derived : Part → List Lexeme → Prop}

theorem takesFrom_advance (goesOn : cursor.current.kind ≠ .endOfInput)
    (isRead : cursor.current.lexeme.IsRead) :
    TakesFrom cursor advance fun _ taken => taken = [cursor.current.lexeme] := by
  intro part last plain found
  have ahead : last.ahead = cursor.ahead.drop 1 := by
    change (cursor.next >>= fun next => pure ((), next)) = _ at found
    rw [Cursor.next, Cursor.check] at found
    split at found
    · split at found <;> cases found
    · cases found
      rfl
  refine ⟨[cursor.current.lexeme], ?_, by simpa using isRead, rfl⟩
  rw [Cursor.lexemes_eq_cons goesOn, Cursor.lexemes, ahead]
  rfl

/-- Passing a token of a kind that has only one lexeme. -/
theorem takesFrom_pass (only : one.IsOnly wanted) (isWanted : cursor.current.kind = wanted) :
    TakesFrom cursor advance fun _ taken => taken = [one] := by
  apply takesFrom_of_plain
  intro plain
  have goesOn : cursor.current.kind ≠ .endOfInput := isWanted ▸ only.goesOn
  have same : cursor.current.lexeme = one := only.only _ (plain.current goesOn) isWanted
  rw [← same]
  exact takesFrom_advance goesOn (same ▸ only.isRead)

theorem takes_expect (only : one.IsOnly wanted) :
    Takes (expect wanted) fun _ taken => taken = [one] := by
  intro cursor
  rw [expect, takesFrom_kind]
  split
  · next isWanted => exact takesFrom_pass only isWanted
  · exact takes_expected _ cursor

/-- What is read depends on whether a token is there, and goes on after it if it is. -/
theorem takes_ifEat (only : one.IsOnly wanted) {eaten other : Reading Part}
    (takesEaten : Takes eaten fun part later => Derived part (one :: later))
    (takesOther : Takes other Derived) :
    Takes (do if ← eat wanted then eaten else other) Derived := by
  intro cursor
  rw [eat, bind_assoc, takesFrom_kind]
  split
  · next isWanted =>
      rw [bind_assoc]
      apply (takesFrom_pass only isWanted).bind
      rintro _ _ rfl
      rw [pure_bind, if_pos rfl]
      exact takesEaten
  · rw [pure_bind, if_neg Bool.false_ne_true]
    exact takesOther cursor

theorem takesFrom_name (cursor : Cursor) :
    TakesFrom cursor name fun found taken =>
      taken = [.word found.text] ∧ cursor.current.kind = Lexeme.wordKind found.text := by
  apply takesFrom_of_plain
  intro plain
  rw [name, takesFrom_current]
  split
  · next isName =>
      have goesOn : cursor.current.kind ≠ .endOfInput := by
        intro ended
        rw [ended] at isName
        cases isName
      have word := (plain.current goesOn).word isName
      have isRead : cursor.current.lexeme.IsRead := word ▸ Lexeme.isRead_word _
      apply (takesFrom_advance goesOn isRead).bind
      rintro _ _ rfl
      exact takes_pure ⟨by rw [List.append_nil]; exact congrArg (fun lexeme => [lexeme]) word,
        congrArg Lexeme.kind word⟩
  · exact takes_expected _ cursor

theorem takes_name : Takes name fun found taken => taken = [.word found.text] :=
  fun cursor => (takesFrom_name cursor).imp fun _ _ named => named.1

/-- The text of a token is read without passing the token. -/
theorem takesFrom_quotedText {token : Token} {next : String → Reading Part}
    (takes : ∀ decoded, Quoted.decodeToken? token.text.toList = some decoded →
      TakesFrom cursor (next (String.ofList decoded)) Derived) :
    TakesFrom cursor (quotedText token >>= next) Derived := by
  unfold quotedText
  split
  · next decoded decodes =>
      rw [pure_bind]
      exact takes decoded decodes
  · exact nofun

/-- A string token in view is passed as what it can be decoded to. -/
theorem takesFrom_string {decoded : List Char} (isString : cursor.current.kind = .string)
    (decodes : Quoted.decodeToken? cursor.current.text.toList = some decoded) :
    TakesFrom cursor advance fun _ taken => taken = [⟨.string, cursor.current.text⟩] := by
  have same : cursor.current.lexeme = ⟨.string, cursor.current.text⟩ := by
    rw [← isString]
    rfl
  have isRead : cursor.current.lexeme.IsRead := by
    rw [same]
    exact ⟨nofun, fun _ => Option.isSome_iff_exists.mpr ⟨decoded, decodes⟩⟩
  rw [← same]
  exact takesFrom_advance (by rw [isString]; exact nofun) isRead

/-- A number in view is passed with its digits. -/
theorem takesFrom_number {kind : TokenKind} (isNumber : cursor.current.kind = kind)
    (number : kind = .int ∨ kind = .float) :
    TakesFrom cursor advance fun _ taken => taken = [⟨kind, cursor.current.text⟩] := by
  subst isNumber
  have isRead : cursor.current.lexeme.IsRead := by
    apply Lexeme.isRead_of_other
    all_goals
      intro same
      change cursor.current.kind = _ at same
      rw [same] at number
      simp at number
  refine takesFrom_advance ?_ isRead
  intro ended
  rw [ended] at number
  simp at number

end Tokens

section Lists

variable {read : Reading Part} {item : Part → List Lexeme → Prop} {content : Part → Part}

theorem takes_itemsUpTo (takes : Takes read fun part taken => item (content part) taken)
    (close : Punctuator) (bound : Nat) :
    Takes (itemsUpTo close read bound) fun parts taken => Many item (parts.map content) taken := by
  induction bound with
  | zero => exact takes_pure .nil
  | succ bound ih =>
      intro cursor
      rw [itemsUpTo, takesFrom_kind]
      split
      · exact takes_pure .nil cursor
      · apply (takes cursor).bind
        intro first taken derived
        apply ih.bind
        intro rest later many
        refine takes_pure ?_
        rw [List.append_nil]
        exact .cons derived many

theorem takes_itemsUntil (takes : Takes read fun part taken => item (content part) taken)
    (close : Punctuator) :
    Takes (itemsUntil close read) fun parts taken =>
      ∃ inside, taken = inside ++ [.mark close] ∧ Many item (parts.map content) inside := by
  apply (takes_bounded (takes_itemsUpTo takes close)).bind
  intro parts inside many
  apply (takes_expect (Lexeme.isOnly_mark close)).bind
  rintro _ _ rfl
  exact takes_pure ⟨inside, by rw [List.append_nil], many⟩

theorem takes_spannedItems {Whole : Type} {whole : List Part → Span → Whole}
    {Derived : Whole → List Lexeme → Prop}
    (takes : Takes read fun part taken => item (content part) taken) (close : Punctuator)
    (start : Nat)
    (derived : ∀ parts span inside, Many item (parts.map content) inside →
      Derived (whole parts span) (inside ++ [.mark close])) :
    Takes (spannedItems close read whole start) Derived := by
  apply (takes_itemsUntil takes close).bind
  rintro parts _ ⟨inside, rfl, many⟩
  apply takes_spanFrom
  intro span
  refine takes_pure ?_
  rw [List.append_nil]
  exact derived parts span inside many

theorem takes_parenthesized (takes : Takes read fun part taken => item (content part) taken) :
    Takes (enclosedItems .parenOpen .parenClose read) fun parts taken =>
      Parenthesized item (parts.map content) taken := by
  refine takes_ifEat (Lexeme.isOnly_mark .parenOpen) ?_ (takes_pure .absent)
  apply (takes_itemsUntil takes .parenClose).imp
  rintro parts _ ⟨inside, rfl, many⟩
  exact .present many

end Lists

section Values

theorem takes_typeBase {bound : Nat}
    (takes : Takes (typeUpTo bound) fun found taken => found.content.DerivedFrom taken)
    (start : Nat) :
    Takes (typeBase bound start) fun found taken => found.content.BaseDerivedFrom taken := by
  refine takes_ifEat (Lexeme.isOnly_mark .bracketOpen) ?_ ?_
  · apply takes.bind
    intro item inside derived
    apply (takes_expect (Lexeme.isOnly_mark .bracketClose)).bind
    rintro _ _ rfl
    exact takes_spanFrom fun span => takes_pure (.list derived)
  · apply takes_name.bind
    rintro found _ rfl
    exact takes_pure (.named found.text)

theorem takes_typeUpTo (bound : Nat) :
    Takes (typeUpTo bound) fun found taken => found.content.DerivedFrom taken := by
  induction bound with
  | zero => exact takes_expected _
  | succ bound ih =>
      rw [typeUpTo_succ]
      apply takes_startOffset
      intro start
      apply (takes_typeBase ih start).bind
      intro base taken derived
      refine takes_ifEat (Lexeme.isOnly_mark .bang) ?_ ?_
      · exact takes_spanFrom fun span => takes_pure (.nonNull derived)
      · refine takes_pure ?_
        rw [List.append_nil]
        exact .base derived

theorem takes_type : Takes type fun found taken => found.content.DerivedFrom taken :=
  takes_bounded takes_typeUpTo

theorem takes_objectField {read : Reading Value}
    (takes : Takes read fun found taken => (found.content id).DerivedFrom taken) :
    Takes (objectField read) fun found taken => (found.content id).DerivedFrom taken := by
  apply takes_startOffset
  intro start
  apply takes_name.bind
  rintro found _ rfl
  apply (takes_expect (Lexeme.isOnly_mark .colon)).bind
  rintro _ _ rfl
  apply takes.bind
  intro value taken derived
  apply takes_spanFrom
  intro span
  refine takes_pure ?_
  rw [List.append_nil]
  exact .mk found.text derived

/-- A word in view that is no value of its own is an enum value. -/
theorem takesFrom_enum (noTrue : cursor.current.kind ≠ .keyword .true)
    (noFalse : cursor.current.kind ≠ .keyword .false)
    (noNull : cursor.current.kind ≠ .keyword .null) :
    TakesFrom cursor (do return Value.enum (← name)) fun found taken =>
      (found.content id).DerivedFrom taken := by
  apply (takesFrom_name cursor).bind
  rintro found _ ⟨rfl, sameKind⟩
  refine takes_pure (.enum ?_)
  intro word
  rcases (by simpa [Value.words] using word : found.text = "true" ∨ found.text = "false" ∨
    found.text = "null") with same | same | same
  · exact noTrue (sameKind.trans (same ▸ Lexeme.wordKind_keyword .true))
  · exact noFalse (sameKind.trans (same ▸ Lexeme.wordKind_keyword .false))
  · exact noNull (sameKind.trans (same ▸ Lexeme.wordKind_keyword .null))

theorem takes_valueUpTo (bound : Nat) :
    Takes (valueUpTo bound) fun found taken => (found.content id).DerivedFrom taken := by
  induction bound with
  | zero => exact takes_expected _
  | succ bound ih =>
      intro cursor
      rw [valueUpTo, takesFrom_current]
      split
      · next isDollar =>
          apply (takesFrom_pass (Lexeme.isOnly_mark .dollar) isDollar).bind
          rintro _ _ rfl
          apply takes_name.bind
          rintro found _ rfl
          exact takes_pure (.var found.text)
      · next isInt =>
          apply (takesFrom_number isInt (.inl rfl)).bind
          rintro _ _ rfl
          exact takes_pure (.int _)
      · next isFloat =>
          apply (takesFrom_number isFloat (.inr rfl)).bind
          rintro _ _ rfl
          exact takes_pure (.float _)
      · next isString =>
          apply takesFrom_quotedText
          intro decoded decodes
          apply (takesFrom_string isString decodes).bind
          rintro _ _ rfl
          exact takes_pure (.string decodes)
      · next isBlock => exact takesFrom_of_plain fun plain => absurd isBlock plain.current_ne_block
      · next isTrue =>
          apply (takesFrom_pass (Lexeme.isOnly_keyword .true) isTrue).bind
          rintro _ _ rfl
          exact takes_pure (.boolean true)
      · next isFalse =>
          apply (takesFrom_pass (Lexeme.isOnly_keyword .false) isFalse).bind
          rintro _ _ rfl
          exact takes_pure (.boolean false)
      · next isNull =>
          apply (takesFrom_pass (Lexeme.isOnly_keyword .null) isNull).bind
          rintro _ _ rfl
          exact takes_pure .null
      · next isOpen =>
          apply (takesFrom_pass (Lexeme.isOnly_mark .bracketOpen) isOpen).bind
          rintro _ _ rfl
          apply takes_spannedItems ih
          intro items span inside many
          rw [Value.content, Value.contentEach_eq_map]
          exact .list many
      · next isOpen =>
          apply (takesFrom_pass (Lexeme.isOnly_mark .braceOpen) isOpen).bind
          rintro _ _ rfl
          apply takes_spannedItems (takes_objectField ih)
          intro fields span inside many
          rw [Value.content, ObjectField.contentEach_eq_map]
          exact .object many
      · next noTrue noFalse noNull _ _ =>
          split
          · exact takesFrom_enum noTrue noFalse noNull
          · exact takes_expected _ cursor

theorem takes_value : Takes value fun found taken => (found.content id).DerivedFrom taken :=
  takes_bounded takes_valueUpTo

theorem takes_argument :
    Takes argument fun found taken => (found.content id).DerivedFrom taken := by
  apply takes_startOffset
  intro start
  apply takes_name.bind
  rintro found _ rfl
  apply (takes_expect (Lexeme.isOnly_mark .colon)).bind
  rintro _ _ rfl
  apply takes_value.bind
  intro value taken derived
  apply takes_spanFrom
  intro span
  refine takes_pure ?_
  rw [List.append_nil]
  exact .mk found.text derived

theorem takes_arguments :
    Takes arguments fun found taken =>
      Parenthesized Argument.DerivedFrom (found.map (Argument.content id)) taken :=
  takes_parenthesized takes_argument

theorem takes_directivesUpTo (bound : Nat) :
    Takes (directivesUpTo bound) fun found taken =>
      Many Directive.DerivedFrom (found.map (Directive.content id)) taken := by
  induction bound with
  | zero => exact takes_pure .nil
  | succ bound ih =>
      apply takes_startOffset
      intro start
      refine takes_ifEat (Lexeme.isOnly_mark .at) ?_ (takes_pure .nil)
      apply takes_name.bind
      rintro found _ rfl
      apply takes_arguments.bind
      intro arguments taken derived
      apply takes_spanFrom
      intro span
      apply ih.bind
      intro rest later many
      refine takes_pure ?_
      rw [List.append_nil]
      exact .cons (.mk found.text derived) many

theorem takes_directives :
    Takes directives fun found taken =>
      Many Directive.DerivedFrom (found.map (Directive.content id)) taken :=
  takes_bounded takes_directivesUpTo

end Values

section Selections

variable {limit : Nat} {readSet : Reading SelectionSet}

theorem takes_optionalSet
    (takes : Takes readSet fun found taken => (found.content id).DerivedFrom taken) :
    Takes (optionalSet readSet) fun found taken =>
      Optional SelectionSet.DerivedFrom (found.map (SelectionSet.content id)) taken := by
  intro cursor
  rw [optionalSet, takesFrom_kind]
  split
  · exact ((takes cursor).imp fun _ _ => .present).map
  · exact takes_pure .absent cursor

theorem takes_fieldRest
    (takes : Takes readSet fun found taken => (found.content id).DerivedFrom taken) (start : Nat)
    {aliasName : Option Name} {aliasLexemes : List Lexeme}
    (aliasDerived : Optional Name.AliasDerivedFrom (aliasName.map Name.content) aliasLexemes)
    (name : Name) :
    Takes (fieldRest readSet start aliasName name) fun found taken =>
      (found.content id).DerivedFrom (aliasLexemes ++ .word name.text :: taken) := by
  apply takes_arguments.bind
  intro arguments argumentLexemes argumentsDerived
  apply takes_directives.bind
  intro directives directiveLexemes many
  apply (takes_optionalSet takes).bind
  intro set setLexemes setDerived
  apply takes_spanFrom
  intro span
  refine takes_pure ?_
  rw [List.append_nil, Selection.content_field]
  exact .field name.text aliasDerived argumentsDerived many setDerived

theorem takes_fieldSelection
    (takes : Takes readSet fun found taken => (found.content id).DerivedFrom taken) :
    Takes (fieldSelection readSet) fun found taken => (found.content id).DerivedFrom taken := by
  rw [fieldSelection_eq]
  apply takes_startOffset
  intro start
  apply takes_name.bind
  rintro first _ rfl
  refine takes_ifEat (Lexeme.isOnly_mark .colon) ?_ ?_
  · have aliasDerived : Optional Name.AliasDerivedFrom ((some first).map Name.content)
        [.word first.text, .mark .colon] := .present (.word first.text)
    apply takes_name.bind
    rintro name _ rfl
    exact takes_fieldRest takes start aliasDerived name
  · have aliasDerived : Optional Name.AliasDerivedFrom ((none : Option Name).map Name.content)
        [] := .absent
    exact takes_fieldRest takes start aliasDerived first

theorem takes_optionalCondition :
    Takes optionalCondition fun found taken =>
      Optional (After (.word "on") Name.DerivedFrom) (found.map Name.content) taken := by
  refine takes_ifEat (Lexeme.isOnly_keyword .on) ?_ (takes_pure .absent)
  intro cursor
  apply TakesFrom.map
  apply (takes_name cursor).imp
  rintro found _ rfl
  exact .present (.mk (.word found.text))

theorem takes_afterSpread
    (takes : Takes readSet fun found taken => (found.content id).DerivedFrom taken) (start : Nat) :
    Takes (afterSpread readSet start) fun found taken =>
      (found.content id).DerivedFrom (.mark .spread :: taken) := by
  intro cursor
  rw [afterSpread, takesFrom_kind]
  split
  · next isFragment =>
      apply (takesFrom_name cursor).bind
      rintro name _ ⟨rfl, sameKind⟩
      have noCondition : name.text ≠ "on" := by
        intro same
        exact isFragment.2 (sameKind.trans (same ▸ Lexeme.wordKind_keyword .on))
      apply takes_directives.bind
      intro directives directiveLexemes many
      apply takes_spanFrom
      intro span
      refine takes_pure ?_
      rw [List.append_nil]
      exact .spread noCondition many
  · apply (takes_optionalCondition cursor).bind
    intro condition conditionLexemes conditionDerived
    apply takes_directives.bind
    intro directives directiveLexemes many
    apply takes.bind
    intro set setLexemes setDerived
    apply takes_spanFrom
    intro span
    refine takes_pure ?_
    rw [List.append_nil]
    exact .inline conditionDerived many setDerived

theorem takes_selection
    (takes : Takes readSet fun found taken => (found.content id).DerivedFrom taken) :
    Takes (selection readSet) fun found taken => (found.content id).DerivedFrom taken := by
  rw [selection_eq]
  apply takes_startOffset
  intro start
  exact takes_ifEat (Lexeme.isOnly_mark .spread) (takes_afterSpread takes start)
    (takes_fieldSelection takes)

theorem takes_selectionSetUpTo (bound : Nat) :
    Takes (selectionSetUpTo bound) fun found taken => (found.content id).DerivedFrom taken := by
  induction bound with
  | zero => exact takes_expected _
  | succ bound ih =>
      apply takes_startOffset
      intro start
      apply (takes_expect (Lexeme.isOnly_mark .braceOpen)).bind
      rintro _ _ rfl
      apply takes_spannedItems (takes_selection ih)
      intro selections span inside many
      rw [SelectionSet.content, Selection.contentEach_eq_map]
      exact .mk many

theorem takes_selectionSet :
    Takes selectionSet fun found taken => (found.content id).DerivedFrom taken :=
  takes_bounded takes_selectionSetUpTo

end Selections

section Definitions

theorem takes_optionalDefault :
    Takes optionalDefault fun found taken =>
      Optional (After (.mark .equals) Value.DerivedFrom) (found.map (Value.content id)) taken := by
  refine takes_ifEat (Lexeme.isOnly_mark .equals) ?_ (takes_pure .absent)
  intro cursor
  exact ((takes_value cursor).imp fun _ _ derived => .present (.mk derived)).map

theorem takes_variableDefinition :
    Takes variableDefinition fun found taken => (found.content id).DerivedFrom taken := by
  rw [variableDefinition_eq]
  apply takes_startOffset
  intro start
  apply (takes_expect (Lexeme.isOnly_mark .dollar)).bind
  rintro _ _ rfl
  apply takes_name.bind
  rintro name _ rfl
  apply (takes_expect (Lexeme.isOnly_mark .colon)).bind
  rintro _ _ rfl
  apply takes_type.bind
  intro type typeLexemes typeDerived
  apply takes_optionalDefault.bind
  intro default defaultLexemes defaultDerived
  apply takes_directives.bind
  intro directives directiveLexemes many
  apply takes_spanFrom
  intro span
  refine takes_pure ?_
  simp only [List.append_nil, List.cons_append, List.nil_append]
  exact .mk name.text typeDerived defaultDerived many

theorem takes_optionalName :
    Takes optionalName fun found taken =>
      Optional Name.DerivedFrom (found.map Name.content) taken := by
  intro cursor
  rw [optionalName, takesFrom_kind]
  split
  · apply TakesFrom.map
    apply (takes_name cursor).imp
    rintro found _ rfl
    exact .present (.word found.text)
  · exact takes_pure .absent cursor

/-- An operation is read from the keyword that it starts with. -/
theorem takesFrom_namedOperation {operation : OperationType} {keyword : Keyword}
    (isKeyword : cursor.current.kind = .keyword keyword) (word : keyword.text = operation.text) :
    TakesFrom cursor (namedOperation operation) fun found taken =>
      (found.content id).DerivedFrom taken := by
  rw [namedOperation_eq, takesFrom_startOffset]
  apply (takesFrom_pass (Lexeme.isOnly_keyword keyword) isKeyword).bind
  rintro _ _ rfl
  apply takes_optionalName.bind
  intro name nameLexemes nameDerived
  apply (takes_parenthesized takes_variableDefinition).bind
  intro declared variableLexemes variablesDerived
  apply takes_directives.bind
  intro directives directiveLexemes many
  apply takes_selectionSet.bind
  intro set setLexemes setDerived
  apply takes_spanFrom
  intro span
  refine takes_pure ?_
  simp only [List.append_nil, List.cons_append, List.nil_append, word]
  exact .named operation nameDerived variablesDerived many setDerived

theorem takes_shorthandQuery :
    Takes shorthandQuery fun found taken => (found.content id).DerivedFrom taken := by
  apply takes_startOffset
  intro start
  apply takes_selectionSet.bind
  intro set setLexemes setDerived
  apply takes_spanFrom
  intro span
  refine takes_pure ?_
  rw [List.append_nil]
  exact .shorthand setDerived

theorem takes_fragmentDefinition :
    Takes fragmentDefinition fun found taken => (found.content id).DerivedFrom taken := by
  apply takes_startOffset
  intro start
  apply (takes_expect (Lexeme.isOnly_keyword .fragment)).bind
  rintro _ _ rfl cursor
  rw [takesFrom_kind]
  split
  · exact nofun
  · next notOn =>
      apply (takesFrom_name cursor).bind
      rintro name _ ⟨rfl, sameKind⟩
      have noCondition : name.text ≠ "on" := by
        intro same
        exact notOn (sameKind.trans (same ▸ Lexeme.wordKind_keyword .on))
      apply (takes_expect (Lexeme.isOnly_keyword .on)).bind
      rintro _ _ rfl
      apply takes_name.bind
      rintro condition _ rfl
      apply takes_directives.bind
      intro directives directiveLexemes many
      apply takes_selectionSet.bind
      intro set setLexemes setDerived
      apply takes_spanFrom
      intro span
      refine takes_pure ?_
      simp only [List.append_nil, List.cons_append, List.nil_append]
      exact .mk condition.text noCondition many setDerived

theorem takes_description :
    Takes description fun _ taken =>
      taken = [] ∨ ∃ written decoded, Quoted.decodeToken? written.toList = some decoded ∧
        taken = [⟨.string, written⟩] := by
  intro cursor
  rw [description, takesFrom_current]
  split
  · next isString =>
      apply takesFrom_quotedText
      intro decoded decodes
      apply (takesFrom_string isString decodes).bind
      rintro _ _ rfl
      exact takes_pure (.inr ⟨_, decoded, decodes, rfl⟩)
  · next isBlock => exact takesFrom_of_plain fun plain => absurd isBlock plain.current_ne_block
  · exact takes_pure (.inl rfl) cursor

/-- An operation or a fragment that is read derives from the lexemes that are passed. -/
def TakesExecutable (cursor : Cursor) (read : Reading Definition) : Prop :=
  ∀ found next, cursor.Plain → read cursor = .ok (found, next) → found.isExecutable = true →
    cursor.Passed next (found.content id).DerivedFrom

theorem takesExecutable_kind {next : TokenKind → Reading Definition} :
    TakesExecutable cursor (kind >>= next) ↔
      TakesExecutable cursor (next cursor.current.kind) := Iff.rfl

theorem TakesFrom.executable {read : Reading Part} {change : Part → Definition}
    (takes : TakesFrom cursor read fun part => ((change part).content id).DerivedFrom) :
    TakesExecutable cursor (change <$> read) := by
  have mapped : TakesFrom cursor (change <$> read) fun found => (found.content id).DerivedFrom :=
    TakesFrom.map takes
  exact fun found next plain done _ => mapped found next plain done

/-- Nothing is asked of definitions of the type system. -/
theorem takesExecutable_of_other {read : Reading Part} {change : Part → Definition}
    (other : ∀ part, (change part).isExecutable = false) :
    TakesExecutable cursor (change <$> read) := by
  intro found next _ done executable
  rcases map_eq_ok done with ⟨part, -, rfl⟩
  rw [other part] at executable
  cases executable

theorem takesExecutable_describedDefinition (description : Option Description) :
    TakesExecutable cursor (describedDefinition description) := by
  rw [describedDefinition, takesExecutable_kind]
  split
  · exact takesExecutable_of_other fun _ => rfl
  · intro found next plain done executable
    rcases bind_eq_ok done with ⟨_, between, -, extensionRead⟩
    rcases map_eq_ok extensionRead with ⟨addition, -, rfl⟩
    cases executable
  · exact takesExecutable_of_other fun _ => rfl
  · next isKeyword =>
      exact ((takesFrom_namedOperation isKeyword rfl).imp fun _ _ => .operation).executable
  · next isKeyword =>
      exact ((takesFrom_namedOperation isKeyword rfl).imp fun _ _ => .operation).executable
  · next isKeyword =>
      exact ((takesFrom_namedOperation isKeyword rfl).imp fun _ _ => .operation).executable
  · exact ((takes_shorthandQuery cursor).imp fun _ _ => .operation).executable
  · exact ((takes_fragmentDefinition cursor).imp fun _ _ => .fragment).executable
  · split
    · exact takesExecutable_of_other fun _ => rfl
    · intro found next _ done
      cases done

variable {found : Definition} {next : Cursor}

theorem passed_of_definition (plain : cursor.Plain)
    (read : definition cursor = .ok (found, next)) (executable : found.isExecutable = true) :
    cursor.Passed next (found.content id).DescribedFrom := by
  rw [definition_eq] at read
  rcases bind_eq_ok read with ⟨description, between, descriptionRead, definitionRead⟩
  have described := takes_description cursor description between plain descriptionRead
  have derived :=
    takesExecutable_describedDefinition description found next (described.plain plain)
      definitionRead executable
  apply described.trans
  rintro _ (rfl | ⟨written, decoded, decodes, rfl⟩)
  · exact derived.imp fun _ => .plain
  · exact derived.imp fun _ => .described decodes

/-- Executable definitions that are read to the end derive from all that was ahead. -/
theorem derived_of_definitionsUpTo {bound : Nat} {definitions : List Definition} {last : Cursor}
    (plain : cursor.Plain) (enough : cursor.lexemes.length ≤ bound)
    (read : definitionsUpTo bound cursor = (definitions, .ok last))
    (executable : ∀ found ∈ definitions, found.isExecutable = true) :
    (∀ lexeme ∈ cursor.lexemes, lexeme.IsRead) ∧
      Document.DerivedFrom (definitions.map (Definition.content id)) cursor.lexemes := by
  induction bound generalizing cursor definitions with
  | zero =>
      cases read
      rw [List.length_eq_zero_iff.mp (Nat.le_zero.mp enough)]
      exact ⟨by simp, .nil⟩
  | succ bound ih =>
      rw [definitionsUpTo] at read
      split at read
      · next ended =>
          cases read
          rw [Cursor.lexemes_of_ended plain ended]
          exact ⟨by simp, .nil⟩
      · split at read
        · cases read
        · next found next definitionRead =>
            rcases Prod.mk.inj read with ⟨rfl, outcome⟩
            rcases List.forall_mem_cons.mp executable with ⟨here, later⟩
            have passed := passed_of_definition plain definitionRead here
            have stillPlain := passed.plain plain
            rcases passed with ⟨taken, whole, isRead, derived⟩
            have shorter : next.lexemes.length ≤ bound := by
              have positive := List.length_pos_iff.mpr derived.ne_nil
              rw [whole, List.length_append] at enough
              omega
            rcases ih stillPlain shorter (Prod.ext rfl outcome) later with ⟨restRead, many⟩
            rw [whole]
            exact ⟨List.forall_mem_append.mpr ⟨isRead, restRead⟩, .cons derived many⟩

end Definitions

end Reading

end WiredGraph
