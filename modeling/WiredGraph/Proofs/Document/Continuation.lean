import WiredGraph.Proofs.Document.Parser.Closing
import WiredGraph.Proofs.Document.Parser.Derivation
import WiredGraph.Proofs.Token.Append

/-!
# Documents that go on

A definition that ends with a closing brace cannot go on after it. If a source ends with one and is
read without a fault, its definitions are the first ones of every source that starts with it,
whatever follows and wherever the first fault is in that, with one exception. A token is looked at
when it comes into view, which is when the brace is passed; if it is an invalid one, reading stops
there, and the definition that the brace has just completed is not among those that are kept.
-/

namespace WiredGraph

namespace Reading

variable {cursor last : Cursor} {bound : Nat} {definitions : List Definition}

/-- Reading definitions stops without a fault only at a block string that has no value. -/
theorem misaligned_of_definitionsUpTo {span : Span}
    (failed : (definitionsUpTo bound cursor).2 = .error (.misalignedBlock span)) :
    ∃ token ∈ cursor.ahead, token.IsMisaligned ∧ token.span = span := by
  induction bound generalizing cursor with
  | zero => cases failed
  | succ bound ih =>
      have persists : PersistsFrom true cursor definition definition :=
        persists_definition cursor (Nat.le_refl _)
      rw [definitionsUpTo] at failed
      split at failed
      · cases failed
      · cases read : definition cursor with
        | error halt =>
            rw [read] at failed
            cases failed
            exact persists.misaligned span read
        | ok result =>
            rw [read] at failed
            rcases ih failed with ⟨token, token_mem, misaligned⟩
            exact ⟨token, (persists.passes _ _ read).mem token_mem, misaligned⟩

/-- Definitions that end with a brace, in a source that goes on with further tokens: all of them
are read if the next token may come into view, and all but the last one if it may not. -/
structure ReadOn (larger : Nat) (cursor : Cursor) (definitions : List Definition) (last : Cursor)
    (more : List Token) (finish : Nat) : Prop where
  some_read : definitions ≠ []
  all_read : last.ahead = []
  goesOn : ∀ next, (last.extend more finish).check = .ok next →
    ∃ further, more.length ≤ further ∧
      definitionsUpTo larger (cursor.extend more finish) =
        (definitions ++ (definitionsUpTo further next).1, (definitionsUpTo further next).2)
  stops : ∀ halt, (last.extend more finish).check = .error halt →
    definitionsUpTo larger (cursor.extend more finish) = (definitions.dropLast, .error halt)

/-- One step of reading definitions where a token is in view. -/
theorem definitionsUpTo_succ (visible : cursor.current.kind ≠ .endOfInput) :
    definitionsUpTo (bound + 1) cursor =
      match definition cursor with
      | .error halt => ([], .error halt)
      | .ok (first, next) =>
          (first :: (definitionsUpTo bound next).1, (definitionsUpTo bound next).2) :=
  if_neg visible

theorem definitionsUpTo_of_ended (ended : cursor.ahead = []) (bound : Nat) :
    definitionsUpTo bound cursor = ([], .ok cursor) := by
  have kind : cursor.current.kind = .endOfInput := by rw [Cursor.current, ended]; rfl
  cases bound with
  | zero => rfl
  | succ bound => rw [definitionsUpTo, if_pos kind]

section ReadOn

variable {larger finish : Nat} {more : List Token} {first : Definition} {next : Cursor}

/-- The definition that passes the last brace is the last one. -/
theorem readOn_of_ended (room : more.length ≤ larger) (ends : cursor.EndsWithBrace)
    (visible : (cursor.extend more finish).current.kind ≠ .endOfInput)
    (read : definition cursor = .ok (first, next)) (ended : next.ahead = []) :
    ReadOn (larger + 1) cursor [first] next more finish := by
  have closes := closes_definition cursor first next more finish ends read ended
  refine ⟨List.cons_ne_nil _ _, ended, fun after checked => ?_, fun halt checked => ?_⟩
  · rw [checked] at closes
    rw [definitionsUpTo_succ visible, closes]
    exact ⟨larger, room, rfl⟩
  · rw [checked] at closes
    rw [definitionsUpTo_succ visible, closes]
    rfl

/-- A definition before the last brace is read as it was. -/
theorem ReadOn.cons (visible : (cursor.extend more finish).current.kind ≠ .endOfInput)
    (read : definition cursor = .ok (first, next)) (goesOn : next.ahead ≠ [])
    (readOn : ReadOn larger next definitions last more finish) :
    ReadOn (larger + 1) cursor (first :: definitions) last more finish := by
  have persists : PersistsFrom true cursor definition definition :=
    persists_definition cursor (Nat.le_refl _)
  have carried : definitionsUpTo (larger + 1) (cursor.extend more finish) =
      (first :: (definitionsUpTo larger (next.extend more finish)).1,
        (definitionsUpTo larger (next.extend more finish)).2) := by
    rw [definitionsUpTo_succ visible, persists.carries first next read goesOn more finish]
  refine ⟨List.cons_ne_nil _ _, readOn.all_read, fun after checked => ?_, fun halt checked => ?_⟩
  · rcases readOn.goesOn after checked with ⟨further, enough, same⟩
    exact ⟨further, enough, by rw [carried, same, List.cons_append]⟩
  · rw [carried, readOn.stops halt checked, List.dropLast_cons_of_ne_nil readOn.some_read]

end ReadOn

theorem readOn_of_definitionsUpTo (more : List Token) (finish : Nat) {larger : Nat}
    (fits : cursor.ahead.length ≤ bound)
    (room : cursor.ahead.length + more.length ≤ larger)
    (tokens : ∀ token ∈ cursor.ahead, token.kind ≠ .endOfInput) (ends : cursor.EndsWithBrace)
    (clean : definitionsUpTo bound cursor = (definitions, .ok last)) :
    ReadOn larger cursor definitions last more finish := by
  induction bound generalizing cursor larger definitions with
  | zero => exact absurd (List.length_eq_zero_iff.mp (Nat.le_zero.mp fits)) ends.ahead_ne_nil
  | succ bound ih =>
      have some_ahead := List.length_pos_iff.mpr ends.ahead_ne_nil
      have visible : cursor.current.kind ≠ .endOfInput := by
        rcases List.exists_cons_of_ne_nil ends.ahead_ne_nil with ⟨token, rest, ahead⟩
        have current : cursor.current = token := by rw [Cursor.current, ahead]; rfl
        rw [current]
        exact tokens token (by simp [ahead])
      have stillVisible : (cursor.extend more finish).current.kind ≠ .endOfInput := by
        rwa [Cursor.current_extend more finish ends.ahead_ne_nil]
      obtain ⟨larger, rfl⟩ : ∃ less, larger = less + 1 := ⟨larger - 1, by omega⟩
      rw [definitionsUpTo_succ visible] at clean
      cases read : definition cursor with
      | error halt =>
          rw [read] at clean
          cases clean
      | ok result =>
          rcases result with ⟨first, next⟩
          rw [read] at clean
          obtain ⟨rfl, outcome⟩ := Prod.mk.inj clean
          by_cases ended : next.ahead = []
          · rw [definitionsUpTo_of_ended ended] at outcome ⊢
            obtain rfl := Except.ok.inj outcome
            exact readOn_of_ended (by omega) ends stillVisible read ended
          · have persists : PersistsFrom true cursor definition definition :=
              persists_definition cursor (Nat.le_refl _)
            have fewer := persists.proceeds rfl first next read
            have passes := persists.passes _ _ read
            exact .cons stillVisible read ended <|
              ih (by omega) (by omega) (fun token token_mem => tokens token (passes.mem token_mem))
                (ends.of_suffix passes ended) (Prod.ext rfl outcome)

end Reading

namespace Document

variable {source : List Char} {parsed : ParsedDocument}

/-- A source is parsed without a fault if its definitions are read to its end. -/
theorem readDefinitions_eq_of_parse (parses : parse source = .ok parsed)
    (clean : parsed.fault = none) :
    ∃ last, readDefinitions source = (parsed.document.definitions, .ok last) := by
  rw [parse] at parses
  split at parses
  · next outcome =>
      cases parses
      exact ⟨_, outcome⟩
  · cases parses
    cases clean
  · cases parses

theorem parse_of_readDefinitions {definitions : List Definition} {outcome : Except Halt Cursor}
    (read : readDefinitions source = (definitions, outcome))
    (aligned : ∀ span, outcome ≠ .error (.misalignedBlock span)) :
    ∃ whole, parse source = .ok whole ∧ whole.document.definitions = definitions ∧
      (whole.fault = none ↔ ∃ last, outcome = .ok last) := by
  rw [parse, read]
  rcases outcome with (⟨diagnostic, passed⟩ | span) | last
  · exact ⟨_, rfl, rfl, by simp⟩
  · exact absurd rfl (aligned span)
  · exact ⟨_, rfl, rfl, by simp⟩

/-- The first token after the last one passed may come into view unless it is invalid. -/
theorem check_extend_of_ended {last : Cursor} (ended : last.ahead = []) (more : List Token)
    (finish : Nat) :
    (∃ next, (last.extend more finish).check = .ok next ∧ next.ahead = more ∧
        ∀ first ∈ more.head?, first.kind ≠ .invalid) ∨
      ∃ halt, (last.extend more finish).check = .error halt ∧
        ∃ first ∈ more.head?, first.kind = .invalid := by
  have ahead : (last.extend more finish).ahead = more := by rw [Cursor.extend, ended]; rfl
  cases checked : (last.extend more finish).check with
  | ok next =>
      left
      rcases Cursor.eq_of_check checked with ⟨rfl, valid⟩
      refine ⟨_, rfl, ahead, ?_⟩
      intro first first_mem
      rw [Cursor.current, ahead, first_mem] at valid
      exact valid
  | error halt =>
      right
      refine ⟨halt, rfl, ?_⟩
      by_contra! valid
      rw [Cursor.check_eq_self] at checked
      · cases checked
      · rw [Cursor.current, ahead]
        cases view : more.head? with
        | none => simp
        | some first => exact valid first view

theorem readDefinitions_eq {source : List Char}
    (visible : (startCursor source).current.kind ≠ .invalid) :
    readDefinitions source =
      Reading.definitionsUpTo (Scan.tokens source).length (startCursor source) := by
  rw [readDefinitions, Cursor.check_eq_self visible]
  rfl

theorem valid_of_readDefinitions {definitions : List Definition} {last : Cursor}
    (read : readDefinitions source = (definitions, .ok last)) :
    (startCursor source).current.kind ≠ .invalid := by
  rw [readDefinitions] at read
  split at read
  · cases congrArg Prod.snd read
  · next checked => exact (Cursor.eq_of_check checked).2

/-- How the definitions of a source that ends with a closing brace are read where it goes on. -/
theorem readDefinitions_append {definitions : List Definition} {last : Cursor}
    (read : readDefinitions source = (definitions, .ok last))
    (closed : (Scan.tokens source).getLast?.map Token.kind = some (.punctuator .braceClose))
    (text : List Char) :
    ∃ more, Scan.tokens (source ++ text) = Scan.tokens source ++ more ∧
      ((∃ further next, next.ahead = more ∧ (∀ first ∈ more.head?, first.kind ≠ .invalid) ∧
          readDefinitions (source ++ text) =
            (definitions ++ (Reading.definitionsUpTo further next).1,
              (Reading.definitionsUpTo further next).2)) ∨
        ∃ halt, (∃ first ∈ more.head?, first.kind = .invalid) ∧
          (∀ span, halt ≠ .misalignedBlock span) ∧
          readDefinitions (source ++ text) = (definitions.dropLast, .error halt)) := by
  obtain ⟨more, tokens⟩ : ∃ more, Scan.tokens (source ++ text) = Scan.tokens source ++ more :=
    Scan.exists_tokensFrom_append text closed
  refine ⟨more, tokens, ?_⟩
  have ends : (startCursor source).EndsWithBrace := closed
  have start : startCursor (source ++ text) =
      (startCursor source).extend more (Utf8.length (source ++ text)) :=
    congrArg (fun ahead => (⟨0, ahead, Utf8.length (source ++ text)⟩ : Cursor)) tokens
  have valid := valid_of_readDefinitions read
  have stillValid : (startCursor (source ++ text)).current.kind ≠ .invalid := by
    rwa [start, Cursor.current_extend _ _ ends.ahead_ne_nil]
  have kinds : ∀ token ∈ (startCursor source).ahead, token.kind ≠ .endOfInput :=
    fun token token_mem =>
      (Scan.isScanned_of_mem_lexemes source _ (List.mem_map_of_mem token_mem)).2
  rw [readDefinitions_eq valid] at read
  have readOn := Reading.readOn_of_definitionsUpTo more (Utf8.length (source ++ text))
    (Nat.le_refl _) (Nat.le_refl _) kinds ends read
  have whole := readDefinitions_eq stillValid
  rw [start, tokens, List.length_append] at whole
  rcases check_extend_of_ended readOn.all_read more (Utf8.length (source ++ text)) with
    ⟨next, checked, ahead, noneInvalid⟩ | ⟨halt, checked, invalid⟩
  · rcases readOn.goesOn next checked with ⟨further, -, goesOn⟩
    exact .inl ⟨further, next, ahead, noneInvalid, whole.trans goesOn⟩
  · refine .inr ⟨halt, invalid, ?_, whole.trans (readOn.stops halt checked)⟩
    rintro span rfl
    exact Cursor.check_ne_misaligned _ span checked

/-- A source that ends with a closing brace and has no fault keeps its definitions when it goes on:
they are the first ones of the longer source, unless the token right after the brace is an invalid
one; then they are all of its definitions, without the last one. Only a block string that has no
value, after the brace, keeps the longer source from being parsed. -/
theorem definitions_of_parse_append (parses : parse source = .ok parsed)
    (clean : parsed.fault = none)
    (closed : (Scan.tokens source).getLast?.map Token.kind = some (.punctuator .braceClose))
    (text : List Char) :
    ∃ more, Scan.tokens (source ++ text) = Scan.tokens source ++ more ∧
      ((∃ whole, parse (source ++ text) = .ok whole ∧
          ((∀ first ∈ more.head?, first.kind ≠ .invalid) →
            parsed.document.definitions <+: whole.document.definitions) ∧
          ∀ first ∈ more.head?, first.kind = .invalid →
            whole.document.definitions = parsed.document.definitions.dropLast ∧
              whole.fault ≠ none) ∨
        ∃ token ∈ more, token.IsMisaligned ∧
          parse (source ++ text) = .error ⟨token.span⟩) := by
  rcases readDefinitions_eq_of_parse parses clean with ⟨last, read⟩
  rcases readDefinitions_append read closed text with
    ⟨more, tokens, ⟨further, next, ahead, noneInvalid, whole⟩ | ⟨halt, invalid, aligned, whole⟩⟩
  · refine ⟨more, tokens, ?_⟩
    by_cases misaligned : ∃ span, (Reading.definitionsUpTo further next).2 =
        .error (.misalignedBlock span)
    · right
      rcases misaligned with ⟨span, stopped⟩
      rcases Reading.misaligned_of_definitionsUpTo stopped with
        ⟨token, token_mem, misaligned, rfl⟩
      exact ⟨token, ahead ▸ token_mem, misaligned, by rw [parse, whole, stopped]⟩
    · left
      rcases parse_of_readDefinitions whole fun span stopped => misaligned ⟨span, stopped⟩ with
        ⟨found, parsesFound, definitions, -⟩
      refine ⟨found, parsesFound, fun _ => ⟨_, definitions.symm⟩, ?_⟩
      exact fun first first_mem isInvalid => absurd isInvalid (noneInvalid first first_mem)
  · refine ⟨more, tokens, .inl ?_⟩
    rcases parse_of_readDefinitions whole fun span stopped =>
      aligned span (Except.error.inj stopped) with ⟨found, parsesFound, definitions, ended⟩
    rcases invalid with ⟨first, first_mem, isInvalid⟩
    refine ⟨found, parsesFound, fun valid => absurd isInvalid (valid first first_mem), ?_⟩
    refine fun _ _ _ => ⟨definitions, fun noFault => ?_⟩
    rcases ended.mp noFault with ⟨_, ⟨⟩⟩

/-- A source that ends with a closing brace. -/
def closedType : List Char := "type A \x7b a: Int \x7d".toList

/-- After the brace, an unfinished operation leaves the type as it is, and a character that starts
no token takes it away. -/
theorem definitions_of_parse_append_closedType :
    ∃ parsed, parse closedType = .ok parsed ∧ parsed.fault = none ∧
      parsed.document.definitions.length = 1 ∧
      (Scan.tokens closedType).getLast?.map Token.kind = some (.punctuator .braceClose) ∧
      (∃ whole, parse (closedType ++ " query".toList) = .ok whole ∧
        parsed.document.definitions <+: whole.document.definitions) ∧
      ∃ whole, parse (closedType ++ " ?".toList) = .ok whole ∧ whole.fault ≠ none ∧
        whole.document.definitions = [] := by
  have read : (parse closedType).toOption.any (fun parsed =>
      parsed.fault.isNone && parsed.document.definitions.length == 1) = true := by decide +kernel
  have closed : (Scan.tokens closedType).getLast?.map Token.kind =
      some (.punctuator .braceClose) := by decide +kernel
  have following : ∀ {text : List Char} {more : List Token},
      Scan.tokens (closedType ++ text) = Scan.tokens closedType ++ more →
        more = (Scan.tokens (closedType ++ text)).drop 7 := by
    intro text more tokens
    have seven : (Scan.tokens closedType).length = 7 := by decide +kernel
    rw [tokens, List.drop_left' seven]
  cases parses : parse closedType with
  | error block =>
      rw [parses] at read
      cases read
  | ok parsed =>
      rw [parses] at read
      obtain ⟨clean, one⟩ : parsed.fault = none ∧ parsed.document.definitions.length = 1 := by
        simpa [Except.toOption] using read
      refine ⟨parsed, rfl, clean, one, closed, ?_, ?_⟩
      · rcases definitions_of_parse_append parses clean closed " query".toList with
          ⟨more, tokens, ⟨whole, parsesWhole, kept, -⟩ | ⟨token, token_mem, misaligned, -⟩⟩
        · refine ⟨whole, parsesWhole, kept ?_⟩
          rw [following tokens]
          decide +kernel
        · have noBlock : ∀ token ∈ (Scan.tokens (closedType ++ " query".toList)).drop 7,
              token.kind ≠ .blockString := by decide +kernel
          exact absurd misaligned.1 (noBlock token (following tokens ▸ token_mem))
      · rcases definitions_of_parse_append parses clean closed " ?".toList with
          ⟨more, tokens, ⟨whole, parsesWhole, -, lost⟩ | ⟨token, token_mem, misaligned, -⟩⟩
        · have invalid : ∃ first ∈ more.head?, first.kind = .invalid := by
            rw [following tokens]
            decide +kernel
          rcases invalid with ⟨first, first_mem, isInvalid⟩
          rcases lost first first_mem isInvalid with ⟨definitions, fault⟩
          refine ⟨whole, parsesWhole, fault, ?_⟩
          rw [definitions, ← List.length_eq_zero_iff, List.length_dropLast, one]
        · have noBlock : ∀ token ∈ (Scan.tokens (closedType ++ " ?".toList)).drop 7,
              token.kind ≠ .blockString := by decide +kernel
          exact absurd misaligned.1 (noBlock token (following tokens ▸ token_mem))

end Document

end WiredGraph
