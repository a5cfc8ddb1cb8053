import WiredGraph.Proofs.Token.Lexeme

/-!
# Tokens of a text that goes on

What stands after a text can change how its last tokens are scanned: a word may go on, two points
may become three, a string may end. None of this reaches back over a closing brace. If the last
token of a text is a closing brace, the tokens of the text are therefore the first ones of every
text that starts with it.
-/

namespace WiredGraph

namespace Scan

section Pieces

variable {text : List Char} (tail : List Char)

theorem splitIgnored_append_of_found {inComment : Bool} {skipped rest : List Char} {first : Char}
    (found : splitIgnored inComment text = (skipped, first :: rest)) :
    splitIgnored inComment (text ++ tail) = (skipped, first :: (rest ++ tail)) := by
  induction text generalizing inComment skipped with
  | nil => simp [splitIgnored] at found
  | cons char later ih =>
      rw [splitIgnored] at found
      rw [List.cons_append, splitIgnored]
      split at found
      · next ignored =>
          rw [if_pos ignored]
          obtain ⟨rfl, left⟩ := Prod.mk.inj found
          rw [ih (Prod.ext rfl left)]
      · next visible =>
          rw [if_neg visible]
          obtain ⟨rfl, rfl, rfl⟩ : [] = skipped ∧ char = first ∧ later = rest := by
            simpa using found
          rfl

/-- A run of characters that ends before the end of a text does not go on. -/
theorem run_append_of_left {test : Char → Bool} (left : text.dropWhile test ≠ []) :
    (text ++ tail).takeWhile test = text.takeWhile test ∧
      (text ++ tail).dropWhile test = text.dropWhile test ++ tail := by
  induction text with
  | nil => exact absurd rfl left
  | cons char rest ih =>
      cases passes : test char with
      | false => simp [passes]
      | true =>
          rw [List.dropWhile_cons, if_pos passes] at left
          simp [passes, ih left]

theorem sign_append_of_left {signs : List Char} (left : (sign signs text).2 ≠ []) :
    sign signs (text ++ tail) = ((sign signs text).1, (sign signs text).2 ++ tail) := by
  cases text with
  | nil => exact absurd rfl left
  | cons char rest =>
      simp only [List.cons_append, sign]
      split <;> rfl

/-- A fraction is found or not by the two characters that may start it. -/
theorem fraction_append_of_left (left : '}' ∈ (fraction text).2) :
    fraction (text ++ tail) = ((fraction text).1, (fraction text).2 ++ tail) := by
  match text with
  | [] => simp [fraction] at left
  | [char] =>
      by_cases point : char = '.'
      · subst point
        simp [fraction] at left
      · simp [fraction, point]
  | char :: second :: rest =>
      by_cases point : char = '.'
      · subst point
        simp only [List.cons_append, fraction] at left ⊢
        split
        · next digit =>
            rw [if_pos digit] at left
            have more : rest.dropWhile Char.isDigit ≠ [] := List.ne_nil_of_mem left
            rw [(run_append_of_left tail more).1, (run_append_of_left tail more).2]
        · rfl
      · simp [fraction, point]

/-- A string body is closed, or ends with its line, by what stands before its end. -/
theorem stringBody_append_of_left (left : (stringBody text).2.2 ≠ []) :
    stringBody (text ++ tail) =
      ((stringBody text).1, (stringBody text).2.1, (stringBody text).2.2 ++ tail) := by
  have notEscape : ∀ {char : Char} {rest : List Char}, (char = '\\' → rest = [] → False) →
      (∀ escaped later, char = '\\' → rest = escaped :: later → False) → char ≠ '\\' := by
    intro char rest notLast notEscaping same
    cases rest with
    | nil => exact notLast same rfl
    | cons escaped later => exact notEscaping escaped later same rfl
  fun_induction stringBody text with
  | case1 => exact absurd rfl left
  | case2 => exact absurd rfl left
  | case3 => simp_all [stringBody]
  | case4 => simp_all [stringBody]
  | case5 char rest notLast notEscaping => simp_all [stringBody, notEscape notLast notEscaping]
  | case6 char rest notLast notEscaping => simp_all [stringBody, notEscape notLast notEscaping]

/-- The marks that close a block string stand in its body. -/
theorem three_le_length_of_blockBody (left : (blockBody text).2.2 ≠ []) : 3 ≤ text.length := by
  fun_induction blockBody text with
  | case1 => exact absurd rfl left
  | case2 => simp
  | case3 => simp
  | case4 char rest _ _ closed taken later body ih =>
      rw [body] at ih
      exact (ih left).trans (by simp)

/-- Three more characters are in view wherever the marks are looked for, so that text behind them
makes no difference. -/
theorem blockBody_append_of_left (left : (blockBody text).2.2 ≠ []) :
    blockBody (text ++ tail) =
      ((blockBody text).1, (blockBody text).2.1, (blockBody text).2.2 ++ tail) := by
  fun_induction blockBody text with
  | case1 => exact absurd rfl left
  | case2 => simp_all [blockBody]
  | case3 => simp_all [blockBody]
  | case4 char rest notMarks notEscape closed taken later body ih =>
      rw [body] at ih
      have enough : 3 ≤ rest.length :=
        three_le_length_of_blockBody (by rw [body]; exact left)
      obtain ⟨first, second, third, further, rfl⟩ :
          ∃ first second third further, rest = first :: second :: third :: further := by
        match rest, enough with
        | first :: second :: third :: further, _ => exact ⟨first, second, third, further, rfl⟩
      have step := ih left
      simp only [List.cons_append] at step ⊢
      rw [blockBody.eq_4, step]
      · rintro rest rfl same
        obtain ⟨rfl, rfl, -⟩ := by simpa using same
        exact notMarks _ rfl rfl
      · rintro rest rfl same
        obtain ⟨rfl, rfl, rfl, -⟩ := by simpa using same
        exact notEscape _ rfl rfl

end Pieces

section Tokens

variable (tail : List Char)

theorem name_append_of_left {text : List Char} (left : (name text).rest ≠ []) :
    name (text ++ tail) = ⟨(name text).kind, (name text).chars, (name text).rest ++ tail⟩ := by
  have more : text.dropWhile continuesName ≠ [] := left
  have run := run_append_of_left tail more
  simp only [name, run.1, run.2]

theorem mem_of_mem_sign {signs text : List Char} {char : Char}
    (char_mem : char ∈ (sign signs text).2) : char ∈ text :=
  sign_append signs text ▸ List.mem_append_right _ char_mem

theorem mem_of_mem_fraction {text : List Char} {char : Char}
    (char_mem : char ∈ (fraction text).2) : char ∈ text :=
  fraction_append text ▸ List.mem_append_right _ char_mem

theorem mem_of_mem_dropWhile {test : Char → Bool} {text : List Char} {char : Char}
    (char_mem : char ∈ text.dropWhile test) : char ∈ text :=
  (List.dropWhile_sublist test).mem char_mem

/-- The brace stands after each piece of a number, so no piece goes on. -/
theorem number_append_of_left {text : List Char} (left : '}' ∈ (number text).rest) :
    number (text ++ tail) =
      ⟨(number text).kind, (number text).chars, (number text).rest ++ tail⟩ := by
  simp only [number] at left ⊢
  split at left
  · next noDigit =>
      have signed := sign_append_of_left tail (List.ne_nil_of_mem left)
      have more : (sign ['-'] text).2.dropWhile Char.isDigit ≠ [] := by
        rw [List.isEmpty_iff] at noDigit
        have whole := List.takeWhile_append_dropWhile (p := Char.isDigit) (l := (sign ['-'] text).2)
        rw [noDigit, List.nil_append] at whole
        rw [whole]
        exact List.ne_nil_of_mem left
      have run := run_append_of_left tail more
      simp only [signed, run.1, noDigit, if_true]
  · next digit =>
      have afterFraction :
          '}' ∈ (fraction ((sign ['-'] text).2.dropWhile Char.isDigit)).2 := by
        split at left
        · next found =>
            apply mem_of_mem_sign
            rw [found]
            exact left
        · next found =>
            apply mem_of_mem_sign
            rw [found]
            exact mem_of_mem_sign (mem_of_mem_dropWhile left)
      have afterWhole := mem_of_mem_fraction afterFraction
      have afterSign := mem_of_mem_dropWhile afterWhole
      have signed := sign_append_of_left tail (List.ne_nil_of_mem afterSign)
      have run := run_append_of_left tail (List.ne_nil_of_mem afterWhole)
      have decimals := fraction_append_of_left tail afterFraction
      simp only [signed, run.1, run.2, digit, decimals]
      split at left
      · next rest found =>
          have more : (sign ['e', 'E'] (fraction
              ((sign ['-'] text).2.dropWhile Char.isDigit)).2).2 ≠ [] := by
            rw [found]
            exact List.ne_nil_of_mem left
          have marked := sign_append_of_left tail more
          simp [marked, found]
      · next afterMark noMark found =>
          have afterPlus := mem_of_mem_dropWhile left
          have more : (sign ['e', 'E'] (fraction
              ((sign ['-'] text).2.dropWhile Char.isDigit)).2).2 ≠ [] := by
            rw [found]
            exact List.ne_nil_of_mem (mem_of_mem_sign afterPlus)
          have marked := sign_append_of_left tail more
          have plus := sign_append_of_left tail (List.ne_nil_of_mem afterPlus)
          have digits := run_append_of_left tail (List.ne_nil_of_mem left)
          simp [marked, found, plus, digits.1, digits.2]

/-- Two marks in front of what is appended to are those of the text itself. -/
theorem string_append_of_left {text : List Char} (left : (string text).rest ≠ []) :
    string (text ++ tail) =
      ⟨(string text).kind, (string text).chars, (string text).rest ++ tail⟩ := by
  unfold string at left ⊢
  split at left
  · next rest =>
      simp only [List.cons_append, blockBody_append_of_left tail left]
  · next noMarks =>
      have body := stringBody_append_of_left tail left
      split
      · next rest same =>
          match text with
          | [] => exact absurd rfl left
          | [_] =>
              obtain ⟨rfl, -⟩ := List.cons.inj same
              exact absurd rfl left
          | _ :: _ :: later =>
              simp only [List.cons_append, List.cons.injEq] at same
              exact (noMarks later (by rw [same.1, same.2.1])).elim
      · simp only [body]

/-- A token before a closing brace is scanned the same whatever stands after the brace. Three points
in front would be those of the text itself. -/
theorem scan_append_of_left {first : Char} {rest : List Char}
    (left : '}' ∈ (scan first rest).rest) :
    scan first (rest ++ tail) =
      ⟨(scan first rest).kind, (scan first rest).chars, (scan first rest).rest ++ tail⟩ := by
  unfold scan at left ⊢
  split at left
  · next isMark =>
      rw [if_pos isMark, if_pos isMark]
      exact string_append_of_left tail (List.ne_nil_of_mem left)
  · next noMark =>
      rw [if_neg noMark, if_neg noMark]
      split at left
      · next isNumber =>
          rw [if_pos isNumber, if_pos isNumber]
          exact number_append_of_left tail left
      · next noNumber =>
          rw [if_neg noNumber, if_neg noNumber]
          split at left
          · next isName =>
              rw [if_pos isName, if_pos isName]
              exact name_append_of_left tail (List.ne_nil_of_mem left)
          · next noName =>
              rw [if_neg noName, if_neg noName]
              split at left
              · rfl
              · next noSpread =>
                  have afterFirst : '}' ∈ rest := by
                    split at left <;> exact left
                  split
                  · next later same =>
                      match rest with
                      | [] => simp at afterFirst
                      | [_] =>
                          obtain ⟨rfl, -⟩ := List.cons.inj same
                          simp at afterFirst
                      | _ :: _ :: further =>
                          simp only [List.cons_append, List.cons.injEq] at same
                          exact (noSpread further rfl (by rw [same.1, same.2.1])).elim
                  · split <;> rfl

/-- Only a brace is scanned as one. -/
theorem eq_brace_of_kind_scan {first : Char} {rest : List Char}
    (kind : (scan first rest).kind = .punctuator .braceClose) : first = '}' := by
  unfold scan at kind
  split at kind
  · unfold string at kind
    split at kind
    all_goals
      simp only at kind
      split at kind <;> cases kind
  · split at kind
    · have valid : (number (first :: rest)).kind ≠ .invalid := by
        rw [kind]
        nofun
      rcases isNumberOf_number valid with ⟨_, _, decimals, exponent, -, -, number⟩
      rw [kind, numberKind] at number
      split at number <;> cases number
    · split at kind
      · have word := Lexeme.word_isName (String.ofList (name (first :: rest)).chars)
        change (name (first :: rest)).kind.isName = true at word
        rw [kind] at word
        cases word
      · split at kind
        · cases kind
        · split at kind
          · next mark found =>
              obtain rfl := TokenKind.punctuator.inj kind
              revert found
              unfold Punctuator.ofChar?
              split <;> simp
          · cases kind

/-- What a closing brace is scanned as has nothing to do with what stands after it. -/
theorem scan_append_of_kind {first : Char} {rest : List Char}
    (kind : (scan first rest).kind = .punctuator .braceClose) :
    scan first (rest ++ tail) =
      ⟨(scan first rest).kind, (scan first rest).chars, (scan first rest).rest ++ tail⟩ := by
  obtain rfl := eq_brace_of_kind_scan kind
  rfl

theorem tokensFrom_eq_cons {offset : Nat} {text skipped rest : List Char} {first : Char}
    (found : splitIgnored false text = (skipped, first :: rest)) :
    tokensFrom offset text =
      ⟨(scan first rest).kind, String.ofList (scan first rest).chars,
        ⟨offset + Utf8.length skipped,
          offset + Utf8.length skipped + Utf8.length (scan first rest).chars⟩⟩ ::
        tokensFrom (offset + Utf8.length skipped + Utf8.length (scan first rest).chars)
          (scan first rest).rest := by
  rw [tokensFrom.eq_def]
  split
  · simp_all
  · next same =>
      obtain ⟨rfl, rfl, rfl⟩ : _ ∧ _ ∧ _ := by simpa using same.symm.trans found
      rfl

theorem mem_of_splitIgnored {text skipped left : List Char}
    (found : splitIgnored false text = (skipped, left)) {char : Char} (char_mem : char ∈ left) :
    char ∈ text := by
  rw [← splitIgnored_append false text, found]
  exact List.mem_append_right _ char_mem

/-- A text whose last token is a closing brace has a closing brace in it. -/
theorem mem_of_getLast?_tokensFrom {offset : Nat} {text : List Char}
    (closed : (tokensFrom offset text).getLast?.map Token.kind = some (.punctuator .braceClose)) :
    '}' ∈ text := by
  induction offset, text using tokensFrom.induct with
  | case1 offset text skipped ended =>
      rw [tokensFrom_of_ended offset ended] at closed
      cases closed
  | case2 offset text skipped first rest found scanned start stop ih =>
      apply mem_of_splitIgnored found
      rw [tokensFrom_eq_cons found, List.getLast?_cons] at closed
      cases last : (tokensFrom stop scanned.rest).getLast? with
      | none =>
          rw [last] at closed
          rw [eq_brace_of_kind_scan (Option.some.inj closed)]
          exact List.mem_cons_self
      | some token =>
          rw [last] at closed
          have inside := ih (by rw [last]; exact closed)
          rw [← scan_chars_append_rest first rest]
          exact List.mem_append_right _ inside

/-- If the last token of a text is a closing brace, a text that goes on has its tokens first. -/
theorem exists_tokensFrom_append {offset : Nat} {text : List Char}
    (closed : (tokensFrom offset text).getLast?.map Token.kind = some (.punctuator .braceClose)) :
    ∃ more, tokensFrom offset (text ++ tail) = tokensFrom offset text ++ more := by
  induction offset, text using tokensFrom.induct with
  | case1 offset text skipped ended =>
      rw [tokensFrom_of_ended offset ended] at closed
      cases closed
  | case2 offset text skipped first rest found scanned start stop ih =>
      rw [tokensFrom_eq_cons found, List.getLast?_cons] at closed
      rw [tokensFrom_eq_cons found, tokensFrom_eq_cons (splitIgnored_append_of_found tail found)]
      cases last : (tokensFrom stop scanned.rest).getLast? with
      | none =>
          rw [last] at closed
          rw [scan_append_of_kind tail (Option.some.inj closed), List.getLast?_eq_none_iff.mp last]
          exact ⟨_, rfl⟩
      | some token =>
          rw [last] at closed
          have later : (tokensFrom stop scanned.rest).getLast?.map Token.kind =
              some (.punctuator .braceClose) := by
            rw [last]
            exact closed
          rcases ih later with ⟨more, split⟩
          rw [scan_append_of_left tail (mem_of_getLast?_tokensFrom later), split]
          exact ⟨more, rfl⟩

end Tokens

end Scan

end WiredGraph
