import Mathlib.Data.List.Forall2
import Mathlib.Data.Option.Basic
import WiredGraph.Proofs.CommandLine.Paths
import WiredGraph.Proofs.Success
import WiredGraph.Proofs.Text.Trimming
import WiredGraph.Proofs.Token.Lexeme
import WiredGraph.Proofs.Wiring.Segments

/-!
# What texts refer to

A text refers to a callable exactly if it is the words for the callable, with blanks around them,
double colons between them, one of the two separators before the last word, and perhaps call
parentheses at the end. The words and the callable determine one another, as long as the tokens are
identifiers.
-/

namespace WiredGraph

namespace Reference

/-- Names of classes that lead to a class, the first of which is not the service locator. -/
structure IsClassPath (tokens : ReferenceTokens) (classes : List String) : Prop where
  nonempty : classes ≠ []
  valid : ∀ className ∈ classes, isClassName className.toList = true
  notLocator : classes.head? ≠ some tokens.locator

/-- A name is made of the names of classes that lead to the class. -/
def IsClass (tokens : ReferenceTokens) (className : String) : Prop :=
  ∃ classes, IsClassPath tokens classes ∧ className = String.intercalate "::" classes

/-- Names of members and methods are identifiers, and no method is named like the marker of
constructors. -/
def IsWellFormed (tokens : ReferenceTokens) : CallableRef → Prop
  | .service name => Ascii.isIdentifier name.toList = true
  | .constructor className => IsClass tokens className
  | .staticMethod className method =>
      IsClass tokens className ∧ Ascii.isIdentifier method.toList = true ∧
        method ≠ tokens.constructorMarker

/-- The words for a callable: those before the last separator, and the one behind it. -/
inductive WordsFor (tokens : ReferenceTokens) : List String → String → CallableRef → Prop
  | service {name : String} (identifier : Ascii.isIdentifier name.toList = true) :
      WordsFor tokens [tokens.locator] name (.service name)
  | constructor {classes : List String} (path : IsClassPath tokens classes) :
      WordsFor tokens classes tokens.constructorMarker
        (.constructor (String.intercalate "::" classes))
  | staticMethod {classes : List String} {method : String} (path : IsClassPath tokens classes)
      (identifier : Ascii.isIdentifier method.toList = true)
      (notMarker : method ≠ tokens.constructorMarker) :
      WordsFor tokens classes method (.staticMethod (String.intercalate "::" classes) method)

/-- A word with blanks around it. -/
def Padded (word : String) (text : List Char) : Prop :=
  ∃ front back, Text.Blanks front ∧ Text.Blanks back ∧ text = front ++ word.toList ++ back

/-- Call parentheses with blanks in them and behind them, or nothing. -/
inductive IsCall : List Char → Prop
  | none : IsCall []
  | parentheses {inner behind : List Char} (blanks : Text.Blanks inner)
      (also : Text.Blanks behind) : IsCall ('(' :: inner ++ ')' :: behind)

/-- The ways in which words are written. -/
inductive Writes (qualifiers : List String) (name : String) : List Char → Prop
  | mk {before : List (List Char)} {last call : List Char} (separator : Separator)
      (padded : List.Forall₂ Padded qualifiers before) (lastPadded : Padded name last)
      (isCall : IsCall call) :
      Writes qualifiers name (List.intercalate [':', ':'] before ++ separator.text ++ last ++ call)

/-- A text is one of those that the words for a callable are written as. -/
def IsWrittenAs (tokens : ReferenceTokens) (reference : CallableRef) (text : String) : Prop :=
  ∃ qualifiers name, WordsFor tokens qualifiers name reference ∧
    Writes qualifiers name text.toList

variable {tokens : ReferenceTokens} {reference : CallableRef} {qualifiers : List String}
  {name : String}

namespace WordsFor

theorem isWellFormed (words : WordsFor tokens qualifiers name reference) :
    IsWellFormed tokens reference := by
  cases words with
  | service identifier => exact identifier
  | constructor path => exact ⟨_, path, rfl⟩
  | staticMethod path identifier notMarker => exact ⟨⟨_, path, rfl⟩, identifier, notMarker⟩

/-- There are words for every reference that is well-formed. -/
theorem exists_of_isWellFormed (wellFormed : IsWellFormed tokens reference) :
    ∃ qualifiers name, WordsFor tokens qualifiers name reference := by
  cases reference with
  | service name => exact ⟨_, _, .service wellFormed⟩
  | constructor className =>
      rcases wellFormed with ⟨classes, path, rfl⟩
      exact ⟨_, _, .constructor path⟩
  | staticMethod className method =>
      rcases wellFormed with ⟨⟨classes, path, rfl⟩, identifier, notMarker⟩
      exact ⟨_, _, .staticMethod path identifier notMarker⟩

/-- Words are for a member of the service locator, or they lead to a class. -/
theorem cases_qualifiers (words : WordsFor tokens qualifiers name reference) :
    (qualifiers = [tokens.locator] ∧ reference = .service name) ∨
      (IsClassPath tokens qualifiers ∧ reference =
        if name = tokens.constructorMarker then .constructor (String.intercalate "::" qualifiers)
        else .staticMethod (String.intercalate "::" qualifiers) name) := by
  cases words with
  | service identifier => exact .inl ⟨rfl, rfl⟩
  | constructor path => exact .inr ⟨path, (if_pos rfl).symm⟩
  | staticMethod path identifier notMarker => exact .inr ⟨path, (if_neg notMarker).symm⟩

theorem of_isClassPath (path : IsClassPath tokens qualifiers)
    (identifier : Ascii.isIdentifier name.toList = true) :
    WordsFor tokens qualifiers name
      (if name = tokens.constructorMarker then .constructor (String.intercalate "::" qualifiers)
        else .staticMethod (String.intercalate "::" qualifiers) name) := by
  split
  · next marker =>
      subst marker
      exact .constructor path
  · next notMarker => exact .staticMethod path identifier notMarker

end WordsFor

/-- Whether a character may stand in a name: an identifier or the name of a class. -/
def isNameChar (char : Char) : Bool := char.isAlphanum || char == '_' || char == '\\'

/-- There is text, and it has no characters but those of names. -/
structure IsWord (text : List Char) : Prop where
  nonempty : text ≠ []
  chars : ∀ char ∈ text, isNameChar char = true

section Words

variable {text : List Char} {char : Char}

theorem isBlank_of_isNameChar (passes : isNameChar char = true) : Text.isBlank char = false := by
  simp only [isNameChar, Bool.or_eq_true, beq_iff_eq] at passes
  rcases passes with (letterOrDigit | rfl) | rfl
  · exact Ascii.of_isAlphanum (fun char => Text.isBlank char = false) (by decide) letterOrDigit
  · decide
  · decide

/-- Names have no separators and no parentheses. -/
theorem ne_of_isNameChar {mark : Char} (passes : isNameChar char = true)
    (isMark : isNameChar mark = false) : char ≠ mark := by
  rintro rfl
  rw [isMark] at passes
  cases passes

namespace IsWord

theorem visibly (word : IsWord text) : Text.StartsVisibly text ∧ Text.EndsVisibly text :=
  Text.visibly_of_forall word.nonempty fun char char_mem =>
    isBlank_of_isNameChar (word.chars char char_mem)

theorem isEmpty_eq_false {text : String} (word : IsWord text.toList) : text.isEmpty = false := by
  rw [← Bool.not_eq_true, String.isEmpty_iff, ← String.toList_eq_nil_iff]
  exact word.nonempty

theorem of_isIdentifier (identifier : Ascii.isIdentifier text = true) : IsWord text where
  nonempty := by
    rintro rfl
    cases identifier
  chars char char_mem := by
    rw [isNameChar, Bool.or_eq_true]
    exact .inl (Scan.continuesName_of_isIdentifier identifier char char_mem)

theorem of_isClassName (valid : isClassName text = true) : IsWord text := by
  simp only [isClassName, Bool.and_eq_true, bne_iff_ne, ne_eq, List.all_eq_true] at valid
  rcases valid with ⟨nonempty, pieces⟩
  have inName : ∀ char ∈ (Text.dropStart? ['\\'] text).getD text, isNameChar char = true := by
    intro char char_mem
    rcases Text.exists_mem_splitOn '\\' char_mem with rfl | ⟨piece, piece_mem, char_mem⟩
    · decide
    · exact (of_isIdentifier (pieces piece piece_mem)).chars char char_mem
  cases start : Text.dropStart? ['\\'] text with
  | none =>
      rw [start] at nonempty inName
      exact ⟨nonempty, inName⟩
  | some rest =>
      rw [start] at inName
      rw [Text.dropStart?_eq_some.mp start]
      refine ⟨List.cons_ne_nil _ _, List.forall_mem_cons.mpr ⟨?_, inName⟩⟩
      decide

end IsWord

end Words

section Segments

variable {first : String} {inner : List (Separator × String)} {separator : Separator}

theorem any_arrow_eq_false_iff :
    (inner.any fun piece => decide (piece.1 = .arrow)) = false ↔
      ∀ piece ∈ inner, piece.1 = .colons := by
  rw [List.any_eq_false]
  refine forall₂_congr fun piece _ => ?_
  cases piece.1 <;> simp

theorem find?_not_isClassName_eq_none_iff {texts : List String} :
    (texts.find? fun text => !isClassName text.toList) = none ↔
      ∀ text ∈ texts, isClassName text.toList = true := by
  simp

/-- Segments that refer to a callable are the words for it, and double colons stand before all of
them but the last. -/
theorem wordsFor_of_ofSegments
    (accepted : ofSegments tokens first (inner ++ [(separator, name)]) = .ok reference) :
    first.isEmpty = false ∧ Ascii.isIdentifier name.toList = true ∧
      (∀ piece ∈ inner, piece.1 = .colons) ∧
      WordsFor tokens (first :: inner.map Prod.snd) name reference := by
  simp only [ofSegments, List.getLast?_concat, List.dropLast_concat, List.map_append,
    List.map_cons, List.map_nil, ← List.cons_append] at accepted
  split at accepted
  · cases accepted
  · next noneEmpty =>
      rw [Success.unless_eq_ok] at accepted
      rcases accepted with ⟨identifier, accepted⟩
      have nonempty : first.isEmpty = false :=
        List.findIdx?_eq_none_iff.mp (Option.eq_none_iff_forall_ne_some.mpr noneEmpty) first
          (by simp)
      refine ⟨nonempty, identifier, ?_⟩
      by_cases isLocator : first = tokens.locator
      · rw [if_pos isLocator, Success.when_eq_ok, Success.pure_eq_ok] at accepted
        rcases accepted with ⟨single, rfl⟩
        have alone : inner = [] := by
          rw [← List.length_eq_zero_iff]
          simpa using single
        subst alone isLocator
        exact ⟨List.forall_mem_nil _, .service identifier⟩
      · rw [if_neg isLocator, Success.when_eq_ok, Bool.not_eq_true,
          any_arrow_eq_false_iff] at accepted
        rcases accepted with ⟨colons, accepted⟩
        split at accepted
        · cases accepted
        · next allValid =>
            have valid := find?_not_isClassName_eq_none_iff.mp
              (Option.eq_none_iff_forall_ne_some.mpr allValid)
            have path : IsClassPath tokens (first :: inner.map Prod.snd) :=
              ⟨List.cons_ne_nil _ _, valid, fun same => isLocator (Option.some.inj same)⟩
            rw [← apply_ite pure, Success.pure_eq_ok] at accepted
            rw [← accepted]
            exact ⟨colons, .of_isClassPath path identifier⟩

/-- The words for a callable refer to it, if double colons stand before all of them but the last. -/
theorem ofSegments_of_wordsFor (nonempty : first.isEmpty = false)
    (identifier : Ascii.isIdentifier name.toList = true)
    (colons : ∀ piece ∈ inner, piece.1 = .colons)
    (words : WordsFor tokens (first :: inner.map Prod.snd) name reference) :
    ofSegments tokens first (inner ++ [(separator, name)]) = .ok reference := by
  have noneEmpty (valid : ∀ text ∈ first :: inner.map Prod.snd, text.isEmpty = false) :
      ((first :: inner.map Prod.snd ++ [name]).findIdx? fun text => text.isEmpty) = none := by
    rw [List.findIdx?_eq_none_iff, List.forall_mem_append, List.forall_mem_singleton]
    exact ⟨valid, (IsWord.of_isIdentifier identifier).isEmpty_eq_false⟩
  simp only [ofSegments, List.getLast?_concat, List.dropLast_concat, List.map_append,
    List.map_cons, List.map_nil, ← List.cons_append]
  rcases words.cases_qualifiers with ⟨single, rfl⟩ | ⟨path, rfl⟩
  · rcases List.cons_eq_cons.mp single with ⟨isLocator, alone⟩
    rw [List.map_eq_nil_iff] at alone
    subst alone
    simp only [noneEmpty (List.forall_mem_singleton.mpr nonempty)]
    rw [if_pos identifier, if_pos isLocator]
    rfl
  · have noneEmpty := noneEmpty fun text text_mem =>
      (IsWord.of_isClassName (path.valid text text_mem)).isEmpty_eq_false
    have notLocator : first ≠ tokens.locator := fun same => path.notLocator (congrArg some same)
    simp only [noneEmpty, find?_not_isClassName_eq_none_iff.mpr path.valid,
      any_arrow_eq_false_iff.mpr colons]
    rw [if_pos identifier, if_neg notLocator, if_neg Bool.false_ne_true, ← apply_ite pure]
    rfl

end Segments

section Call

variable {front body back call text : List Char}

/-- The blanks around a text and its call are taken off it, and nothing else. -/
theorem exists_withoutCall (text : List Char) :
    ∃ front back call, Text.Blanks front ∧ Text.Blanks back ∧ IsCall call ∧
      text = front ++ withoutCall (Text.trim text) ++ back ++ call := by
  rcases Text.exists_trim text with ⟨front, behind, blanks, also, whole⟩
  rw [withoutCall]
  split
  · next callee stripped =>
      rcases Option.bind_eq_some_iff.mp stripped with ⟨unclosed, closed, opened⟩
      rw [Text.dropEnd?_eq_some] at closed opened
      rcases Text.exists_trimEnd unclosed with ⟨inner, innerBlanks, split⟩
      rcases Text.exists_trimEnd callee with ⟨back, backBlanks, ends⟩
      refine ⟨front, back, _, blanks, backBlanks, .parentheses innerBlanks also, ?_⟩
      calc text
        _ = front ++ ((Text.trimEnd callee ++ back) ++ ['('] ++ inner ++ [')']) ++ behind := by
          rw [← ends, ← opened, ← split, ← closed]
          exact whole
        _ = front ++ Text.trimEnd callee ++ back ++ ('(' :: inner ++ ')' :: behind) := by simp
  · exact ⟨front, behind, [], blanks, also, .none, by rw [List.append_nil]; exact whole⟩

/-- Blanks and a call around a text that ends with a word are taken off it. -/
theorem withoutCall_trim (blanks : Text.Blanks front) (also : Text.Blanks back)
    (isCall : IsCall call) (starts : Text.StartsVisibly body)
    (ends : ∃ before word, IsWord word ∧ body = before ++ word) :
    withoutCall (Text.trim (front ++ body ++ back ++ call)) = body := by
  rcases ends with ⟨before, word, isWord, split⟩
  have ends : Text.EndsVisibly body := split ▸ isWord.visibly.2.append before
  cases isCall with
  | none =>
      rw [List.append_nil, Text.trim_surrounded blanks also starts ends, withoutCall]
      have noCall : Text.dropEnd? [')'] body = none := by
        rw [Option.eq_none_iff_forall_ne_some]
        intro inner closed
        rw [Text.dropEnd?_eq_some, split] at closed
        have last : word.getLast? = some ')' := by
          have same := congrArg List.getLast? closed
          rwa [List.getLast?_append_of_ne_nil _ isWord.nonempty, List.getLast?_concat] at same
        exact absurd (isWord.chars _ (List.mem_of_getLast? last)) (by decide)
      rw [noCall]
      rfl
  | @parentheses inner behind innerBlanks behindBlanks =>
      have shape : front ++ body ++ back ++ ('(' :: inner ++ ')' :: behind) =
          front ++ (body ++ back ++ ['('] ++ inner ++ [')']) ++ behind := by simp
      have startsCall : Text.StartsVisibly (body ++ back ++ ['('] ++ inner ++ [')']) :=
        (((starts.append back).append _).append _).append _
      have closed : Text.dropEnd? [')'] (body ++ back ++ ['('] ++ inner ++ [')']) =
          some (body ++ back ++ ['('] ++ inner) := Text.dropEnd?_eq_some.mpr rfl
      have inside : Text.trimEnd (body ++ back ++ ['('] ++ inner) = body ++ back ++ ['('] := by
        rw [Text.trimEnd_append innerBlanks]
        exact Text.trimEnd_of_ends ⟨_, '(', rfl, by decide⟩
      have opened : Text.dropEnd? ['('] (body ++ back ++ ['(']) = some (body ++ back) :=
        Text.dropEnd?_eq_some.mpr rfl
      rw [shape, Text.trim_surrounded blanks behindBlanks startsCall ⟨_, ')', rfl, by decide⟩,
        withoutCall]
      simp only [closed, Option.bind_some, inside, opened]
      rw [Text.trimEnd_append also, Text.trimEnd_of_ends ends]

end Call

theorem intercalate_append_cons (separator front text : List Char) (rest : List (List Char)) :
    List.intercalate separator ((front ++ text) :: rest) =
      front ++ List.intercalate separator (text :: rest) := by
  cases rest with
  | nil => simp
  | cons next rest => simp only [List.intercalate_cons_cons, List.append_assoc]

/-- Texts without colons and hyphens are the segments of what they are put together to. -/
theorem segments_intercalate {first last : List Char} {rest : List (List Char)}
    (separator : Separator) (plain : ∀ text ∈ first :: rest, ∀ char ∈ text, char ≠ ':' ∧ char ≠ '-')
    (unseparated : Unseparated last) :
    segments (List.intercalate [':', ':'] (first :: rest) ++ separator.text ++ last) =
      (first, rest.map (Separator.colons, ·) ++ [(separator, last)]) := by
  induction rest generalizing first with
  | nil =>
      rw [List.intercalate_singleton, segments_append (.of_plain (by simpa using plain) _),
        segments_of_unseparated unseparated]
      rfl
  | cons second rest ih =>
      rcases List.forall_mem_cons.mp plain with ⟨firstPlain, restPlain⟩
      have shape : List.intercalate [':', ':'] (first :: second :: rest) ++ separator.text ++ last =
          first ++ Separator.colons.text ++
            (List.intercalate [':', ':'] (second :: rest) ++ separator.text ++ last) := by
        simp only [List.intercalate_cons_cons, List.append_assoc]
        rfl
      rw [shape, segments_append (.of_plain firstPlain _), ih restPlain]
      rfl

section Padded

variable {word : String} {text : List Char}

theorem padded_self (word : String) : Padded word word.toList :=
  ⟨[], [], Text.blanks_nil, Text.blanks_nil, (List.append_nil _).symm⟩

theorem Padded.append_front (padded : Padded word text) {front : List Char}
    (blanks : Text.Blanks front) : Padded word (front ++ text) := by
  rcases padded with ⟨before, back, beforeBlanks, backBlanks, rfl⟩
  exact ⟨front ++ before, back, blanks.append beforeBlanks, backBlanks, by simp⟩

theorem Padded.append_back (padded : Padded word text) {back : List Char}
    (blanks : Text.Blanks back) : Padded word (text ++ back) := by
  rcases padded with ⟨front, behind, frontBlanks, behindBlanks, rfl⟩
  exact ⟨front, behind ++ back, frontBlanks, behindBlanks.append blanks, by simp⟩

/-- Every text is what is left of it, with blanks around it. -/
theorem padded_trim (text : List Char) : Padded (String.ofList (Text.trim text)) text := by
  rcases Text.exists_trim text with ⟨front, back, blanks, also, whole⟩
  rw [Padded, String.toList_ofList]
  exact ⟨front, back, blanks, also, whole⟩

theorem Padded.trim_eq (padded : Padded word text) (isWord : IsWord word.toList) :
    String.ofList (Text.trim text) = word := by
  rcases padded with ⟨front, back, blanks, also, rfl⟩
  rw [Text.trim_surrounded blanks also isWord.visibly.1 isWord.visibly.2, String.ofList_toList]

theorem Padded.plain (padded : Padded word text) (isWord : IsWord word.toList) :
    ∀ char ∈ text, char ≠ ':' ∧ char ≠ '-' := by
  have plainBlank {blank : List Char} (blanks : Text.Blanks blank) :
      ∀ char ∈ blank, char ≠ ':' ∧ char ≠ '-' := by
    intro char char_mem
    constructor <;> rintro rfl <;> exact absurd (blanks _ char_mem) (by decide)
  rcases padded with ⟨front, back, blanks, also, rfl⟩
  simp only [List.forall_mem_append]
  refine ⟨⟨plainBlank blanks, fun char char_mem => ?_⟩, plainBlank also⟩
  have passes := isWord.chars char char_mem
  exact ⟨ne_of_isNameChar passes (by decide), ne_of_isNameChar passes (by decide)⟩

theorem Padded.unseparated (padded : Padded word text) (isWord : IsWord word.toList) :
    Unseparated text :=
  (Unseparated.of_plain (padded.plain isWord) ' ').of_within (List.prefix_append _ _).isInfix

/-- What is left of words with blanks around them is the words. -/
theorem map_trim_eq {words : List String} {texts : List (List Char)}
    (padded : List.Forall₂ Padded words texts) (areWords : ∀ word ∈ words, IsWord word.toList) :
    (texts.map fun text => String.ofList (Text.trim text)) = words := by
  induction padded with
  | nil => rfl
  | cons first _ ih =>
      rcases List.forall_mem_cons.mp areWords with ⟨firstWord, restWords⟩
      rw [List.map_cons, first.trim_eq firstWord, ih restWords]

theorem plain_of_forall₂ {words : List String} {texts : List (List Char)}
    (padded : List.Forall₂ Padded words texts) (areWords : ∀ word ∈ words, IsWord word.toList) :
    ∀ text ∈ texts, ∀ char ∈ text, char ≠ ':' ∧ char ≠ '-' := by
  induction padded with
  | nil => exact List.forall_mem_nil _
  | cons first _ ih =>
      rcases List.forall_mem_cons.mp areWords with ⟨firstWord, restWords⟩
      exact List.forall_mem_cons.mpr ⟨first.plain firstWord, ih restWords⟩

end Padded

section Parse

variable {text : String} {first : String} {rest : List String}

/-- A text is cut where it is cut without its call and the blanks around it. -/
theorem parse_eq_ofSegments {front body back call firstText : List Char}
    {further : List (Separator × List Char)} (blanks : Text.Blanks front)
    (also : Text.Blanks back) (isCall : IsCall call) (starts : Text.StartsVisibly body)
    (ends : ∃ before word, IsWord word ∧ body = before ++ word)
    (whole : text.toList = front ++ body ++ back ++ call)
    (separated : segments body = (firstText, further)) :
    parse tokens text = ofSegments tokens (String.ofList (Text.trim firstText))
      (further.map fun piece => (piece.1, String.ofList (Text.trim piece.2))) := by
  rw [parse, whole, withoutCall_trim blanks also isCall starts ends, separated]

/-- A text that is written as words is cut into these words. What is around the first and the last
word is cut off with the call, and the rest stays. -/
theorem parse_of_writes (areWords : ∀ word ∈ first :: rest, IsWord word.toList)
    (isName : IsWord name.toList) (writes : Writes (first :: rest) name text.toList) :
    ∃ separator, parse tokens text = ofSegments tokens first
      (rest.map (Separator.colons, ·) ++ [(separator, name)]) := by
  generalize whole : text.toList = chars at writes
  rcases writes with @⟨_, _, call, separator, padded, lastPadded, isCall⟩
  rcases List.forall_mem_cons.mp areWords with ⟨firstWord, restWords⟩
  cases padded with
  | @cons _ firstText _ restTexts firstPadded restPadded =>
      rcases firstPadded with ⟨front, behind, frontBlanks, behindBlanks, rfl⟩
      rcases lastPadded with ⟨ahead, back, aheadBlanks, backBlanks, rfl⟩
      have firstPadded : Padded first (first.toList ++ behind) :=
        (padded_self first).append_back behindBlanks
      have lastPadded : Padded name (ahead ++ name.toList) :=
        (padded_self name).append_front aheadBlanks
      have separated := segments_intercalate separator (List.forall_mem_cons.mpr
        ⟨firstPadded.plain firstWord, plain_of_forall₂ restPadded restWords⟩)
        (lastPadded.unseparated isName)
      have starts : Text.StartsVisibly
          (List.intercalate [':', ':'] ((first.toList ++ behind) :: restTexts) ++ separator.text ++
            (ahead ++ name.toList)) := by
        rw [intercalate_append_cons, List.append_assoc, List.append_assoc]
        exact firstWord.visibly.1.append _
      have shape : text.toList = front ++
          (List.intercalate [':', ':'] ((first.toList ++ behind) :: restTexts) ++ separator.text ++
            (ahead ++ name.toList)) ++ back ++ call := by
        rw [whole, List.append_assoc front, intercalate_append_cons]
        simp only [List.append_assoc]
      refine ⟨separator, ?_⟩
      rw [parse_eq_ofSegments frontBlanks backBlanks isCall starts
        ⟨_, _, isName, (List.append_assoc _ _ _).symm⟩ shape separated]
      simp only [List.map_append, List.map_cons, List.map_nil, List.map_map,
        firstPadded.trim_eq firstWord, lastPadded.trim_eq isName]
      rw [← map_trim_eq restPadded restWords, List.map_map]
      rfl

/-- A text that is written as the words for a callable refers to it. -/
theorem parse_of_wordsFor (words : WordsFor tokens qualifiers name reference)
    (areWords : ∀ word ∈ qualifiers, IsWord word.toList)
    (identifier : Ascii.isIdentifier name.toList = true)
    (writes : Writes qualifiers name text.toList) : parse tokens text = .ok reference := by
  cases qualifiers with
  | nil =>
      rcases words.cases_qualifiers with ⟨single, -⟩ | ⟨path, -⟩
      · cases single
      · exact absurd rfl path.nonempty
  | cons first rest =>
      have cut : ∃ separator, parse tokens text = ofSegments tokens first
          (rest.map (Separator.colons, ·) ++ [(separator, name)]) :=
        parse_of_writes areWords (.of_isIdentifier identifier) writes
      rcases cut with ⟨separator, parsed⟩
      rw [parsed]
      apply ofSegments_of_wordsFor (areWords first List.mem_cons_self).isEmpty_eq_false identifier
      · simp
      · rw [List.map_map]
        exact (List.map_id rest).symm ▸ words

/-- Segments with double colons before them are put together to a list of texts. -/
theorem append_flatMap_eq_intercalate {first : List Char} {inner : List (Separator × List Char)}
    (colons : ∀ piece ∈ inner, piece.1 = .colons) :
    first ++ inner.flatMap (fun piece => piece.1.text ++ piece.2) =
      List.intercalate [':', ':'] (first :: inner.map Prod.snd) := by
  induction inner generalizing first with
  | nil => simp
  | cons piece inner ih =>
      rcases List.forall_mem_cons.mp colons with ⟨isColons, others⟩
      rw [List.flatMap_cons, List.append_assoc, ih others, List.map_cons,
        List.intercalate_cons_cons, isColons, List.append_assoc]
      rfl

/-- A text that refers to a callable is written as words for it, and the first of these is a
segment that has been trimmed. -/
theorem exists_wordsFor_of_parse (parsed : parse tokens text = .ok reference) :
    ∃ qualifiers name, WordsFor tokens qualifiers name reference ∧
      Ascii.isIdentifier name.toList = true ∧ Writes qualifiers name text.toList ∧
      ∀ first ∈ qualifiers.head?, (Text.StartsVisibly first.toList ∧
        Text.EndsVisibly first.toList) ∧ Unseparated first.toList := by
  rcases exists_withoutCall text.toList with
    ⟨front, back, call, frontBlanks, backBlanks, isCall, whole⟩
  rw [parse] at parsed
  have joined := append_segments (withoutCall (Text.trim text.toList))
  have unseparated := unseparated_segments (withoutCall (Text.trim text.toList))
  generalize withoutCall (Text.trim text.toList) = body at parsed joined unseparated whole
  generalize segments body = pieces at parsed joined unseparated
  rcases pieces with ⟨first, further⟩
  rcases List.eq_nil_or_concat' further with rfl | ⟨inner, ⟨separator, last⟩, rfl⟩
  · cases parsed
  · simp only [List.map_append, List.map_cons, List.map_nil] at parsed
    rcases wordsFor_of_ofSegments parsed with ⟨nonempty, identifier, colons, words⟩
    rw [List.map_map] at words
    refine ⟨_, _, words, identifier, ?writes, ?first⟩
    case writes =>
      have colons : ∀ piece ∈ inner, piece.1 = .colons := fun piece piece_mem =>
        colons _ (List.mem_map_of_mem piece_mem)
      have shape : text.toList = List.intercalate [':', ':'] ((front ++ first) ::
          inner.map Prod.snd) ++ separator.text ++ (last ++ back) ++ call := by
        rw [whole, ← joined, List.flatMap_append, List.flatMap_singleton, intercalate_append_cons,
          ← append_flatMap_eq_intercalate colons]
        simp only [List.append_assoc]
      have padded : List.Forall₂ Padded (inner.map (Prod.snd ∘ fun piece =>
          (piece.1, String.ofList (Text.trim piece.2)))) (inner.map Prod.snd) := by
        rw [List.forall₂_map_left_iff, List.forall₂_map_right_iff, List.forall₂_same]
        exact fun piece _ => padded_trim piece.2
      rw [shape]
      exact .mk separator (.cons ((padded_trim first).append_front frontBlanks) padded)
        ((padded_trim last).append_back backBlanks) isCall
    case first =>
      intro text isFirst
      obtain rfl := Option.some.inj isFirst
      rw [String.toList_ofList]
      have some : Text.trim first ≠ [] := by simpa using nonempty
      rcases Text.exists_trim first with ⟨before, behind, -, -, split⟩
      exact ⟨Text.visibly_trim some, unseparated.of_within ⟨before, behind, split.symm⟩⟩

/-- A reference in its shortest form is written as the words for it. -/
theorem writes_render (words : WordsFor tokens qualifiers name reference) :
    Writes qualifiers name (render tokens reference).toList := by
  have padded (words : List String) : List.Forall₂ Padded words (words.map String.toList) := by
    rw [List.forall₂_map_right_iff, List.forall₂_same]
    exact fun word _ => padded_self word
  have writes (separator : Separator) :=
    Writes.mk separator (padded qualifiers) (padded_self name) .none
  cases words with
  | service identifier =>
      simpa [render, Separator.text, Separator.opening, Separator.closing] using writes .arrow
  | constructor path =>
      simpa [render, Separator.text, Separator.opening, Separator.closing,
        String.toList_intercalate] using writes .colons
  | staticMethod path identifier notMarker =>
      simpa [render, Separator.text, Separator.opening, Separator.closing,
        String.toList_intercalate] using writes .colons

/-- A member of the service locator is referred to by its shortest form if the locator is named like
a segment. -/
theorem parse_render_service (identifier : Ascii.isIdentifier name.toList = true)
    (visibly : Text.StartsVisibly tokens.locator.toList ∧ Text.EndsVisibly tokens.locator.toList)
    (unseparated : Unseparated tokens.locator.toList) :
    parse tokens (render tokens (.service name)) = .ok (.service name) := by
  have isName : IsWord name.toList := .of_isIdentifier identifier
  have whole : (render tokens (.service name)).toList =
      [] ++ (tokens.locator.toList ++ Separator.arrow.text ++ name.toList) ++ [] ++ [] := by
    simp [render, Separator.text, Separator.opening, Separator.closing]
  have separated : segments (tokens.locator.toList ++ Separator.arrow.text ++ name.toList) =
      (tokens.locator.toList, [(.arrow, name.toList)]) := by
    rw [segments_append unseparated.append_hyphen,
      segments_of_unseparated ((padded_self name).unseparated isName)]
  have trimmed : Text.trim tokens.locator.toList = tokens.locator.toList := by
    have surrounded := Text.trim_surrounded Text.blanks_nil Text.blanks_nil visibly.1 visibly.2
    rwa [List.nil_append, List.append_nil] at surrounded
  have nonempty : tokens.locator.isEmpty = false := by
    rcases visibly.1 with ⟨char, rest, split, -⟩
    rw [← Bool.not_eq_true, String.isEmpty_iff, ← String.toList_eq_nil_iff, split]
    exact List.cons_ne_nil _ _
  rw [parse_eq_ofSegments Text.blanks_nil Text.blanks_nil .none
    ((visibly.1.append _).append _) ⟨_, _, isName, rfl⟩ whole separated]
  simp only [List.map_cons, List.map_nil, (padded_self name).trim_eq isName, trimmed,
    String.ofList_toList]
  rw [← List.nil_append [(Separator.arrow, name)]]
  exact ofSegments_of_wordsFor nonempty identifier (List.forall_mem_nil _) (.service identifier)

/-- What a text refers to is well-formed, the text is one of the ways in which it is written, and
its shortest form refers to it as well. If the tokens are identifiers, all texts that a well-formed
reference is written as refer to it, its shortest form among them. -/
theorem parse_canonical (tokens : ReferenceTokens) :
    (∀ text reference, parse tokens text = .ok reference →
      IsWellFormed tokens reference ∧ IsWrittenAs tokens reference text ∧
        parse tokens (render tokens reference) = .ok reference) ∧
    (Ascii.isIdentifier tokens.locator.toList = true →
      Ascii.isIdentifier tokens.constructorMarker.toList = true →
        ∀ reference, IsWellFormed tokens reference →
          parse tokens (render tokens reference) = .ok reference ∧
            ∀ text, IsWrittenAs tokens reference text → parse tokens text = .ok reference) := by
  constructor
  · intro text reference parsed
    rcases exists_wordsFor_of_parse parsed with
      ⟨qualifiers, name, words, identifier, writes, firstSegment⟩
    refine ⟨words.isWellFormed, ⟨qualifiers, name, words, writes⟩, ?_⟩
    have writesShort := writes_render words
    rcases words.cases_qualifiers with ⟨rfl, rfl⟩ | ⟨path, -⟩
    · rcases firstSegment tokens.locator rfl with ⟨visibly, unseparated⟩
      exact parse_render_service identifier visibly unseparated
    · have areWords : ∀ word ∈ qualifiers, IsWord word.toList := fun word word_mem =>
        .of_isClassName (path.valid word word_mem)
      exact parse_of_wordsFor words areWords identifier writesShort
  · intro locator marker reference wellFormed
    have accepted : ∀ text, IsWrittenAs tokens reference text →
        parse tokens text = .ok reference := by
      rintro text ⟨qualifiers, name, words, writes⟩
      have identifier : Ascii.isIdentifier name.toList = true := by
        cases words with
        | service identifier => exact identifier
        | constructor => exact marker
        | staticMethod _ identifier => exact identifier
      have areWords : ∀ word ∈ qualifiers, IsWord word.toList := by
        rcases words.cases_qualifiers with ⟨rfl, -⟩ | ⟨path, -⟩
        · exact List.forall_mem_singleton.mpr (.of_isIdentifier locator)
        · exact fun word word_mem => .of_isClassName (path.valid word word_mem)
      exact parse_of_wordsFor words areWords identifier writes
    rcases WordsFor.exists_of_isWellFormed wellFormed with ⟨qualifiers, name, words⟩
    exact ⟨accepted _ ⟨qualifiers, name, words, writes_render words⟩, accepted⟩

end Parse

theorem parse_canonical_innerClass :
    Ascii.isIdentifier ReferenceTokens.standard.locator.toList = true ∧
    Ascii.isIdentifier ReferenceTokens.standard.constructorMarker.toList = true ∧
    IsWellFormed .standard (.staticMethod "Outer::Inner" "make") ∧
    parse .standard (render .standard (.staticMethod "Outer::Inner" "make")) =
      .ok (.staticMethod "Outer::Inner" "make") ∧
    IsWrittenAs .standard (.staticMethod "Outer::Inner" "make") " Outer:: Inner ->make ( ) " ∧
    parse .standard " Outer:: Inner ->make ( ) " = .ok (.staticMethod "Outer::Inner" "make") := by
  have path : IsClassPath .standard ["Outer", "Inner"] :=
    ⟨List.cons_ne_nil _ _, by decide, by decide⟩
  have words : WordsFor .standard ["Outer", "Inner"] "make"
      (.staticMethod "Outer::Inner" "make") := .staticMethod path (by decide) (by decide)
  have blank : Text.Blanks [' '] := by simp [Text.Blanks, Text.isBlank]
  have padded : List.Forall₂ Padded ["Outer", "Inner"] [" Outer".toList, " Inner ".toList] :=
    .cons ((padded_self "Outer").append_front blank)
      (.cons (((padded_self "Inner").append_front blank).append_back blank) .nil)
  have writes : Writes ["Outer", "Inner"] "make" " Outer:: Inner ->make ( ) ".toList :=
    .mk .arrow padded ((padded_self "make").append_back blank) (.parentheses blank blank)
  have written : IsWrittenAs .standard (.staticMethod "Outer::Inner" "make")
      " Outer:: Inner ->make ( ) " := ⟨_, _, words, writes⟩
  have canonical := (parse_canonical .standard).2 (by decide) (by decide) _ words.isWellFormed
  exact ⟨by decide, by decide, words.isWellFormed, canonical.1, written, canonical.2 _ written⟩

/-- A locator with a separator in its name is never met as a segment. -/
example : parse ⟨"App::Di", "class"⟩ (render ⟨"App::Di", "class"⟩ (.service "auth")) =
    .ok (.staticMethod "App::Di" "auth") := by decide +kernel

end Reference

end WiredGraph
