import Mathlib.Data.List.Basic
import WiredGraph.Operation.ConstantName
import WiredGraph.Proofs.Text.Cutting
import WiredGraph.Text.Ascii

/-!
# Words of constants

A constant is made of words of capitals and digits with one underscore between any two of them. The
words have the letters and digits of the name in their order. A word ends between two of them if
something else stands between them in the name, or at a capital that follows a small letter or a
digit, or that follows a capital and has a small letter right behind it. No other text is made of
the name in this way. Only ASCII letters and digits count, all other characters are gaps.
-/

namespace WiredGraph

namespace ConstantName

open Text (join splitOn)

variable {name text front before between after word : List Char} {char first second : Char}
  {words others : List (List Char)}

section Cuts

/-- A word ends behind a text: the words up to there make up the text. -/
def CutBehind (front : List Char) (words : List (List Char)) : Prop :=
  ∃ earlier later, words = earlier ++ later ∧ earlier.flatten = front

theorem cutBehind_nil (words : List (List Char)) : CutBehind [] words := ⟨[], words, rfl, rfl⟩

theorem cutBehind_flatten (words : List (List Char)) : CutBehind words.flatten words :=
  ⟨words, [], (List.append_nil words).symm, rfl⟩

theorem cutBehind_first (word : List Char) (words : List (List Char)) :
    CutBehind word (word :: words) := ⟨[word], words, rfl, List.flatten_singleton⟩

theorem eq_nil_of_cutBehind (cut : CutBehind front []) : front = [] := by
  obtain ⟨earlier, later, whole, rfl⟩ := cut
  rw [(List.append_eq_nil_iff.mp whole.symm).1, List.flatten_nil]

theorem cutBehind_cons_iff :
    CutBehind front (word :: words) ↔
      front = [] ∨ ∃ rest, front = word ++ rest ∧ CutBehind rest words := by
  constructor
  · rintro ⟨earlier, later, whole, rfl⟩
    rcases List.cons_eq_append_iff.mp whole with ⟨rfl, -⟩ | ⟨earlier, rfl, rfl⟩
    · exact .inl rfl
    · exact .inr ⟨earlier.flatten, rfl, earlier, later, rfl, rfl⟩
  · rintro (rfl | ⟨rest, rfl, earlier, later, rfl, rfl⟩)
    · exact cutBehind_nil _
    · exact ⟨word :: earlier, later, rfl, rfl⟩

theorem cutBehind_cons_iff_of_ne_nil (some : front ≠ []) :
    CutBehind front (word :: words) ↔ ∃ rest, front = word ++ rest ∧ CutBehind rest words := by
  rw [cutBehind_cons_iff, or_iff_right some]

theorem cutBehind_append_iff (some : word ≠ []) :
    CutBehind (word ++ front) (word :: words) ↔ CutBehind front words := by
  rw [cutBehind_cons_iff_of_ne_nil (List.append_ne_nil_of_left_ne_nil some front)]
  simp

theorem cutBehind_nil_cons_iff : CutBehind front ([] :: words) ↔ CutBehind front words := by
  rw [cutBehind_cons_iff]
  constructor
  · rintro (rfl | ⟨rest, rfl, cut⟩)
    · exact cutBehind_nil words
    · exact cut
  · exact fun cut => .inr ⟨front, rfl, cut⟩

theorem cutBehind_modifyHead_iff (some : front ≠ []) :
    CutBehind (char :: front) ((word :: words).modifyHead (char :: ·)) ↔
      CutBehind front (word :: words) := by
  rw [List.modifyHead_cons, cutBehind_cons_iff_of_ne_nil (List.cons_ne_nil _ _),
    cutBehind_cons_iff_of_ne_nil some]
  simp only [List.cons_append, List.cons.injEq, true_and]

/-- A word ends right behind its first character if it has no other one. -/
theorem cutBehind_singleton_iff :
    CutBehind [char] ((word :: words).modifyHead (char :: ·)) ↔ word = [] := by
  rw [List.modifyHead_cons, cutBehind_cons_iff_of_ne_nil (List.cons_ne_nil _ _)]
  constructor
  · rintro ⟨rest, whole, -⟩
    exact (List.append_eq_nil_iff.mp (List.cons.inj whole).2.symm).1
  · rintro rfl
    exact ⟨[], rfl, cutBehind_nil words⟩

theorem prefix_of_cutBehind (some : front ≠ []) (cut : CutBehind front (word :: words)) :
    word <+: front := by
  obtain ⟨rest, whole, -⟩ := (cutBehind_cons_iff_of_ne_nil some).mp cut
  exact ⟨rest, whole.symm⟩

/-- Words are known from the places where they end. Each first word ends where the other list has a
cut, so neither is longer. -/
theorem eq_of_cutBehind_iff (some : ∀ word ∈ words, word ≠ []) (more : ∀ word ∈ others, word ≠ [])
    (same : ∀ front, CutBehind front words ↔ CutBehind front others) : words = others := by
  induction words generalizing others with
  | nil =>
      cases others with
      | nil => rfl
      | cons other others =>
          have empty := eq_nil_of_cutBehind ((same other).mpr (cutBehind_first other others))
          exact absurd empty (more other List.mem_cons_self)
  | cons word words ih =>
      rw [List.forall_mem_cons] at some
      cases others with
      | nil =>
          have empty := eq_nil_of_cutBehind ((same word).mp (cutBehind_first word words))
          exact absurd empty some.1
      | cons other others =>
          rw [List.forall_mem_cons] at more
          have within := prefix_of_cutBehind more.1 ((same other).mpr (cutBehind_first other others))
          have around := prefix_of_cutBehind some.1 ((same word).mp (cutBehind_first word words))
          obtain rfl := within.eq_of_length_le around.length_le
          have sameBehind (front : List Char) : CutBehind front words ↔ CutBehind front others := by
            rw [← cutBehind_append_iff some.1, same, cutBehind_append_iff some.1]
          rw [ih some.2 more.2 sameBehind]

end Cuts

section Capitals

/-- The letters and digits of a text, in capitals. -/
def capitals (text : List Char) : List Char := (text.filter Char.isAlphanum).map Char.toUpper

theorem capitals_append (front back : List Char) :
    capitals (front ++ back) = capitals front ++ capitals back := by simp [capitals]

theorem capitals_cons_of_kept (kept : char.isAlphanum) (text : List Char) :
    capitals (char :: text) = char.toUpper :: capitals text := by simp [capitals, kept]

theorem capitals_cons_of_not_kept (other : ¬char.isAlphanum) (text : List Char) :
    capitals (char :: text) = capitals text := by simp [capitals, other]

theorem capitals_eq_nil_iff : capitals text = [] ↔ ∀ char ∈ text, ¬char.isAlphanum := by
  simp [capitals]

theorem isUpper_or_isDigit_toUpper (kept : char.isAlphanum) :
    char.toUpper.isUpper ∨ char.toUpper.isDigit :=
  Ascii.of_isAlphanum (fun char => char.toUpper.isUpper ∨ char.toUpper.isDigit) (by decide) kept

theorem isUpper_or_isDigit_of_mem_capitals (char_mem : char ∈ capitals text) :
    char.isUpper ∨ char.isDigit := by
  obtain ⟨origin, origin_mem, rfl⟩ := List.mem_map.mp char_mem
  exact isUpper_or_isDigit_toUpper (List.of_mem_filter origin_mem)

theorem ne_underscore (written : char.isUpper ∨ char.isDigit) : char ≠ '_' := by
  rintro rfl
  revert written
  decide

end Capitals

section Division

/-- Two letters or digits of a name between which no other one stands. -/
structure Neighbours (name before : List Char) (first : Char) (between : List Char) (second : Char)
    (after : List Char) : Prop where
  whole : name = before ++ first :: (between ++ second :: after)
  first : first.isAlphanum
  between : ∀ char ∈ between, ¬char.isAlphanum
  second : second.isAlphanum

/-- Where a word ends between two neighbours: something else stands between them, or the second is
a capital, and the first is a small letter or a digit, or a capital if a small letter comes right
behind the second. -/
def IsBreak (first : Char) (between : List Char) (second : Char) (after : List Char) : Prop :=
  between ≠ [] ∨ second.isUpper ∧
    (first.isLower ∨ first.isDigit ∨ first.isUpper ∧ ∃ next ∈ after.head?, next.isLower)

/-- The words that a name is divided into. -/
structure DividedInto (name : List Char) (words : List (List Char)) : Prop where
  word : ∀ word ∈ words, word ≠ [] ∧ ∀ char ∈ word, char.isUpper ∨ char.isDigit
  letters : words.flatten = capitals name
  ends_iff : ∀ {before first between second after},
    Neighbours name before first between second after →
      (CutBehind (capitals (before ++ [first])) words ↔ IsBreak first between second after)

/-- What stands on both sides of a place between letters or digits are neighbours. -/
theorem exists_neighbours {back : List Char} (whole : capitals name = front ++ back)
    (some : front ≠ []) (more : back ≠ []) :
    ∃ before first between second after, Neighbours name before first between second after ∧
      capitals (before ++ [first]) = front := by
  obtain ⟨keptFront, keptBack, kept, rfl, rfl⟩ := List.map_eq_append_iff.mp whole
  rw [Ne, List.map_eq_nil_iff] at some more
  obtain ⟨keptBefore, first, rfl⟩ := (List.eq_nil_or_concat' keptFront).resolve_left some
  obtain ⟨second, keptAfter, rfl⟩ := List.exists_cons_of_ne_nil more
  obtain ⟨start, rest, rfl, inStart, inRest⟩ := List.filter_eq_append_iff.mp kept
  obtain ⟨before, ending, rfl, inBefore, inEnding⟩ := List.filter_eq_append_iff.mp inStart
  obtain ⟨skipped, between, rfl, noneSkipped, firstKept, noneBetween⟩ :=
    List.filter_eq_cons_iff.mp inEnding
  obtain ⟨further, after, rfl, noneFurther, secondKept, -⟩ := List.filter_eq_cons_iff.mp inRest
  refine ⟨before ++ skipped, first, between ++ further, second, after,
    ⟨by simp, firstKept, ?_, secondKept⟩, ?_⟩
  · rw [List.forall_mem_append]
    exact ⟨List.filter_eq_nil_iff.mp noneBetween, noneFurther⟩
  · rw [capitals_append, capitals_append, capitals_eq_nil_iff.mpr noneSkipped, List.append_nil,
      capitals, inBefore, capitals_cons_of_kept firstKept, List.map_append]
    rfl

namespace DividedInto

theorem ne_nil (divided : DividedInto name words) : ∀ word ∈ words, word ≠ [] :=
  fun word word_mem => (divided.word word word_mem).1

theorem not_mem (divided : DividedInto name words) : ∀ word ∈ words, '_' ∉ word :=
  fun word word_mem mark_mem => ne_underscore ((divided.word word word_mem).2 '_' mark_mem) rfl

theorem cutBehind (divided : DividedInto name words) (also : DividedInto name others)
    (cut : CutBehind front words) : CutBehind front others := by
  by_cases start : front = []
  · exact start ▸ cutBehind_nil others
  obtain ⟨earlier, later, whole, rfl⟩ := cut
  have letters := divided.letters
  rw [whole, List.flatten_append] at letters
  by_cases finish : later.flatten = []
  · rw [finish, List.append_nil, ← also.letters] at letters
    exact letters ▸ cutBehind_flatten others
  · obtain ⟨before, first, between, second, after, neighbours, front⟩ :=
      exists_neighbours letters.symm start finish
    rw [← front, also.ends_iff neighbours, ← divided.ends_iff neighbours, front]
    exact ⟨earlier, later, whole, rfl⟩

/-- A name is divided into words in one way only. -/
theorem unique (divided : DividedInto name words) (also : DividedInto name others) :
    words = others :=
  eq_of_cutBehind_iff divided.ne_nil also.ne_nil
    fun _ => ⟨divided.cutBehind also, also.cutBehind divided⟩

end DividedInto

end Division

section Words

variable {previous next : Option Char}

theorem startsWord_iff :
    startsWord first second next = true ↔
      second.isUpper ∧
        (first.isLower ∨ first.isDigit ∨ first.isUpper ∧ ∃ char ∈ next, char.isLower) := by
  simp [startsWord, Option.any_eq_true, or_assoc]

theorem continueCase_cons_of_kept (kept : char.isAlphanum) :
    continueCase true previous (char :: text) =
      if previous.all (startsWord · char text.head?) then
        '_' :: char.toUpper :: continueCase true (some char) text
      else char.toUpper :: continueCase true (some char) text := by
  cases previous <;> simp [continueCase, kept]

theorem continueCase_cons_of_not_kept (other : ¬char.isAlphanum) {written : Bool} :
    continueCase written previous (char :: text) = continueCase written none text := by
  simp [continueCase, other]

theorem filter_continueCase (previous : Option Char) (text : List Char) :
    (continueCase true previous text).filter (· ≠ '_') = capitals text := by
  induction text generalizing previous with
  | nil => rfl
  | cons char text ih =>
      by_cases kept : char.isAlphanum
      · have noMark := ne_underscore (isUpper_or_isDigit_toUpper kept)
        have here : (char.toUpper :: continueCase true (some char) text).filter (· ≠ '_') =
            capitals (char :: text) := by
          rw [List.filter_cons_of_pos (by simpa using noMark), ih, capitals_cons_of_kept kept]
        rw [continueCase_cons_of_kept kept]
        split
        · rw [List.filter_cons_of_neg (by decide), here]
        · exact here
      · rw [continueCase_cons_of_not_kept kept, capitals_cons_of_not_kept kept, ih]

/-- The words that are written for the rest of a name, given the letter or digit just before. The
first of them goes on with the word before, so it may be empty. -/
def wordsFrom (previous : Option Char) (text : List Char) : List (List Char) :=
  splitOn '_' (continueCase true previous text)

theorem exists_wordsFrom_eq_cons (previous : Option Char) (text : List Char) :
    ∃ word words, wordsFrom previous text = word :: words :=
  List.exists_cons_of_ne_nil (Text.splitOn_ne_nil _ _)

theorem wordsFrom_cons_of_kept (kept : char.isAlphanum) :
    wordsFrom previous (char :: text) =
      if previous.all (startsWord · char text.head?) then
        [] :: (wordsFrom (some char) text).modifyHead (char.toUpper :: ·)
      else (wordsFrom (some char) text).modifyHead (char.toUpper :: ·) := by
  have inWord : splitOn '_' (char.toUpper :: continueCase true (some char) text) =
      (wordsFrom (some char) text).modifyHead (char.toUpper :: ·) := by
    rw [splitOn, if_neg (ne_underscore (isUpper_or_isDigit_toUpper kept)), wordsFrom]
  rw [wordsFrom, continueCase_cons_of_kept kept]
  split
  · rw [splitOn, if_pos rfl, inWord]
  · exact inWord

theorem wordsFrom_cons_of_not_kept (other : ¬char.isAlphanum) :
    wordsFrom previous (char :: text) = wordsFrom none text := by
  rw [wordsFrom, continueCase_cons_of_not_kept other, wordsFrom]

/-- After a gap no word goes on. -/
theorem wordsFrom_none (text : List Char) :
    wordsFrom none text = [] :: (wordsFrom none text).tail := by
  induction text with
  | nil => rfl
  | cons char text ih =>
      by_cases kept : char.isAlphanum
      · rw [wordsFrom_cons_of_kept kept]
        rfl
      · rw [wordsFrom_cons_of_not_kept kept]
        exact ih

theorem ne_nil_of_mem_tail_wordsFrom (word_mem : word ∈ (wordsFrom previous text).tail) :
    word ≠ [] := by
  induction text generalizing previous with
  | nil => nomatch word_mem
  | cons char text ih =>
      by_cases kept : char.isAlphanum
      · obtain ⟨here, later, found⟩ := exists_wordsFrom_eq_cons (some char) text
        have behind (mem : word ∈ later) : word ≠ [] := @ih (some char) (by rwa [found])
        rw [wordsFrom_cons_of_kept kept, found] at word_mem
        split at word_mem
        · rcases List.mem_cons.mp word_mem with rfl | word_mem
          · exact List.cons_ne_nil _ _
          · exact behind word_mem
        · exact behind word_mem
      · rw [wordsFrom_cons_of_not_kept kept] at word_mem
        exact ih word_mem

/-- A word ends at a letter or digit if what is written next does not go on with it. -/
theorem head?_wordsFrom_eq_nil_iff (noneBetween : ∀ char ∈ between, ¬char.isAlphanum)
    (kept : second.isAlphanum) :
    (wordsFrom (some first) (between ++ second :: after)).head? = some [] ↔
      IsBreak first between second after := by
  cases between with
  | nil =>
      obtain ⟨word, words, found⟩ := exists_wordsFrom_eq_cons (some second) after
      rw [List.nil_append, wordsFrom_cons_of_kept kept, Option.all_some, IsBreak, ← startsWord_iff,
        found]
      split
      · next starts => exact iff_of_true rfl (.inr starts)
      · next goesOn => exact iff_of_false (by simp) (by simp [goesOn])
  | cons char between =>
      rw [List.forall_mem_cons] at noneBetween
      rw [List.cons_append, wordsFrom_cons_of_not_kept noneBetween.1, wordsFrom_none]
      simp [IsBreak]

/-- Whether a word starts at a letter or digit does not matter for the cuts behind it. -/
theorem cutBehind_wordsFrom_cons_iff (kept : char.isAlphanum) :
    CutBehind (char.toUpper :: front) (wordsFrom previous (char :: text)) ↔
      CutBehind (char.toUpper :: front)
        ((wordsFrom (some char) text).modifyHead (char.toUpper :: ·)) := by
  rw [wordsFrom_cons_of_kept kept]
  split
  · exact cutBehind_nil_cons_iff
  · rfl

/-- Words end between two neighbours exactly at a break. The letters and digits before the first
neighbour are taken off one after the other. -/
theorem cutBehind_wordsFrom_iff (neighbours : Neighbours text before first between second after) :
    CutBehind (capitals (before ++ [first])) (wordsFrom previous text) ↔
      IsBreak first between second after := by
  obtain ⟨rfl, firstKept, noneBetween, secondKept⟩ := neighbours
  induction before generalizing previous with
  | nil =>
      obtain ⟨word, words, found⟩ :=
        exists_wordsFrom_eq_cons (some first) (between ++ second :: after)
      rw [List.nil_append, List.nil_append, capitals_cons_of_kept firstKept,
        cutBehind_wordsFrom_cons_iff firstKept, ← head?_wordsFrom_eq_nil_iff noneBetween secondKept,
        found, List.head?_cons, Option.some.injEq]
      exact cutBehind_singleton_iff
  | cons char before ih =>
      rw [List.cons_append, List.cons_append]
      by_cases kept : char.isAlphanum
      · have more : capitals (before ++ [first]) ≠ [] :=
          fun none => capitals_eq_nil_iff.mp none first (by simp) firstKept
        obtain ⟨word, words, found⟩ :=
          exists_wordsFrom_eq_cons (some char) (before ++ first :: (between ++ second :: after))
        rw [capitals_cons_of_kept kept, cutBehind_wordsFrom_cons_iff kept, ← @ih (some char), found,
          cutBehind_modifyHead_iff more]
      · rw [wordsFrom_cons_of_not_kept kept, capitals_cons_of_not_kept kept]
        exact ih

theorem dividedInto_wordsFrom (name : List Char) : DividedInto name (wordsFrom none name).tail := by
  have letters : (wordsFrom none name).tail.flatten = capitals name := by
    rw [← filter_continueCase none name, ← Text.flatten_splitOn, ← wordsFrom, wordsFrom_none name]
    rfl
  refine ⟨fun word word_mem => ⟨ne_nil_of_mem_tail_wordsFrom word_mem, ?_⟩, letters, ?_⟩
  · intro char char_mem
    apply isUpper_or_isDigit_of_mem_capitals
    rw [← letters]
    exact List.mem_flatten_of_mem word_mem char_mem
  · intro before first between second after neighbours
    rw [← cutBehind_wordsFrom_iff neighbours, wordsFrom_none name]
    exact cutBehind_nil_cons_iff.symm

/-- No underscore stands before the first word. -/
theorem continueCase_false (text : List Char) :
    continueCase false none text = join ['_'] (wordsFrom none text).tail := by
  induction text with
  | nil => rfl
  | cons char text ih =>
      by_cases kept : char.isAlphanum
      · have start : continueCase false none (char :: text) =
            char.toUpper :: continueCase true (some char) text := by simp [continueCase, kept]
        rw [start, wordsFrom, continueCase_cons_of_kept kept, Option.all_none, if_pos rfl, splitOn,
          if_pos rfl, List.tail_cons, Text.join_splitOn]
      · rw [continueCase_cons_of_not_kept kept, wordsFrom_cons_of_not_kept kept, ih]

end Words

section InCapitals

/-- A text that stands for a name in capitals. -/
structure InCapitals (name constant : List Char) : Prop where
  /-- It is made of the words of the name with one underscore between any two of them. -/
  words : ∃ words, constant = join ['_'] words ∧ DividedInto name words
  /-- It has the letters and digits of the name if the underscores are taken out. -/
  letters : constant.filter (· ≠ '_') = capitals name
  notFirst : constant.head? ≠ some '_'
  notLast : constant.getLast? ≠ some '_'
  notTwice : ¬['_', '_'] <:+: constant
  eq_nil_iff : constant = [] ↔ ∀ char ∈ name, ¬char.isAlphanum

/-- The words of a name are joined to the name in capitals. An underscore with no letter or digit on
one side would leave an empty word there. -/
theorem DividedInto.inCapitals (divided : DividedInto name words) :
    InCapitals name (join ['_'] words) := by
  have noEmpty : [] ∉ words := fun empty => divided.ne_nil [] empty rfl
  have letters := Text.filter_ne_join divided.not_mem
  refine ⟨⟨words, rfl, divided⟩, letters.trans divided.letters, ?_, ?_, ?_, ?_⟩
  · intro starts
    obtain ⟨back, whole⟩ : ∃ back, join ['_'] words = [] ++ '_' :: back :=
      List.head?_eq_some_iff.mp starts
    exact noEmpty (by simp [Text.eq_splitOn_append_of_join divided.not_mem whole, splitOn])
  · intro ends
    obtain ⟨front, whole⟩ := List.getLast?_eq_some_iff.mp ends
    exact noEmpty (by simp [Text.eq_splitOn_append_of_join divided.not_mem whole, splitOn])
  · rintro ⟨front, back, whole⟩
    rw [List.append_assoc, eq_comm] at whole
    exact noEmpty (by simp [Text.eq_splitOn_append_of_join divided.not_mem whole, splitOn])
  · rw [← capitals_eq_nil_iff, ← divided.letters]
    constructor
    · intro empty
      rw [← letters, empty, List.filter_nil]
    · intro none
      rw [List.flatten_eq_nil_iff] at none
      have noWords : words = [] := List.eq_nil_iff_forall_not_mem.mpr
        fun word word_mem => divided.ne_nil word word_mem (none word word_mem)
      rw [noWords, join]

/-- The name of a constant is the only text that stands for a name in capitals. -/
theorem eq_constantCase_iff {name constant : String} :
    constant = constantCase name ↔ InCapitals name.toList constant.toList := by
  constructor
  · rintro rfl
    rw [constantCase, String.toList_ofList, continueCase_false]
    exact (dividedInto_wordsFrom name.toList).inCapitals
  · intro inCapitals
    obtain ⟨words, whole, divided⟩ := inCapitals.words
    rw [constantCase, continueCase_false, (dividedInto_wordsFrom name.toList).unique divided,
      ← whole, String.ofList_toList]

example : constantCase "getUserHTMLBy_id-v2Top" = "GET_USER_HTML_BY_ID_V2_TOP" := by decide

end InCapitals

end ConstantName

end WiredGraph
