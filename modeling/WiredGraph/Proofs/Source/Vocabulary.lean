import WiredGraph.Proofs.OrderedMap
import WiredGraph.Source.Vocabulary

/-!
# Numbers of words

Whatever words are interned one after another, a vocabulary lists them without their repetitions and
finds each of them at its place in this list. The list only grows at its end, so that a number that
has been handed out keeps its word. This holds as long as the places fit into 32 bits.
-/

namespace WiredGraph

namespace Vocabulary

/-- A map gives each word of a list its place, and no other word a number. -/
def Inverse (words : List String) (numbers : OrderedMap String Nat) : Prop :=
  ∀ word number, numbers.get? word = some number ↔ words[number]? = some word

namespace Inverse

variable {words : List String} {numbers : OrderedMap String Nat} {word : String}

theorem get?_eq_none_iff (inverse : Inverse words numbers) :
    numbers.get? word = none ↔ word ∉ words := by
  rw [List.mem_iff_getElem?, Option.eq_none_iff_forall_ne_some, not_exists]
  exact forall_congr' fun number => not_congr (inverse word number)

theorem get?_eq_idxOf (inverse : Inverse words numbers) (word_mem : word ∈ words) :
    numbers.get? word = some (words.idxOf word) := by
  rw [inverse, List.getElem?_idxOf word_mem]

/-- A new word may be put at the end of the list, if it is given the place there. -/
theorem push (inverse : Inverse words numbers) (new : word ∉ words) :
    Inverse (words ++ [word]) (numbers.insert word words.length) := by
  intro other number
  rw [OrderedMap.get?_insert, List.getElem?_append, List.getElem?_singleton]
  split
  · next same =>
      subst same
      have elsewhere : words[number]? ≠ some word :=
        fun listed => new (List.mem_of_getElem? listed)
      grind
  · next differs =>
      rw [inverse]
      split
      · rfl
      · next beyond =>
          rw [List.getElem?_eq_none (Nat.not_lt.mp beyond)]
          simp [differs]

end Inverse

/-- A vocabulary knows the words that have been seen: it lists each of them once, and its numbers
are their places in the list. -/
structure Knows (vocabulary : Vocabulary) (seen : List String) : Prop where
  words : vocabulary.words = seen.eraseDups
  inverse : Inverse seen.eraseDups vocabulary.numbers

theorem knows_empty : empty.Knows [] where
  words := rfl
  inverse _ _ := by simp [empty, OrderedMap.empty, OrderedMap.get?]

namespace Knows

variable {vocabulary : Vocabulary} {seen : List String} {word : String}

/-- A word that has been seen is found, and nothing is changed. -/
theorem intern_of_mem (knows : vocabulary.Knows seen) (word_mem : word ∈ seen) :
    vocabulary.intern word = (seen.eraseDups.idxOf word, vocabulary) := by
  rw [Vocabulary.intern, knows.inverse.get?_eq_idxOf (List.mem_eraseDups.mpr word_mem)]

/-- A new word is put at the end, and its number is the place there. -/
theorem intern_of_notMem (knows : vocabulary.Knows seen) (new : word ∉ seen)
    (room : seen.eraseDups.length < UInt32.size) :
    vocabulary.intern word = (seen.eraseDups.length,
      ⟨seen.eraseDups ++ [word], vocabulary.numbers.insert word seen.eraseDups.length⟩) := by
  have unlisted := knows.inverse.get?_eq_none_iff.mpr (mt List.mem_eraseDups.mp new)
  rw [Vocabulary.intern, unlisted, size, knows.words]
  simp only [Nat.mod_eq_of_lt room]

/-- Interning a word gives its place among all words that have been seen then. -/
theorem intern (knows : vocabulary.Knows seen)
    (few : (seen ++ [word]).eraseDups.length ≤ UInt32.size) :
    (vocabulary.intern word).1 = (seen ++ [word]).eraseDups.idxOf word ∧
      (vocabulary.intern word).2.Knows (seen ++ [word]) := by
  by_cases word_mem : word ∈ seen
  · have same : (seen ++ [word]).eraseDups = seen.eraseDups := by
      rw [Distinct.eraseDups_append_singleton, if_pos word_mem]
    rw [knows.intern_of_mem word_mem, same]
    exact ⟨rfl, same ▸ knows.words, same ▸ knows.inverse⟩
  · have grown : (seen ++ [word]).eraseDups = seen.eraseDups ++ [word] := by
      rw [Distinct.eraseDups_append_singleton, if_neg word_mem]
    have unlisted : word ∉ seen.eraseDups := mt List.mem_eraseDups.mp word_mem
    rw [grown, List.length_append, List.length_singleton] at few
    rw [knows.intern_of_notMem word_mem few, grown]
    refine ⟨?_, grown.symm, grown ▸ knows.inverse.push unlisted⟩
    rw [List.idxOf_append_of_notMem unlisted, List.idxOf_cons_self, Nat.add_zero]

end Knows

/-- More words that are seen only make the list of distinct words longer. -/
theorem eraseDups_grows (seen later : List String) :
    seen.eraseDups <+: (seen ++ later).eraseDups := by
  rw [List.eraseDups_append]
  exact List.prefix_append _ _

/-- A vocabulary knows all words that have been interned one after another. -/
theorem Knows.internAll {vocabulary : Vocabulary} {seen : List String}
    (knows : vocabulary.Knows seen) {words : List String}
    (few : (seen ++ words).eraseDups.length ≤ UInt32.size) :
    (vocabulary.internAll words).Knows (seen ++ words) := by
  induction words generalizing vocabulary seen with
  | nil =>
      rw [List.append_nil]
      exact knows
  | cons word rest ih =>
      rw [← List.singleton_append, ← List.append_assoc] at few ⊢
      have fewSoFar := Nat.le_trans (eraseDups_grows (seen ++ [word]) rest).length_le few
      exact ih (knows.intern fewSoFar).2 few

/-- The vocabulary after words have been interned from the start. -/
def after (words : List String) : Vocabulary := initial.internAll words

/-- The number that a word is given after other words have been interned. -/
def numberAfter (earlier : List String) (word : String) : Nat := ((after earlier).intern word).1

theorem after_append (earlier later : List String) :
    after (earlier ++ later) = (after earlier).internAll later :=
  List.foldl_append

/-- How words are numbered that are interned one after another. -/
structure NumbersInOrder (words : List String) : Prop where
  /-- A number stands for the word it was given to, from then on. -/
  resolve_eq : ∀ earlier word later, earlier ++ word :: later <+: words →
    (after (earlier ++ word :: later)).resolve? (numberAfter earlier word) = some word
  /-- Two words are given the same number exactly if they are the same. -/
  number_eq_iff : ∀ earlier word between other, earlier ++ word :: between ++ [other] <+: words →
    (numberAfter earlier word = numberAfter (earlier ++ word :: between) other ↔ word = other)
  /-- Numbers count distinct words from zero on, in the order in which they first come. -/
  number_eq : ∀ earlier word, earlier ++ [word] <+: words →
    numberAfter earlier word = (reserved ++ words).eraseDups.idxOf word
  size_eq : ∀ earlier, earlier <+: words →
    (after earlier).size = (reserved ++ earlier).eraseDups.length
  /-- Exactly the numbers below the size have a word. -/
  isSome_resolve_iff : ∀ earlier, earlier <+: words → ∀ number,
    ((after earlier).resolve? number).isSome ↔ number < (after earlier).size
  /-- A word that is known already changes nothing. -/
  unchanged : ∀ earlier word, earlier ++ [word] <+: words → word ∈ reserved ++ earlier →
    after (earlier ++ [word]) = after earlier

section Numbering

variable {words : List String}

theorem knows_initial : initial.Knows reserved := knows_empty.internAll (by decide)

theorem few_of_started {earlier : List String} (started : earlier <+: words)
    (few : (reserved ++ words).eraseDups.length ≤ UInt32.size) :
    (reserved ++ earlier).eraseDups.length ≤ UInt32.size := by
  rcases started with ⟨later, rfl⟩
  rw [← List.append_assoc] at few
  exact Nat.le_trans (eraseDups_grows (reserved ++ earlier) later).length_le few

theorem knows_after (few : (reserved ++ words).eraseDups.length ≤ UInt32.size) :
    (after words).Knows (reserved ++ words) :=
  knows_initial.internAll few

/-- A word is given its place among all distinct words, no matter how many come later. -/
theorem numberAfter_eq {earlier : List String} {word : String}
    (started : earlier ++ [word] <+: words)
    (few : (reserved ++ words).eraseDups.length ≤ UInt32.size) :
    numberAfter earlier word = (reserved ++ words).eraseDups.idxOf word := by
  have knows := knows_after (few_of_started ((List.prefix_append _ _).trans started) few)
  have fewSoFar := few_of_started started few
  rcases started with ⟨later, rfl⟩
  rw [← List.append_assoc] at fewSoFar
  have listed : word ∈ (reserved ++ earlier ++ [word]).eraseDups := by
    rw [List.mem_eraseDups]
    exact List.mem_append_right _ (List.mem_singleton_self word)
  rcases eraseDups_grows (reserved ++ earlier ++ [word]) later with ⟨more, split⟩
  rw [numberAfter, (knows.intern fewSoFar).1, ← List.append_assoc, ← List.append_assoc, ← split,
    List.idxOf_append_of_mem listed]

/-- Interned words are numbered in order, as long as there are not too many of them. -/
theorem numbersInOrder_of_few (few : (reserved ++ words).eraseDups.length ≤ UInt32.size) :
    NumbersInOrder words where
  resolve_eq := by
    intro earlier word later started
    have fewSoFar := few_of_started started few
    have called : earlier ++ [word] <+: earlier ++ word :: later := ⟨later, by simp⟩
    rw [resolve?, numberAfter_eq called fewSoFar, (knows_after fewSoFar).words]
    exact List.getElem?_idxOf (List.mem_eraseDups.mpr (by simp))
  number_eq_iff := by
    intro earlier word between other started
    have called : earlier ++ [word] <+: words :=
      List.IsPrefix.trans ⟨between ++ [other], by simp⟩ started
    have word_mem : word ∈ words := called.subset (by simp)
    rw [numberAfter_eq called few, numberAfter_eq started few]
    exact List.idxOf_inj (List.mem_eraseDups.mpr (List.mem_append_right _ word_mem))
  number_eq _ _ started := numberAfter_eq started few
  size_eq _ started := by rw [size, (knows_after (few_of_started started few)).words]
  isSome_resolve_iff _ _ number := by
    rw [resolve?, size, Option.isSome_iff_ne_none, Ne, List.getElem?_eq_none_iff, Nat.not_le]
  unchanged := by
    intro earlier word started known
    have knows := knows_after (few_of_started ((List.prefix_append _ _).trans started) few)
    rw [after_append, internAll, List.foldl_cons, List.foldl_nil, knows.intern_of_mem known]

/-- Two new words, one of them twice, and a reserved one. -/
def blogWords : List String := ["User", "ID", "Post", "User"]

theorem numbersInOrder_of_few_blogWords :
    (reserved ++ blogWords).eraseDups.length ≤ UInt32.size ∧ NumbersInOrder blogWords ∧
      numberAfter ["User", "ID"] "Post" = 25 :=
  ⟨by decide, numbersInOrder_of_few (by decide), by decide⟩

end Numbering

end Vocabulary

end WiredGraph
