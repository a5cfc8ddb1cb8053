import WiredGraph.OrderedMap

/-!
# Vocabularies

A vocabulary numbers words in the order in which they are first met, so that a word can be stood
for by a small number and equal words by equal numbers. It keeps the words by their numbers and the
numbers by their words. A new vocabulary already knows the names of the built-in scalars and the
words that documents reserve.
-/

namespace WiredGraph

/-- Words by number, and numbers by word. -/
structure Vocabulary where
  words : List String
  numbers : OrderedMap String Nat

namespace Vocabulary

/-- The vocabulary that knows no words. -/
def empty : Vocabulary := ⟨[], .empty⟩

/-- Number of known words. -/
def size (vocabulary : Vocabulary) : Nat := vocabulary.words.length

/-- The number of a word, and the vocabulary that knows it. Numbers have 32 bits. -/
def intern (vocabulary : Vocabulary) (word : String) : Nat × Vocabulary :=
  match vocabulary.numbers.get? word with
  | some number => (number, vocabulary)
  | none =>
      let number := vocabulary.size % UInt32.size
      (number, ⟨vocabulary.words ++ [word], vocabulary.numbers.insert word number⟩)

/-- The vocabulary that knows some more words, from the first one to the last. -/
def internAll (vocabulary : Vocabulary) (words : List String) : Vocabulary :=
  words.foldl (fun vocabulary word => (vocabulary.intern word).2) vocabulary

/-- The words every vocabulary starts with. -/
def reserved : List String :=
  ["Int", "Float", "String", "Boolean", "ID", "type", "interface", "union", "enum", "input",
    "scalar", "schema", "query", "mutation", "subscription", "fragment", "on", "directive",
    "extend", "implements", "true", "false", "null", "__typename"]

/-- The vocabulary that knows the reserved words only. -/
def initial : Vocabulary := empty.internAll reserved

/-- The word with a number, if the number has been handed out. -/
def resolve? (vocabulary : Vocabulary) (number : Nat) : Option String :=
  vocabulary.words[number]?

end Vocabulary

end WiredGraph
