import WiredGraph.Json.Basic

/-!
# Free-form data

Free-form data is a JSON value in which the keys of every object are strictly sorted, so that two
such values say the same only if they are equal. `Json.canonical` brings every value into this
form, and leaves a value alone that has it already (`canonical_canonical`).
-/

namespace WiredGraph

namespace Json

/-- Whether the keys of members are strictly increasing. -/
def KeysSorted (members : List (String × Json)) : Prop :=
  members.Pairwise fun first second => first.1 < second.1

theorem mem_insertSorted {key : String} {value : Json} {members : List (String × Json)}
    {member : String × Json} (inside : member ∈ insertSorted key value members) :
    member = (key, value) ∨ member ∈ members := by
  induction members with
  | nil => simpa [insertSorted] using inside
  | cons head rest ih =>
      obtain ⟨other, held⟩ := head
      simp only [insertSorted] at inside
      grind

theorem keysSorted_insertSorted (key : String) (value : Json) {members : List (String × Json)}
    (sorted : KeysSorted members) : KeysSorted (insertSorted key value members) := by
  induction members with
  | nil => simp [insertSorted, KeysSorted]
  | cons head rest ih =>
      obtain ⟨other, held⟩ := head
      obtain ⟨below, restSorted⟩ := List.pairwise_cons.1 sorted
      simp only [insertSorted]
      split
      · next less =>
          refine List.pairwise_cons.2 ⟨fun member inside => ?_, sorted⟩
          rcases List.mem_cons.1 inside with rfl | later
          · exact less
          · exact String.lt_trans less (below member later)
      · next notLess =>
          split
          · next same =>
              subst same
              exact List.pairwise_cons.2 ⟨below, restSorted⟩
          · next different =>
              refine List.pairwise_cons.2 ⟨fun member inside => ?_, ih restSorted⟩
              rcases mem_insertSorted inside with rfl | later
              · exact Decidable.byContradiction fun notGreater =>
                  different (String.le_antisymm notGreater notLess)
              · exact below member later

theorem keysSorted_foldl_insertSorted (members : List (String × Json))
    {sorted : List (String × Json)} (isSorted : KeysSorted sorted) :
    KeysSorted (members.foldl (fun sorted member => insertSorted member.1 member.2 sorted)
      sorted) := by
  induction members generalizing sorted with
  | nil => exact isSorted
  | cons member rest ih => exact ih (keysSorted_insertSorted _ _ isSorted)

/-- Sorting members sorts them. -/
theorem keysSorted_sortMembers (members : List (String × Json)) :
    KeysSorted (sortMembers members) :=
  keysSorted_foldl_insertSorted members List.Pairwise.nil

theorem insertSorted_of_below {key : String} {value : Json} {members : List (String × Json)}
    (below : ∀ member ∈ members, member.1 < key) :
    insertSorted key value members = members ++ [(key, value)] := by
  induction members with
  | nil => rfl
  | cons head rest ih =>
      obtain ⟨other, held⟩ := head
      have less : other < key := below _ (List.mem_cons_self ..)
      have notLess : ¬key < other := fun greater => String.lt_irrefl _ (String.lt_trans less greater)
      have different : key ≠ other := fun same => String.lt_irrefl _ (same ▸ less)
      simp [insertSorted, notLess, different, ih fun member inside =>
        below member (List.mem_cons_of_mem _ inside)]

theorem foldl_insertSorted_of_keysSorted {done members : List (String × Json)}
    (sorted : KeysSorted (done ++ members)) :
    members.foldl (fun sorted member => insertSorted member.1 member.2 sorted) done =
      done ++ members := by
  induction members generalizing done with
  | nil => simp
  | cons member rest ih =>
      have below : ∀ earlier ∈ done, earlier.1 < member.1 := fun earlier inside =>
        (List.pairwise_append.1 sorted).2.2 earlier inside member (List.mem_cons_self ..)
      rw [List.foldl_cons, insertSorted_of_below below, ih (by simpa using sorted)]
      simp

/-- Sorting changes nothing about members that are sorted. -/
theorem sortMembers_of_keysSorted {members : List (String × Json)} (sorted : KeysSorted members) :
    sortMembers members = members :=
  foldl_insertSorted_of_keysSorted (by simpa using sorted)

theorem canonicalMembers_insertSorted (key : String) (value : Json)
    (members : List (String × Json)) :
    canonicalMembers (insertSorted key value members) =
      insertSorted key value.canonical (canonicalMembers members) := by
  induction members with
  | nil => rfl
  | cons head rest ih =>
      obtain ⟨other, held⟩ := head
      simp only [insertSorted, canonicalMembers]
      split
      · rfl
      · split
        · rfl
        · simp [canonicalMembers, ih]

theorem canonicalMembers_foldl_insertSorted (members sorted : List (String × Json)) :
    canonicalMembers
        (members.foldl (fun sorted member => insertSorted member.1 member.2 sorted) sorted) =
      (canonicalMembers members).foldl
        (fun sorted member => insertSorted member.1 member.2 sorted) (canonicalMembers sorted) := by
  induction members generalizing sorted with
  | nil => rfl
  | cons member rest ih =>
      obtain ⟨key, value⟩ := member
      simp [ih, canonicalMembers_insertSorted, canonicalMembers]

theorem canonicalMembers_sortMembers (members : List (String × Json)) :
    canonicalMembers (sortMembers members) = sortMembers (canonicalMembers members) :=
  canonicalMembers_foldl_insertSorted members []

mutual

/-- The canonical form of a value is its own canonical form. -/
theorem canonical_canonical : (value : Json) → value.canonical.canonical = value.canonical
  | .null => rfl
  | .bool _ => rfl
  | .number _ => rfl
  | .string _ => rfl
  | .array items => by
      simp only [canonical]
      rw [canonicalItems_canonicalItems items]
  | .object members => by
      simp only [canonical]
      rw [canonicalMembers_sortMembers, canonicalMembers_canonicalMembers members,
        sortMembers_of_keysSorted (keysSorted_sortMembers _)]

theorem canonicalItems_canonicalItems :
    (items : List Json) → canonicalItems (canonicalItems items) = canonicalItems items
  | [] => rfl
  | item :: rest => by
      simp only [canonicalItems]
      rw [canonical_canonical item, canonicalItems_canonicalItems rest]

theorem canonicalMembers_canonicalMembers :
    (members : List (String × Json)) →
      canonicalMembers (canonicalMembers members) = canonicalMembers members
  | [] => rfl
  | (key, value) :: rest => by
      simp only [canonicalMembers]
      rw [canonical_canonical value, canonicalMembers_canonicalMembers rest]

end

end Json

/-- A JSON value in canonical form. -/
structure SortedJson where
  tree : Json
  isCanonical : tree.canonical = tree

namespace SortedJson

/-- The canonical form of a value. -/
def ofJson (value : Json) : SortedJson := ⟨value.canonical, Json.canonical_canonical value⟩

@[simp]
theorem tree_ofJson (value : Json) : (ofJson value).tree = value.canonical := rfl

theorem ofJson_tree (value : SortedJson) : ofJson value.tree = value := by
  cases value
  simp_all [ofJson]

end SortedJson

end WiredGraph
