import Mathlib.Data.List.Basic
import Mathlib.Data.List.Induction
import WiredGraph.OrderedMap

/-!
# Laws of ordered maps

A list without its repetitions keeps the first occurrence of each item, and an ordered map keeps
its keys in that order. The two meet here: a map that is built by changing the values of keys one
after another has the keys without their repetitions, and its value for a key is the result of the
changes made for that key. A map made from a list of entries holds the last value of each key.
-/

namespace WiredGraph

namespace Distinct

variable {Item : Type} [DecidableEq Item]

/-- One more item is kept at the end if it is new. -/
theorem eraseDups_append_singleton (items : List Item) (item : Item) :
    (items ++ [item]).eraseDups =
      if item ∈ items then items.eraseDups else items.eraseDups ++ [item] := by
  rw [List.eraseDups_append]
  by_cases present : item ∈ items <;>
    simp [List.removeAll, List.filter, present, List.eraseDups_cons]

theorem nodup_eraseDups (items : List Item) : items.eraseDups.Nodup := by
  induction items using List.reverseRecOn with
  | nil => simp
  | append_singleton items item ih =>
      rw [eraseDups_append_singleton]
      split
      · exact ih
      · next new =>
        refine List.nodup_append.mpr ⟨ih, by simp, ?_⟩
        intro left left_mem right right_mem same
        rw [List.mem_singleton] at right_mem
        subst right_mem same
        exact new (List.mem_eraseDups.mp left_mem)

theorem eraseDups_of_nodup {items : List Item} (distinct : items.Nodup) :
    items.eraseDups = items := by
  induction items using List.reverseRecOn with
  | nil => simp
  | append_singleton items item ih =>
      have front_distinct : items.Nodup := (List.nodup_append.mp distinct).1
      have new : item ∉ items := by
        intro present
        exact (List.nodup_append.mp distinct).2.2 item present item (by simp) rfl
      rw [eraseDups_append_singleton, if_neg new, ih front_distinct]

/-- A list has every item of another one once, in the order of their first occurrences. -/
structure FirstOccurrences (items result : List Item) : Prop where
  mem_iff : ∀ item, item ∈ result ↔ item ∈ items
  ordered : result.Pairwise fun first second => items.idxOf first < items.idxOf second

/-- Without repetitions, items stand in the order in which they first occur: one more item at the
end is behind all that have been there before. -/
theorem firstOccurrences_eraseDups (items : List Item) :
    FirstOccurrences items items.eraseDups where
  mem_iff _ := List.mem_eraseDups
  ordered := by
    induction items using List.reverseRecOn with
    | nil => simp
    | append_singleton items item ih =>
        have kept : items.eraseDups.Pairwise fun first second =>
            (items ++ [item]).idxOf first < (items ++ [item]).idxOf second := by
          refine ih.imp_of_mem fun first_mem second_mem before => ?_
          rwa [List.idxOf_append_of_mem (List.mem_eraseDups.mp first_mem),
            List.idxOf_append_of_mem (List.mem_eraseDups.mp second_mem)]
        rw [eraseDups_append_singleton]
        split
        · exact kept
        · next new =>
            refine List.pairwise_append.mpr ⟨kept, List.pairwise_singleton _ _, ?_⟩
            intro first first_mem second second_mem
            have first_mem := List.mem_eraseDups.mp first_mem
            rw [List.mem_singleton.mp second_mem, List.idxOf_append_of_mem first_mem,
              List.idxOf_append_of_notMem new]
            exact Nat.lt_add_right _ (List.idxOf_lt_length_of_mem first_mem)

/-- A check that goes through entries and refuses a key that it has seen before passes those with
distinct keys. -/
theorem passes_iff_nodup {Entry : Type} (keyOf : Entry → Item)
    (Passes : List Entry → List Entry → Prop) (nil : ∀ earlier, Passes earlier [])
    (cons : ∀ earlier entry rest, Passes earlier (entry :: rest) ↔
      (earlier.find? fun other => keyOf other = keyOf entry) = none ∧
        Passes (earlier ++ [entry]) rest)
    (entries : List Entry) : Passes [] entries ↔ (entries.map keyOf).Nodup := by
  suffices afterSome : ∀ earlier, (earlier.map keyOf).Nodup →
      (Passes earlier entries ↔ ((earlier ++ entries).map keyOf).Nodup) from
    afterSome [] List.nodup_nil
  induction entries with
  | nil =>
      intro earlier distinct
      simp [nil, distinct]
  | cons entry rest ih =>
      intro earlier distinct
      have unseen : (earlier.find? fun other => keyOf other = keyOf entry) = none ↔
          ((earlier ++ [entry]).map keyOf).Nodup := by
        simp [List.nodup_append, distinct]
      have regroup : earlier ++ entry :: rest = earlier ++ [entry] ++ rest := by simp
      rw [cons, unseen, regroup]
      constructor
      · rintro ⟨alsoDistinct, passes⟩
        exact (ih _ alsoDistinct).mp passes
      · intro allDistinct
        have alsoDistinct : ((earlier ++ [entry]).map keyOf).Nodup := by
          rw [List.map_append, List.nodup_append] at allDistinct
          exact allDistinct.1
        exact ⟨alsoDistinct, (ih _ alsoDistinct).mpr allDistinct⟩

/-- Items that are sorted into groups by their keys are all there, each once. No other group loses
an entry when those of the first key are taken out. -/
theorem flatMap_filter_perm {Entry : Type} (keyOf : Entry → Item) {keys : List Item}
    {entries : List Entry} (distinct : keys.Nodup)
    (covered : ∀ entry ∈ entries, keyOf entry ∈ keys) :
    (keys.flatMap fun key => entries.filter fun entry => keyOf entry = key).Perm entries := by
  induction keys generalizing entries with
  | nil =>
      have none_left : entries = [] := by
        rw [List.eq_nil_iff_forall_not_mem]
        intro entry entry_mem
        exact List.not_mem_nil (covered entry entry_mem)
      simp [none_left]
  | cons key rest ih =>
      rw [List.nodup_cons] at distinct
      have covered_others : ∀ entry ∈ entries.filter fun entry => !decide (keyOf entry = key),
          keyOf entry ∈ rest := by
        intro entry entry_mem
        rw [List.mem_filter] at entry_mem
        have differs : keyOf entry ≠ key := by simpa using entry_mem.2
        exact (List.mem_cons.mp (covered entry entry_mem.1)).resolve_left differs
      have others := ih distinct.2 covered_others
      have same_groups :
          (rest.flatMap fun other => entries.filter fun entry => keyOf entry = other) =
          rest.flatMap fun other => (entries.filter fun entry => !decide (keyOf entry = key)).filter
            fun entry => keyOf entry = other := by
        apply List.flatMap_congr
        intro other other_mem
        rw [List.filter_filter]
        apply List.filter_congr
        intro entry _
        have differs : key ≠ other := fun same => distinct.1 (same ▸ other_mem)
        by_cases same : keyOf entry = other
        · subst same
          simp [differs.symm]
        · simp [same]
      rw [List.flatMap_cons, same_groups]
      exact (others.append_left _).trans
        (List.filter_append_perm (fun entry => decide (keyOf entry = key)) entries)

/-- What only one of some distinct items gives is all that they give. -/
theorem flatMap_eq_of_only {Entry Result : Type} {entries : List Entry}
    {results : Entry → List Result} (distinct : entries.Nodup) {entry : Entry}
    (entry_mem : entry ∈ entries)
    (only : ∀ other ∈ entries, other ≠ entry → results other = []) :
    entries.flatMap results = results entry := by
  induction entries with
  | nil => nomatch entry_mem
  | cons first rest ih =>
      rw [List.nodup_cons] at distinct
      rw [List.flatMap_cons]
      rcases List.mem_cons.mp entry_mem with rfl | later
      · have noneLeft : rest.flatMap results = [] := by
          rw [List.flatMap_eq_nil_iff]
          intro other other_mem
          refine only other (List.mem_cons_of_mem _ other_mem) ?_
          rintro rfl
          exact distinct.1 other_mem
        rw [noneLeft, List.append_nil]
      · have differs : first ≠ entry := by
          rintro rfl
          exact distinct.1 later
        rw [only first List.mem_cons_self differs, List.nil_append]
        exact ih distinct.2 later fun other other_mem =>
          only other (List.mem_cons_of_mem _ other_mem)

section Keys

variable {Value : Type} {keyOf : Value → Item} {values : List Value}

/-- Among values with distinct keys, the first one with the key of a value is that value. -/
theorem find?_key_eq_some (distinct : (values.map keyOf).Nodup) {value : Value}
    (value_mem : value ∈ values) :
    values.find? (fun other => keyOf other = keyOf value) = some value := by
  induction values with
  | nil => simp at value_mem
  | cons first rest ih =>
      rw [List.map_cons, List.nodup_cons] at distinct
      rcases List.mem_cons.mp value_mem with rfl | later
      · simp
      · have differs : keyOf first ≠ keyOf value := by
          intro same
          exact distinct.1 (same ▸ List.mem_map_of_mem later)
        rw [List.find?_cons_of_neg (by simpa using differs)]
        exact ih distinct.2 later

/-- Among values with distinct keys, at most one has a given key. -/
theorem filter_key_eq (distinct : (values.map keyOf).Nodup) (key : Item) :
    (values.filter fun value => keyOf value = key) =
      (values.find? fun value => keyOf value = key).toList := by
  induction values with
  | nil => rfl
  | cons first rest ih =>
      rw [List.map_cons, List.nodup_cons] at distinct
      by_cases here : keyOf first = key
      · have noneLeft : (rest.filter fun value => keyOf value = key) = [] := by
          rw [List.filter_eq_nil_iff]
          intro value value_mem same
          rw [decide_eq_true_eq] at same
          exact distinct.1 (here ▸ same ▸ List.mem_map_of_mem value_mem)
        simp [here, noneLeft]
      · simp [here, ih distinct.2]

/-- Among values with distinct keys, it does not matter from which end a key is looked for. -/
theorem find?_key_perm {others : List Value} (distinct : (values.map keyOf).Nodup)
    (perm : others.Perm values) (key : Item) :
    others.find? (fun value => keyOf value = key) =
      values.find? fun value => keyOf value = key := by
  have alsoDistinct : (others.map keyOf).Nodup := (perm.map keyOf).nodup_iff.mpr distinct
  cases found : values.find? fun value => keyOf value = key with
  | none =>
      rw [List.find?_eq_none] at found ⊢
      exact fun value value_mem => found value (perm.mem_iff.mp value_mem)
  | some value =>
      have same : keyOf value = key := by simpa using List.find?_some found
      subst same
      exact find?_key_eq_some alsoDistinct (perm.mem_iff.mpr (List.mem_of_find?_eq_some found))

end Keys

end Distinct

namespace OrderedMap

variable {Key Value : Type} [DecidableEq Key]

/-- Changing the value of a key in a map that gives each of some keys a value. -/
theorem upsertEntry_map (key : Key) (change : Option Value → Value) (value : Key → Value)
    {keys : List Key} (distinct : keys.Nodup) :
    upsertEntry key change (keys.map fun other => (other, value other)) =
      if key ∈ keys then
        keys.map fun other =>
          (other, if other = key then change (some (value key)) else value other)
      else
        (keys.map fun other => (other, value other)) ++ [(key, change none)] := by
  induction keys with
  | nil => simp [upsertEntry]
  | cons first rest ih =>
      rw [List.nodup_cons] at distinct
      by_cases same : first = key
      · subst same
        have others : ∀ other ∈ rest, other ≠ first := by
          intro other other_mem equal
          exact distinct.1 (equal ▸ other_mem)
        simp only [List.map_cons, upsertEntry, if_true, List.mem_cons, true_or, List.cons.injEq,
          true_and]
        apply List.map_congr_left
        intro other other_mem
        rw [if_neg (others other other_mem)]
      · have different : key ≠ first := fun equal => same equal.symm
        simp only [List.map_cons, upsertEntry, if_neg same, ih distinct.2, List.mem_cons, different,
          false_or]
        split <;> simp

theorem entries_upsert (map : OrderedMap Key Value) (key : Key)
    (change : Option Value → Value) :
    (map.upsert key change).entries = upsertEntry key change map.entries := rfl

/-- A map that is built by changes has the keys of the changes in the order in which they first
occur, and as the value of each key what the changes made for that key lead to. The last change
finds what all changes before it lead to, and only the entry of its key becomes another one. -/
theorem entries_foldl_upsert {Change : Type} (keyOf : Change → Key)
    (change : Change → Option Value → Value) (result : List Change → Value)
    (result_append : ∀ changes next,
      result (changes ++ [next]) =
        change next (if changes = [] then none else some (result changes)))
    (changes : List Change) :
    (changes.foldl (fun map next => map.upsert (keyOf next) (change next)) empty).entries =
      (changes.map keyOf).eraseDups.map fun key =>
        (key, result (changes.filter fun next => keyOf next = key)) := by
  induction changes using List.reverseRecOn with
  | nil => simp [empty]
  | append_singleton changes next ih =>
      rw [List.foldl_append, List.foldl_cons, List.foldl_nil, entries_upsert, ih,
        upsertEntry_map _ _ _ (Distinct.nodup_eraseDups _), List.map_append, List.map_cons,
        List.map_nil, Distinct.eraseDups_append_singleton]
      simp only [List.mem_eraseDups]
      by_cases known : keyOf next ∈ changes.map keyOf
      · rw [if_pos known, if_pos known]
        apply List.map_congr_left
        intro key _
        by_cases same : key = keyOf next
        · subst same
          have some_before : changes.filter (fun other => keyOf other = keyOf next) ≠ [] := by
            obtain ⟨other, other_mem, other_key⟩ := List.mem_map.mp known
            exact List.ne_nil_of_mem (List.mem_filter.mpr ⟨other_mem, by simpa using other_key⟩)
          simp [List.filter_append, result_append, some_before]
        · have differs : keyOf next ≠ key := fun equal => same equal.symm
          simp [List.filter_append, same, differs]
      · rw [if_neg known, if_neg known, List.map_append]
        have none_before : changes.filter (fun other => keyOf other = keyOf next) = [] := by
          rw [List.filter_eq_nil_iff]
          intro other other_mem other_key
          exact known (List.mem_map.mpr ⟨other, other_mem, by simpa using other_key⟩)
        congr 1
        · apply List.map_congr_left
          intro key key_mem
          have differs : keyOf next ≠ key := by
            rintro rfl
            exact known (List.mem_eraseDups.mp key_mem)
          simp [List.filter_append, differs]
        · have first := result_append [] next
          simp only [List.nil_append, if_true] at first
          simp [List.filter_append, List.filter_cons, none_before, first]

theorem ofList_append_singleton (entries : List (Key × Value)) (entry : Key × Value) :
    ofList (entries ++ [entry]) = (ofList entries).insert entry.1 entry.2 := by
  rw [ofList, List.foldl_append]
  rfl

/-- A map made from entries has their keys in the order in which they first occur. -/
theorem keys_ofList (entries : List (Key × Value)) :
    (ofList entries).keys = (entries.map Prod.fst).eraseDups := by
  induction entries using List.reverseRecOn with
  | nil => simp [ofList, empty, keys]
  | append_singleton entries entry ih =>
      rw [ofList_append_singleton, keys_insert, ih, List.map_append, List.map_cons, List.map_nil,
        Distinct.eraseDups_append_singleton]
      simp only [List.mem_eraseDups]

/-- A map made from entries holds the last value of each key. -/
theorem get?_ofList (entries : List (Key × Value)) (key : Key) :
    (ofList entries).get? key =
      (entries.reverse.find? fun entry => entry.1 = key).map Prod.snd := by
  induction entries using List.reverseRecOn with
  | nil => rfl
  | append_singleton entries entry ih =>
      rw [ofList_append_singleton, get?_insert, ih, List.reverse_append]
      by_cases same : entry.1 = key <;> simp [same]

/-- The last entry with a key gives its value. -/
theorem get?_ofList_eq_findSome? (entries : List (Key × Value)) (key : Key) :
    (ofList entries).get? key =
      entries.reverse.findSome? fun entry => if entry.1 = key then some entry.2 else none := by
  rw [get?_ofList, List.find?_eq_findSome?_guard, List.map_findSome?]
  congr 1
  funext entry
  by_cases same : entry.1 = key <;> simp [Option.guard, same]

/-- An entry gives the value of its key if no later one has the key. -/
theorem get?_ofList_of_last {before after : List (Key × Value)} {key : Key} {value : Value}
    (last : key ∉ after.map Prod.fst) :
    (ofList (before ++ (key, value) :: after)).get? key = some value := by
  have noLater : after.reverse.find? (fun entry => entry.1 = key) = none := by
    rw [List.find?_eq_none]
    intro entry entry_mem same
    rw [decide_eq_true_eq] at same
    exact last (same ▸ List.mem_map_of_mem (List.mem_reverse.mp entry_mem))
  simp [get?_ofList, List.find?_append, noLater]

/-- A map that is built by pushing items has for each key the items with that key, in order. -/
theorem entries_foldl_push {Item : Type} (keyOf : Item → Key) (items : List Item) :
    (items.foldl (fun map item => map.push (keyOf item) item) empty).entries =
      (items.map keyOf).eraseDups.map fun key =>
        (key, items.filter fun item => keyOf item = key) := by
  refine entries_foldl_upsert keyOf (fun item held => held.getD [] ++ [item]) id ?_ items
  intro items next
  cases items <;> rfl

/-- A new key is put at the end. -/
theorem entries_insert_of_not_mem {map : OrderedMap Key Value} {key : Key} (new : key ∉ map.keys)
    (value : Value) : (map.insert key value).entries = map.entries ++ [(key, value)] := by
  rw [insert, entries_upsert]
  rw [keys] at new
  generalize map.entries = entries at new
  induction entries with
  | nil => rfl
  | cons entry rest ih =>
      rw [List.map_cons, List.mem_cons, not_or] at new
      rw [upsertEntry, if_neg (Ne.symm new.1), ih new.2, List.cons_append]

theorem get?_of_mem_entries {map : OrderedMap Key Value} {key : Key} {value : Value}
    (entry_mem : (key, value) ∈ map.entries) : map.get? key = some value := by
  have found : map.entries.find? (fun entry => entry.1 = key) = some (key, value) :=
    Distinct.find?_key_eq_some map.distinct entry_mem
  rw [get?, found]
  rfl

theorem mem_entries_of_get? {map : OrderedMap Key Value} {key : Key} {value : Value}
    (found : map.get? key = some value) : (key, value) ∈ map.entries := by
  rcases Option.map_eq_some_iff.mp found with ⟨entry, entry_found, rfl⟩
  have same : entry.1 = key := by simpa using List.find?_some entry_found
  rw [← same]
  exact List.mem_of_find?_eq_some entry_found

/-- Appending lists to the values of keys one after another appends to a value all that was for its
key. -/
theorem get?_foldl_append {Item : Type} (entries : List (Key × List Item))
    (map : OrderedMap Key (List Item)) (key : Key) :
    (entries.foldl (fun map entry => map.upsert entry.1 fun held => held.getD [] ++ entry.2)
        map).get? key =
      if key ∈ entries.map Prod.fst then
        some ((map.get? key).getD [] ++
          (entries.filter fun entry => entry.1 = key).flatMap Prod.snd)
      else map.get? key := by
  induction entries generalizing map with
  | nil => simp
  | cons entry rest ih =>
      rw [List.foldl_cons, ih, get?_upsert]
      by_cases here : entry.1 = key
      · subst here
        by_cases later : entry.1 ∈ rest.map Prod.fst
        · simp [later]
        · have noneLeft : (rest.filter fun other => other.1 = entry.1) = [] := by
            rw [List.filter_eq_nil_iff]
            intro other other_mem same
            exact later (List.mem_map.mpr ⟨other, other_mem, by simpa using same⟩)
          simp [later, noneLeft]
      · have sameKeys : key ∈ (entry :: rest).map Prod.fst ↔ key ∈ rest.map Prod.fst := by
          rw [List.map_cons, List.mem_cons, or_iff_right (Ne.symm here)]
        simp only [here, sameKeys, if_false, List.filter_cons, decide_false, Bool.false_eq_true]

theorem flatMap_filter_key {Item : Type} (map : OrderedMap Key (List Item)) (key : Key) :
    (map.entries.filter fun entry => entry.1 = key).flatMap Prod.snd = (map.get? key).getD [] := by
  rw [Distinct.filter_key_eq map.distinct, get?]
  cases map.entries.find? fun entry => entry.1 = key <;> simp

/-- A key has a value exactly if it is one of the keys. -/
theorem get?_isSome_iff (map : OrderedMap Key Value) (key : Key) :
    (map.get? key).isSome ↔ key ∈ map.keys := by
  simp [get?, keys, Option.isSome_map, List.find?_isSome]

end OrderedMap

end WiredGraph
