/-!
# Ordered maps

A map that keeps its keys in the order in which they were first inserted. Inserting a key that is
already there replaces its value and leaves it where it is. The order is part of the map: artifacts
show it.
-/

namespace WiredGraph

/-- Values by distinct keys, in the order of first insertion. -/
structure OrderedMap (Key Value : Type) where
  entries : List (Key × Value)
  distinct : (entries.map Prod.fst).Nodup

namespace OrderedMap

variable {Key Value : Type}

@[ext]
theorem ext {first second : OrderedMap Key Value} (same : first.entries = second.entries) :
    first = second := by
  cases first
  cases second
  simp_all

variable [DecidableEq Key]

/-- Changes the value of a key, which is put at the end if it is new. -/
def upsertEntry (key : Key) (change : Option Value → Value) :
    List (Key × Value) → List (Key × Value)
  | [] => [(key, change none)]
  | (other, held) :: rest =>
      if other = key then (other, change (some held)) :: rest
      else (other, held) :: upsertEntry key change rest

/-- The keys after a change: a new key stands at the end. -/
theorem map_fst_upsertEntry (key : Key) (change : Option Value → Value)
    (entries : List (Key × Value)) :
    (upsertEntry key change entries).map Prod.fst =
      if key ∈ entries.map Prod.fst then entries.map Prod.fst
      else entries.map Prod.fst ++ [key] := by
  induction entries with
  | nil => simp [upsertEntry]
  | cons entry rest ih =>
      obtain ⟨other, held⟩ := entry
      by_cases same : other = key
      · simp [upsertEntry, same]
      · have different : key ≠ other := fun equal => same equal.symm
        simp only [upsertEntry, same, if_false, List.map_cons, ih, List.mem_cons, different,
          false_or]
        split <;> simp

theorem nodup_upsertEntry (key : Key) (change : Option Value → Value)
    {entries : List (Key × Value)} (distinct : (entries.map Prod.fst).Nodup) :
    ((upsertEntry key change entries).map Prod.fst).Nodup := by
  rw [map_fst_upsertEntry]
  split
  · exact distinct
  · next new =>
      refine List.nodup_append.2 ⟨distinct, by simp, ?_⟩
      intro left inKeys right inSingle same
      exact new (List.mem_singleton.1 inSingle ▸ same ▸ inKeys)

/-- The map without entries. -/
def empty : OrderedMap Key Value := ⟨[], List.nodup_nil⟩

/-- The keys in order. -/
def keys (map : OrderedMap Key Value) : List Key := map.entries.map Prod.fst

/-- The values in the order of their keys. -/
def values (map : OrderedMap Key Value) : List Value := map.entries.map Prod.snd

/-- Number of entries. -/
def size (map : OrderedMap Key Value) : Nat := map.entries.length

/-- The value of a key. -/
def get? (map : OrderedMap Key Value) (key : Key) : Option Value :=
  (map.entries.find? (·.1 = key)).map Prod.snd

/-- Whether a key has a value. -/
def contains (map : OrderedMap Key Value) (key : Key) : Bool := (map.get? key).isSome

/-- Changes the value of a key, which is put at the end if it is new. -/
def upsert (map : OrderedMap Key Value) (key : Key) (change : Option Value → Value) :
    OrderedMap Key Value :=
  ⟨upsertEntry key change map.entries, nodup_upsertEntry key change map.distinct⟩

/-- Gives a key a value, at the end if the key is new. -/
def insert (map : OrderedMap Key Value) (key : Key) (value : Value) : OrderedMap Key Value :=
  map.upsert key fun _ => value

/-- The map after inserting entries from left to right. -/
def ofList (entries : List (Key × Value)) : OrderedMap Key Value :=
  entries.foldl (fun map entry => map.insert entry.1 entry.2) empty

/-- A map of lists with one more item at the end of the list of a key. -/
def push {Item : Type} (map : OrderedMap Key (List Item)) (key : Key) (item : Item) :
    OrderedMap Key (List Item) :=
  map.upsert key fun held => held.getD [] ++ [item]

@[simp]
theorem keys_insert (map : OrderedMap Key Value) (key : Key) (value : Value) :
    (map.insert key value).keys = if key ∈ map.keys then map.keys else map.keys ++ [key] :=
  map_fst_upsertEntry key _ map.entries

theorem find?_upsertEntry (key other : Key) (change : Option Value → Value)
    (entries : List (Key × Value)) :
    ((upsertEntry key change entries).find? (·.1 = other)).map Prod.snd =
      if key = other then some (change ((entries.find? (·.1 = key)).map Prod.snd))
      else (entries.find? (·.1 = other)).map Prod.snd := by
  induction entries with
  | nil =>
      by_cases same : key = other <;> simp [upsertEntry, same]
  | cons entry rest ih =>
      obtain ⟨held, value⟩ := entry
      by_cases here : held = key <;> by_cases same : key = other <;>
        by_cases there : held = other <;> simp_all [upsertEntry]

@[simp]
theorem get?_upsert (map : OrderedMap Key Value) (key other : Key)
    (change : Option Value → Value) :
    (map.upsert key change).get? other =
      if key = other then some (change (map.get? key)) else map.get? other :=
  find?_upsertEntry key other change map.entries

@[simp]
theorem get?_insert (map : OrderedMap Key Value) (key other : Key) (value : Value) :
    (map.insert key value).get? other = if key = other then some value else map.get? other :=
  get?_upsert map key other _

end OrderedMap

end WiredGraph
