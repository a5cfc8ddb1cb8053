import WiredGraph.Json.Decode
import WiredGraph.Proofs.OrderedMap

/-!
# What is encoded is decoded

A decoder goes with an encoder if it gives back every item that has a proper written form and
refuses what is written for any other item. Decoders of lists, maps and fields go with the encoders
that are made in the same way. The fields of a record are told apart by their keys alone: each is
found wherever it stands among the members, and a missing one is found to be missing.
-/

namespace WiredGraph

namespace OrderedMap

variable {Key Value : Type} [DecidableEq Key]

/-- A map is made again from its own entries. -/
theorem ofList_entries (map : OrderedMap Key Value) : ofList map.entries = map := by
  have made : ∀ entries : List (Key × Value), (entries.map Prod.fst).Nodup →
      (ofList entries).entries = entries := by
    intro entries
    induction entries using List.reverseRecOn with
    | nil => exact fun _ => rfl
    | append_singleton entries entry ih =>
        intro distinct
        rw [List.map_append, List.nodup_append] at distinct
        rcases distinct with ⟨earlier, -, apart⟩
        have new : entry.1 ∉ (ofList entries).keys := by
          rw [keys, ih earlier]
          exact fun known => apart _ known _ (List.mem_singleton_self entry.1) rfl
        rw [ofList_append_singleton, entries_insert_of_not_mem new, ih earlier]
  exact OrderedMap.ext (made map.entries map.distinct)

end OrderedMap

section Restoring

variable {Item Written : Type} {item? : Written → Option Item} {encode : Item → Written}
  {sound : Item → Prop}

/-- A decoder gives back sound items from what an encoder writes, and refuses what it writes for
others. -/
def Restores (item? : Written → Option Item) (encode : Item → Written) (sound : Item → Prop) :
    Prop :=
  ∀ item found, item? (encode item) = some found ↔ sound item ∧ item = found

theorem eq_some_iff_of_eq_some {decoded : Option Item} {item found : Item} {isSound : Prop}
    (holds : isSound) (decodes : decoded = some item) :
    decoded = some found ↔ isSound ∧ item = found := by
  rw [decodes, Option.some_inj, and_iff_right holds]

theorem restores_of_eq (decodes : ∀ item, item? (encode item) = some item) :
    Restores item? encode fun _ => True :=
  fun item _ => eq_some_iff_of_eq_some trivial (decodes item)

namespace Restores

variable (restores : Restores item? encode sound)

include restores

theorem eq_some {item : Item} (isSound : sound item) : item? (encode item) = some item :=
  (restores item item).mpr ⟨isSound, rfl⟩

/-- Items are decoded one by one. -/
theorem mapM : Restores (fun written : List Written => written.mapM item?) (List.map encode)
    fun items => ∀ item ∈ items, sound item := by
  intro items found
  induction items generalizing found with
  | nil => simp
  | cons item rest ih =>
      simp only [List.map_cons, List.mapM_cons, Option.bind_eq_bind, Option.bind_eq_some_iff,
        Option.pure_def, Option.some_inj, List.forall_mem_cons]
      constructor
      · rintro ⟨first, firstFound, others, othersFound, rfl⟩
        rcases (restores item first).mp firstFound with ⟨itemSound, rfl⟩
        rcases (ih others).mp othersFound with ⟨restSound, rfl⟩
        exact ⟨⟨itemSound, restSound⟩, rfl⟩
      · rintro ⟨⟨itemSound, restSound⟩, rfl⟩
        exact ⟨item, restores.eq_some itemSound, rest, (ih rest).mpr ⟨restSound, rfl⟩, rfl⟩

end Restores

end Restoring

namespace Json

variable {Item : Type} {item? : Json → Option Item} {encode : Item → Json} {sound : Item → Prop}

theorem restores_asString? : Restores asString? .string fun _ => True :=
  restores_of_eq fun _ => rfl

theorem asUInt32?_ofUInt32 (value : UInt32) : (ofUInt32 value).asUInt32? = some value := by
  have fits : 0 ≤ (value.toNat : Int) ∧ (value.toNat : Int) ≤ 0xffffffff := by
    have := value.toNat_lt
    omega
  rw [ofUInt32, asUInt32?]
  simp [asInt?, fits]

theorem asInt64?_ofInt64 (value : Int64) : (ofInt64 value).asInt64? = some value := by
  have fits : -0x8000000000000000 ≤ value.toInt ∧ value.toInt ≤ 0x7fffffffffffffff := by
    have := value.toInt_lt
    have := value.le_toInt
    omega
  rw [ofInt64, asInt64?]
  simp [asInt?, fits]

section Fields

variable (restores : Restores item? encode sound)

include restores

theorem restores_asList? : Restores (asList? item?) (fun items => .array (items.map encode))
    fun items => ∀ item ∈ items, sound item :=
  restores.mapM

theorem restores_asMap? : Restores (asMap? item?)
    (fun map => .object (map.entries.map fun (key, item) => (key, encode item)))
    fun map => ∀ entry ∈ map.entries, sound entry.2 := by
  have entryRestores : Restores (fun member => (item? member.2).map (member.1, ·))
      (fun (entry : String × Item) => (entry.1, encode entry.2)) fun entry => sound entry.2 := by
    rintro ⟨key, item⟩ ⟨otherKey, found⟩
    simp only [Option.map_eq_some_iff, Prod.mk.injEq]
    constructor
    · rintro ⟨_, decoded, rfl, rfl⟩
      rcases (restores item _).mp decoded with ⟨isSound, rfl⟩
      exact ⟨isSound, rfl, rfl⟩
    · rintro ⟨isSound, rfl, rfl⟩
      exact ⟨item, restores.eq_some isSound, rfl, rfl⟩
  intro map found
  simp only [asMap?, Option.bind_eq_bind, Option.bind_eq_some_iff, Option.some_inj]
  constructor
  · rintro ⟨entries, decoded, rfl⟩
    rcases (entryRestores.mapM map.entries entries).mp decoded with ⟨isSound, rfl⟩
    exact ⟨isSound, map.ofList_entries.symm⟩
  · rintro ⟨isSound, rfl⟩
    exact ⟨map.entries, entryRestores.mapM.eq_some isSound, map.ofList_entries⟩

theorem required?_some (item found : Item) :
    required? item? (some (encode item)) = some found ↔ sound item ∧ item = found :=
  restores item found

/-- A field without a value is left out, and one that is left out has no value. -/
theorem optional?_map (notNull : ∀ item, encode item ≠ .null) (value found : Option Item) :
    optional? item? (value.map encode) = some found ↔
      (∀ item ∈ value, sound item) ∧ value = found := by
  rcases value with - | item
  · simp [optional?, defaulted?]
  · have decoded : asOption? item? (encode item) = (item? (encode item)).map some := by
      rw [asOption?]
      exact notNull item
    rw [Option.map_some, optional?, defaulted?, decoded, Option.map_eq_some_iff]
    constructor
    · rintro ⟨other, otherFound, rfl⟩
      rcases (restores item other).mp otherFound with ⟨isSound, rfl⟩
      exact ⟨by simpa using isSound, rfl⟩
    · rintro ⟨isSound, rfl⟩
      exact ⟨item, restores.eq_some (isSound item rfl), rfl⟩

/-- A field is left out only if it has its default. -/
theorem defaulted?_unless {item default : Item} {omitted : Bool}
    (isDefault : omitted = true → sound item ∧ item = default) (found : Item) :
    defaulted? item? default (if omitted then none else some (encode item)) = some found ↔
      sound item ∧ item = found := by
  cases omitted with
  | true =>
      rcases isDefault rfl with ⟨isSound, rfl⟩
      simp [defaulted?, isSound]
  | false => exact restores item found

end Fields

section Records

/-- The members of a record whose fields have a value or are left out. -/
def givenMembers (fields : List (String × Option Json)) : List (String × Json) :=
  fields.filterMap fun field => field.2.map (field.1, ·)

variable {fields : List (String × Option Json)}

theorem givenMembers_filter (keep : String → Bool) :
    (givenMembers fields).filter (fun member => keep member.1) =
      givenMembers (fields.filter fun field => keep field.1) := by
  induction fields with
  | nil => rfl
  | cons field rest ih =>
      rcases field with ⟨key, - | value⟩ <;> cases kept : keep key <;>
        simpa [givenMembers, kept] using ih

/-- A field is found by its key. -/
theorem uniqueMember?_givenMembers (distinct : (fields.map Prod.fst).Nodup) {key : String}
    {value : Option Json} (field_mem : (key, value) ∈ fields) :
    uniqueMember? (givenMembers fields) key = some value := by
  have only : fields.filter (fun field => field.1 == key) = [(key, value)] := by
    have found := Distinct.find?_key_eq_some distinct field_mem
    have filtered := Distinct.filter_key_eq distinct key
    rw [found] at filtered
    simpa [Bool.beq_eq_decide_eq] using filtered
  rw [uniqueMember?, givenMembers_filter (· == key), only]
  cases value <;> rfl

/-- The fields of a record are found by their keys, whatever else stands in it. -/
theorem fields?_givenMembers (distinct : (fields.map Prod.fst).Nodup)
    {wanted : List (String × Option Json)} (within : ∀ field ∈ wanted, field ∈ fields) :
    fields? (wanted.map Prod.fst) (.object (givenMembers fields)) = some (wanted.map Prod.snd) := by
  rw [fields?]
  induction wanted with
  | nil => rfl
  | cons field rest ih =>
      rw [List.forall_mem_cons] at within
      rw [List.map_cons, List.mapM_cons, uniqueMember?_givenMembers distinct within.1, ih within.2]
      rfl

/-- All fields of a record are found in its written form. -/
theorem fields?_of_eq {names : List String} {written : Json}
    (record : written = .object (givenMembers fields)) (keys : fields.map Prod.fst = names)
    (distinct : names.Nodup) : fields? names written = some (fields.map Prod.snd) := by
  subst record keys
  exact fields?_givenMembers distinct fun _ => id

/-- The variant of a tagged record and its other fields. -/
theorem variant?_givenMembers (distinct : (fields.map Prod.fst).Nodup) {tag : String}
    (tag_mem : ("kind", some (.string tag)) ∈ fields) :
    variant? (.object (givenMembers fields)) =
      some (tag, .object (givenMembers (fields.filter (·.1 != "kind")))) := by
  rw [variant?, uniqueMember?_givenMembers distinct tag_mem, ← givenMembers_filter (· != "kind")]
  rfl

end Records

end Json

end WiredGraph
