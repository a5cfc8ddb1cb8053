import WiredGraph.Operation.Compiler
import WiredGraph.Proofs.OrderedMap

/-!
# Routing of records

Records are put into the registry of their destination one after another. The registries that come
out stand in the order in which their destinations first occur, and each holds the records for its
destination in the order in which they came.
-/

namespace WiredGraph

namespace OperationRegistry

/-- The registry of a destination with records added one after another. -/
def ofRecords (destination : String) (records : List OperationRecord) : OperationRegistry :=
  records.foldl push (empty destination)

theorem ofRecords_append_singleton (destination : String) (records : List OperationRecord)
    (record : OperationRecord) :
    ofRecords destination (records ++ [record]) = (ofRecords destination records).push record := by
  rw [ofRecords, List.foldl_append]
  rfl

@[simp]
theorem destination_ofRecords (destination : String) (records : List OperationRecord) :
    (ofRecords destination records).destination = destination := by
  induction records using List.reverseRecOn with
  | nil => rfl
  | append_singleton records record ih => rw [ofRecords_append_singleton, push, ih]

@[simp]
theorem operations_ofRecords (destination : String) (records : List OperationRecord) :
    (ofRecords destination records).operations = records := by
  induction records using List.reverseRecOn with
  | nil => rfl
  | append_singleton records record ih => rw [ofRecords_append_singleton, push, ih]

theorem hashes_ofRecords (destination : String) (records : List OperationRecord) :
    (ofRecords destination records).hashes =
      .ofList (records.map fun record => (record.operationName, record.hash)) := by
  induction records using List.reverseRecOn with
  | nil => rfl
  | append_singleton records record ih =>
      rw [ofRecords_append_singleton, push, ih, List.map_append, List.map_cons, List.map_nil,
        OrderedMap.ofList_append_singleton]

/-- A registry of records knows for each name the hash of the last record with that name. -/
theorem hashFor?_ofRecords (destination : String) (records : List OperationRecord)
    (name : String) :
    (ofRecords destination records).hashFor? name =
      (records.reverse.find? (·.operationName = name)).map OperationRecord.hash := by
  rw [hashFor?, hashes_ofRecords, OrderedMap.get?_ofList, ← List.map_reverse, List.find?_map,
    Option.map_map]
  rfl

end OperationRegistry

namespace OperationCompiler

/-- The registry that a nonempty list of records for one destination leads to. -/
def registryOf (routed : List (String × OperationRecord)) : OperationRegistry :=
  .ofRecords ((routed.head?.map Prod.fst).getD "") (routed.map Prod.snd)

theorem registryOf_append_singleton (routed : List (String × OperationRecord))
    (next : String × OperationRecord) :
    registryOf (routed ++ [next]) =
      ((if routed = [] then none else some (registryOf routed)).getD (.empty next.1)).push
        next.2 := by
  cases routed with
  | nil => rfl
  | cons first rest =>
      rw [if_neg (List.cons_ne_nil first rest), Option.getD_some]
      simp only [registryOf, List.map_append, List.map_cons, List.map_nil, List.cons_append,
        List.head?_cons, Option.map_some, Option.getD_some]
      exact OperationRegistry.ofRecords_append_singleton _ (first.2 :: rest.map Prod.snd) next.2

theorem registryOf_filter {routed : List (String × OperationRecord)} {destination : String}
    (occurs : destination ∈ routed.map Prod.fst) :
    registryOf (routed.filter fun entry => entry.1 = destination) =
      .ofRecords destination ((routed.filter fun entry => entry.1 = destination).map Prod.snd) := by
  cases kept : routed.filter fun entry => entry.1 = destination with
  | nil =>
      rcases List.mem_map.mp occurs with ⟨entry, entry_mem, same⟩
      rw [List.filter_eq_nil_iff] at kept
      exact absurd (decide_eq_true same) (kept entry entry_mem)
  | cons entry rest =>
      have entry_mem : entry ∈ routed.filter fun entry => entry.1 = destination := by
        rw [kept]
        exact List.mem_cons_self
      have same : entry.1 = destination := by
        simpa using (List.mem_filter.mp entry_mem).2
      simp [registryOf, same]

/-- The registries that records are put into: one for each destination, in the order in which the
destinations first occur, with the records for it. -/
theorem values_foldl_route (routed : List (String × OperationRecord)) :
    (routed.foldl route .empty).values =
      (routed.map Prod.fst).eraseDups.map fun destination =>
        .ofRecords destination
          ((routed.filter fun entry => entry.1 = destination).map Prod.snd) := by
  have entries : (routed.foldl route .empty).entries =
      (routed.map Prod.fst).eraseDups.map fun destination =>
        (destination, registryOf (routed.filter fun entry => entry.1 = destination)) :=
    OrderedMap.entries_foldl_upsert Prod.fst
      (fun next (held : Option OperationRegistry) => (held.getD (.empty next.1)).push next.2)
      registryOf registryOf_append_singleton routed
  rw [OrderedMap.values, entries, List.map_map]
  apply List.map_congr_left
  intro destination destination_mem
  exact registryOf_filter (List.mem_eraseDups.mp destination_mem)

end OperationCompiler

end WiredGraph
