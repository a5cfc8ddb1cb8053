import WiredGraph.OrderedMap

/-!
# Persisted operations

A record holds one compiled operation: its text, complete with the fragments it uses, and the hash
that clients send instead of it. A registry collects the records for one destination. The store
answers a server's questions about the hashes it allows.
-/

namespace WiredGraph

/-- The operations that are persisted. -/
inductive OperationKind where
  | query
  | mutation
deriving DecidableEq, Repr

namespace OperationKind

/-- The word for a kind of operation. -/
def text : OperationKind → String
  | .query => "query"
  | .mutation => "mutation"

/-- The beginning of the names of generated constants. -/
def constantStart : OperationKind → String
  | .query => "QUERY_"
  | .mutation => "MUTATION_"

end OperationKind

/-- A compiled operation. -/
structure OperationRecord where
  kind : OperationKind
  operationName : String
  constantName : String
  /-- The digest of the body with its blanks collapsed. -/
  hash : String
  /-- The printed operation and the fragments it uses. -/
  body : String
  originFile : String
  originLine : UInt32
  /-- A label for the part of the client that the operation comes from. -/
  module : String
deriving DecidableEq, Repr

/-- The operations for one destination. -/
structure OperationRegistry where
  destination : String
  operations : List OperationRecord
  /-- The hash of each operation name, the last one pushed if a query and a mutation share it. -/
  hashes : OrderedMap String String

namespace OperationRegistry

/-- The registry of a destination without operations. -/
def empty (destination : String) : OperationRegistry := ⟨destination, [], .empty⟩

/-- The registry with one more record at its end. -/
def push (registry : OperationRegistry) (record : OperationRecord) : OperationRegistry :=
  { registry with
    operations := registry.operations ++ [record]
    hashes := registry.hashes.insert record.operationName record.hash }

/-- The first record with a hash. -/
def find? (registry : OperationRegistry) (hash : String) : Option OperationRecord :=
  registry.operations.find? (·.hash == hash)

/-- The hash of an operation name. -/
def hashFor? (registry : OperationRegistry) (operationName : String) : Option String :=
  registry.hashes.get? operationName

/-- The hash of each generated constant. -/
def constants (registry : OperationRegistry) : OrderedMap String String :=
  .ofList (registry.operations.map fun record => (record.constantName, record.hash))

end OperationRegistry

/-- The records that a server accepts, by hash. -/
structure PersistedOperations where
  records : OrderedMap String OperationRecord

namespace PersistedOperations

/-- The store without records. -/
def empty : PersistedOperations := ⟨.empty⟩

/-- The store with one more record, which replaces an earlier one with the same hash. -/
def insert (store : PersistedOperations) (record : OperationRecord) : PersistedOperations :=
  ⟨store.records.insert record.hash record⟩

/-- The store of the records of some registries. -/
def ofRegistries (registries : List OperationRegistry) : PersistedOperations :=
  (registries.flatMap OperationRegistry.operations).foldl insert empty

/-- The record with a hash. -/
def find? (store : PersistedOperations) (hash : String) : Option OperationRecord :=
  store.records.get? hash

/-- The name of the operation with a hash. -/
def operationName? (store : PersistedOperations) (hash : String) : Option String :=
  (store.find? hash).map OperationRecord.operationName

/-- The text of the operation with a hash. -/
def body? (store : PersistedOperations) (hash : String) : Option String :=
  (store.find? hash).map OperationRecord.body

end PersistedOperations

end WiredGraph
