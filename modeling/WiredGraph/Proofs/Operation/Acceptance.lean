import WiredGraph.Operation.Compiler
import WiredGraph.Proofs.Operation.FragmentClosure

/-!
# Acceptance of operations

An operation is accepted as what `AcceptedAs` says: with its own kind and name, the first metadata
entry of its input that has both, and the fragments that it uses. Operations are accepted one after
another, and what an earlier one adds to the later ones is only that its kind and name are taken.
All of them are accepted, therefore, exactly if each can be accepted by itself and no two share
kind and name.
-/

namespace WiredGraph

namespace AcceptedOperation

/-- The kind and the name of an accepted operation. -/
def identity (accepted : AcceptedOperation) : OperationKind × String :=
  (accepted.kind, accepted.name)

end AcceptedOperation

namespace OperationCandidate

/-- The first metadata entry for a kind and a name in the metadata of the operation's input. -/
def entryFor? (candidate : OperationCandidate) (identity : OperationKind × String) :
    Option OperationMetadata :=
  candidate.metadata.find? fun entry => entry.kind = identity.1 ∧ entry.name = identity.2

/-- How an operation is accepted, whatever other operations there are. -/
structure AcceptedAs (fragments : Fragments) (candidate : OperationCandidate)
    (accepted : AcceptedOperation) : Prop where
  file : accepted.file = candidate.source.file
  definition : accepted.definition = candidate.definition
  identity : candidate.definition.identity? = some accepted.identity
  metadata : candidate.entryFor? accepted.identity = some accepted.metadata
  fragments : fragments.closure candidate.definition.set = .ok accepted.fragments

variable {fragments : Fragments} {candidate : OperationCandidate} {accepted : AcceptedOperation}
  {earlier : List (OperationKind × String × Location)}

/-- The kinds and names that are taken. -/
def taken (earlier : List (OperationKind × String × Location)) : List (OperationKind × String) :=
  earlier.map fun entry => (entry.1, entry.2.1)

/-- What is accepted is taken for the operations after it. -/
theorem taken_append (earlier : List (OperationKind × String × Location))
    (accepted : AcceptedOperation) (location : Location) :
    taken (earlier ++ [(accepted.kind, accepted.name, location)]) =
      taken earlier ++ [accepted.identity] := by
  simp [taken, AcceptedOperation.identity]

theorem find?_eq_none_iff_not_taken (kind : OperationKind) (name : String) :
    (earlier.find? fun entry => entry.1 = kind ∧ entry.2.1 = name) = none ↔
      (kind, name) ∉ taken earlier := by
  simp only [List.find?_eq_none, taken, List.mem_map, not_exists, not_and, Prod.mk.injEq,
    decide_eq_true_eq]

theorem identity?_eq_some_iff {definition : OperationDefinition}
    {identity : OperationKind × String} :
    definition.identity? = some identity ↔
      OperationKind.ofType? definition.operation = some identity.1 ∧
        ∃ name, definition.name = some name ∧ name.text = identity.2 := by
  rcases identity with ⟨kind, text⟩
  simp only [OperationDefinition.identity?, Option.bind_eq_bind, Option.bind_eq_some_iff,
    Option.some.injEq, Prod.mk.injEq]
  constructor
  · rintro ⟨_, kinded, name, named, rfl, rfl⟩
    exact ⟨kinded, name, named, rfl⟩
  · rintro ⟨kinded, name, named, rfl⟩
    exact ⟨_, kinded, name, named, rfl, rfl⟩

/-- If an operation has a kind and a name that are not taken, and metadata for them, it depends on
its fragments whether it is accepted. -/
theorem accept_of_described {kind : OperationKind} {name : String} {metadata : OperationMetadata}
    (identity : candidate.definition.identity? = some (kind, name))
    (described : candidate.entryFor? (kind, name) = some metadata)
    (free : (kind, name) ∉ taken earlier) :
    candidate.accept fragments earlier =
      match fragments.closure candidate.definition.set with
      | .error fragment => .error (.unknownFragment candidate.location fragment name)
      | .ok used =>
          .ok ⟨candidate.source.file, candidate.definition, kind, name, metadata, used⟩ := by
  rcases identity?_eq_some_iff.mp identity with ⟨kinded, written, named, rfl⟩
  have untaken : (earlier.find? fun entry => entry.1 = kind ∧ entry.2.1 = written.text) = none :=
    (find?_eq_none_iff_not_taken _ _).mpr free
  have found : (candidate.metadata.find?
      fun entry => entry.kind = kind ∧ entry.name = written.text) = some metadata := described
  dsimp only at kinded
  simp only [accept, named, kinded, found, untaken]
  cases fragments.closure candidate.definition.set <;> rfl

/-- An operation is accepted if it can be by itself and its kind and name are not taken. -/
theorem accept_eq_ok_iff :
    candidate.accept fragments earlier = .ok accepted ↔
      candidate.AcceptedAs fragments accepted ∧ accepted.identity ∉ taken earlier := by
  constructor
  · intro accepts
    simp only [accept] at accepts
    split at accepts
    · next name named =>
      split at accepts
      · next kind kinded =>
        split at accepts
        · next metadata described =>
          split at accepts
          · simp at accepts
          · next free =>
            split at accepts
            · simp at accepts
            · next used closed =>
              obtain rfl := Success.pure_eq_ok.mp accepts
              refine ⟨⟨rfl, rfl, identity?_eq_some_iff.mpr ⟨kinded, name, named, rfl⟩,
                described, closed⟩, ?_⟩
              apply (find?_eq_none_iff_not_taken kind name.text).mp
              rw [Option.eq_none_iff_forall_ne_some]
              rintro ⟨_, _, _⟩
              exact free _ _ _
        · simp at accepts
      · simp at accepts
    · simp at accepts
  · rcases accepted with ⟨file, definition, kind, name, metadata, used⟩
    rintro ⟨⟨rfl, rfl, identity, described, closed⟩, free⟩
    rw [accept_of_described identity described free, closed]

/-- Operations are accepted if each can be by itself, no two share kind and name, and none has
the kind and name of an earlier one. -/
theorem acceptAll_eq_ok_iff {candidates : List OperationCandidate}
    {operations : List AcceptedOperation} :
    acceptAll fragments earlier candidates = .ok operations ↔
      List.Forall₂ (AcceptedAs fragments) candidates operations ∧
        (operations.map AcceptedOperation.identity).Nodup ∧
          ∀ operation ∈ operations, operation.identity ∉ taken earlier := by
  induction candidates generalizing earlier operations with
  | nil =>
      simp only [acceptAll, Except.ok.injEq, List.forall₂_nil_left_iff]
      constructor
      · rintro rfl
        simp
      · rintro ⟨rfl, -⟩
        rfl
  | cons candidate rest ih =>
      cases operations with
      | nil => simp [acceptAll]
      | cons operation others =>
          simp only [acceptAll, Success.bind_eq_ok, Success.pure_eq_ok, accept_eq_ok_iff, ih,
            taken_append, List.forall₂_cons, List.map_cons, List.nodup_cons, List.mem_append,
            List.mem_singleton, List.forall_mem_cons]
          constructor
          · rintro ⟨accepted, ⟨accepts, free⟩, further, ⟨related, distinct, others_free⟩, same⟩
            rcases List.cons.inj same with ⟨rfl, rfl⟩
            refine ⟨⟨accepts, related⟩, ⟨?_, distinct⟩, free, ?_⟩
            · intro repeated
              rcases List.mem_map.mp repeated with ⟨other, other_mem, equal⟩
              exact others_free other other_mem (.inr equal)
            · intro other other_mem other_taken
              exact others_free other other_mem (.inl other_taken)
          · rintro ⟨⟨accepts, related⟩, ⟨new, distinct⟩, free, others_free⟩
            refine ⟨operation, ⟨accepts, free⟩, others, ⟨related, distinct, ?_⟩, rfl⟩
            rintro other other_mem (other_taken | equal)
            · exact others_free other other_mem other_taken
            · exact new (List.mem_map.mpr ⟨other, other_mem, equal⟩)

end OperationCandidate

end WiredGraph
