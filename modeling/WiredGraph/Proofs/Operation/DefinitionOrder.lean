import WiredGraph.Proofs.Compile.Sources
import WiredGraph.Proofs.Operation.FragmentOrder
import WiredGraph.Proofs.Operation.Rendering
import WiredGraph.Proofs.Text.Cutting

/-!
# The order of definitions in bodies

A body is made of the text of its operation and of one block of text for each fragment that the
operation uses. The blocks stand in the opposite order in which the fragments are found, which is
that of their distances. A fragment therefore stands before one that spreads it if the spread leads
away from the operation, and behind it if the spread leads back to a fragment that is nearer; which
one of two fragments of the same distance stands first depends on the order in which they are found.
-/

namespace WiredGraph

namespace OperationBody

variable {fragments : Fragments} {operation : OperationDefinition} {used found : List String}

/-- The text of the definition of a fragment in a body, after the line feed that sets it apart. -/
def block (fragments : Fragments) (name : String) : List Char :=
  match fragments.get? name with
  | some fragment => '\n' :: fragment.withTypenames.print
  | none => []

/-- The definition of one fragment stands before that of another one in a body, which consists of
the operation and one block for each used fragment. -/
def StandsBefore (fragments : Fragments) (operation : OperationDefinition) (used : List String)
    (first second : String) : Prop :=
  ∃ front middle back : List String,
    used.Perm (front ++ first :: (middle ++ second :: back)) ∧
      (render fragments operation used).toList = operation.withTypenames.print ++
        (front ++ first :: (middle ++ second :: back)).flatMap (block fragments)

theorem map_block_reverse (defined : ∀ name ∈ used, (fragments.get? name).isSome) :
    used.reverse.map (block fragments) =
      ((usedFragments fragments used).map FragmentDefinition.print).map ('\n' :: ·) := by
  rw [usedFragments, List.map_map, List.map_map, List.map_filterMap, ← List.filterMap_eq_map]
  refine List.filterMap_congr fun name name_mem => ?_
  rcases Option.isSome_iff_exists.mp (defined name (List.mem_reverse.mp name_mem)) with
    ⟨fragment, known⟩
  simp [block, known]

/-- A body is the text of its operation and a block for each fragment, the last one first. -/
theorem toList_render_eq_blocks (operation : OperationDefinition)
    (defined : ∀ name ∈ used, (fragments.get? name).isSome) :
    (render fragments operation used).toList =
      operation.withTypenames.print ++ used.reverse.flatMap (block fragments) := by
  rw [toList_render, List.flatMap_def, map_block_reverse defined]
  split
  · next none_used =>
      rw [List.isEmpty_iff] at none_used
      subst none_used
      rfl
  · next some_used =>
      rw [Text.cons_join_eq_flatten]
      intro no_piece
      have no_block := map_block_reverse defined
      rw [no_piece] at no_block
      simp_all

/-- What is found first stands last. -/
theorem standsBefore_of_sublist {first second : String}
    (defined : ∀ name ∈ found, (fragments.get? name).isSome)
    (order : [first, second].Sublist found) :
    StandsBefore fragments operation found second first := by
  rcases List.cons_sublist_iff.mp order with ⟨front, rest, rfl, first_mem, later⟩
  rcases List.append_of_mem first_mem with ⟨early, middle, rfl⟩
  rcases List.append_of_mem (List.singleton_sublist.mp later) with ⟨between, back, rfl⟩
  refine ⟨back.reverse, between.reverse ++ middle.reverse, early.reverse, ?_, ?_⟩
  · refine (List.reverse_perm _).symm.trans (List.Perm.of_eq ?_)
    simp
  · rw [toList_render_eq_blocks operation defined]
    simp

theorem sublist_of_distance_lt {first second : String} {near far : Nat}
    (ended : fragments.closure operation.set = .ok found) (first_mem : first ∈ found)
    (second_mem : second ∈ found) (nearest : operation.set.IsDistance fragments.get? first near)
    (farthest : operation.set.IsDistance fragments.get? second far) (closer : near < far) :
    [first, second].Sublist found := by
  have ordered := Fragments.pairwise_distance_le_of_closure ended
  rcases List.append_of_mem first_mem with ⟨front, back, rfl⟩
  rcases List.mem_append.mp second_mem with before | after
  · have wrong := (List.pairwise_append.mp ordered).2.2 second before first List.mem_cons_self
      far near farthest nearest
    omega
  · rcases List.mem_cons.mp after with rfl | after
    · have same := farthest.2 nearest.1
      omega
    · exact ((List.singleton_sublist.mpr after).cons_cons first).trans
        (List.sublist_append_right front _)

/-- Of two fragments the one that is found first stands last. So a fragment stands before one that
spreads it if it is farther from the operation, by one spread, but after it if it is nearer. -/
theorem definitions_stand_by_distance (ended : fragments.closure operation.set = .ok found) :
    (∀ first second, [first, second].Sublist found →
        StandsBefore fragments operation found second first) ∧
      ∀ user ∈ found, ∀ fragment, fragments.get? user = some fragment →
        ∀ other ∈ fragment.set.spreadNames, other ∈ found ∧
          ∀ near far, operation.set.IsDistance fragments.get? user near →
            operation.set.IsDistance fragments.get? other far → far ≤ near + 1 ∧
              (near < far → StandsBefore fragments operation found other user) ∧
              (far < near → StandsBefore fragments operation found user other) := by
  have closed := Fragments.closed_of_closure ended
  refine ⟨fun first second => standsBefore_of_sublist closed.defined, ?_⟩
  intro user user_mem fragment known other spread
  have other_mem : other ∈ found :=
    (closed.mem_iff other).mpr (.through ((closed.mem_iff user).mp user_mem) known spread)
  refine ⟨other_mem, fun near far userAt otherAt => ⟨?step, fun closer => ?_, fun closer => ?_⟩⟩
  case step => exact otherAt.2 (.through userAt.1 known spread)
  · exact standsBefore_of_sublist closed.defined
      (sublist_of_distance_lt ended user_mem other_mem userAt otherAt closer)
  · exact standsBefore_of_sublist closed.defined
      (sublist_of_distance_lt ended other_mem user_mem otherAt userAt closer)

/-- A query that spreads a fragment itself which it also reaches over two others. -/
def sharedImage : SourceFile :=
  ⟨"query.graphql", "query Q \x7b ...Image ...Card \x7d fragment Card on T \x7b ...Frame \x7d" ++
    " fragment Frame on T \x7b ...Image \x7d fragment Image on T \x7b url \x7d", 1⟩

theorem definitions_stand_by_distance_sharedImage :
    ∃ operation ∈ sharedImage.document.operations, ∃ found,
      (Fragments.ofDocuments [sharedImage.document]).closure operation.set = .ok found ∧
        StandsBefore (.ofDocuments [sharedImage.document]) operation found "Frame" "Card" ∧
        StandsBefore (.ofDocuments [sharedImage.document]) operation found "Frame" "Image" := by
  have facts : sharedImage.document.operations.any (fun operation =>
      decide (operation.set.spreadNames = ["Image", "Card"]) &&
        ((Fragments.ofDocuments [sharedImage.document]).closure operation.set).toOption =
          some ["Image", "Card", "Frame"]) = true := by decide +kernel
  have card : ((Fragments.ofDocuments [sharedImage.document]).get? "Card").map
      (·.set.spreadNames) = some ["Frame"] := by decide +kernel
  have frame : ((Fragments.ofDocuments [sharedImage.document]).get? "Frame").map
      (·.set.spreadNames) = some ["Image"] := by decide +kernel
  rcases List.any_eq_true.mp facts with ⟨operation, operation_mem, facts⟩
  rcases Bool.and_eq_true_iff.mp facts with ⟨direct, ended⟩
  have direct : operation.set.spreadNames = ["Image", "Card"] := of_decide_eq_true direct
  have ended : (Fragments.ofDocuments [sharedImage.document]).closure operation.set =
      .ok ["Image", "Card", "Frame"] := Success.toOption_eq_some_iff.mp (of_decide_eq_true ended)
  rcases Option.map_eq_some_iff.mp card with ⟨cardFragment, cardKnown, cardSpreads⟩
  rcases Option.map_eq_some_iff.mp frame with ⟨frameFragment, frameKnown, frameSpreads⟩
  have imageAt : operation.set.IsDistance
      (Fragments.ofDocuments [sharedImage.document]).get? "Image" 1 :=
    ⟨.spread (by simp [direct]), fun _ reached => reached.pos⟩
  have cardAt : operation.set.IsDistance
      (Fragments.ofDocuments [sharedImage.document]).get? "Card" 1 :=
    ⟨.spread (by simp [direct]), fun _ reached => reached.pos⟩
  have frameAt : operation.set.IsDistance
      (Fragments.ofDocuments [sharedImage.document]).get? "Frame" 2 := by
    refine ⟨.through cardAt.1 cardKnown (by simp [cardSpreads]), fun steps reached => ?_⟩
    cases reached with
    | spread spread => simp [direct] at spread
    | through reached _ _ => exact Nat.succ_le_succ reached.pos
  have order := (definitions_stand_by_distance ended).2
  refine ⟨operation, operation_mem, _, ended, ?_, ?_⟩
  · exact ((order "Card" (by simp) cardFragment cardKnown "Frame" (by simp [cardSpreads])).2
      1 2 cardAt frameAt).2.1 (by omega)
  · exact ((order "Frame" (by simp) frameFragment frameKnown "Image" (by simp [frameSpreads])).2
      2 1 frameAt imageAt).2.2 (by omega)

end OperationBody

end WiredGraph
