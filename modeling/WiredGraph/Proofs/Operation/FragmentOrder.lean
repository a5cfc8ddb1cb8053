import Mathlib.Order.Bounds.Defs
import Mathlib.Data.Nat.Find
import WiredGraph.Proofs.Compile.Sources
import WiredGraph.Proofs.Operation.Acceptance

/-!
# The order in which fragments are found

The distance of a fragment is the least number of spreads that lead to it from the selections of an
operation. A search in rounds goes outwards: after each round it knows the fragments up to one
distance more, the nearer ones first. Without any bound on its rounds it ends, and with what the
bounded search gives; so the used fragments are found in the order of their distances, or else one
of them is not defined.
-/

namespace WiredGraph

namespace SelectionSet

/-- A fragment is led to by a number of spreads, the first of them in the selection set. -/
inductive ReachesIn (definition? : String → Option FragmentDefinition) (set : SelectionSet) :
    Nat → String → Prop where
  | spread {name : String} (spread : name ∈ set.spreadNames) : ReachesIn definition? set 1 name
  | through {steps : Nat} {name other : String} {fragment : FragmentDefinition}
      (reached : ReachesIn definition? set steps name)
      (defined : definition? name = some fragment) (spread : other ∈ fragment.set.spreadNames) :
      ReachesIn definition? set (steps + 1) other

/-- The least number of spreads that lead to a fragment. -/
def IsDistance (definition? : String → Option FragmentDefinition) (set : SelectionSet)
    (name : String) (distance : Nat) : Prop :=
  IsLeast {steps | set.ReachesIn definition? steps name} distance

variable {definition? : String → Option FragmentDefinition} {set : SelectionSet}

theorem uses_iff_exists_reachesIn {name : String} :
    set.Uses definition? name ↔ ∃ steps, set.ReachesIn definition? steps name := by
  constructor
  · intro used
    induction used with
    | spread spread => exact ⟨1, .spread spread⟩
    | through _ defined spread ih =>
        rcases ih with ⟨steps, reached⟩
        exact ⟨steps + 1, .through reached defined spread⟩
  · rintro ⟨steps, reached⟩
    induction reached with
    | spread spread => exact .spread spread
    | through _ defined spread ih => exact .through ih defined spread

theorem uses_iff_exists_isDistance {name : String} :
    set.Uses definition? name ↔ ∃ distance, set.IsDistance definition? name distance := by
  classical
  rw [uses_iff_exists_reachesIn]
  constructor
  · intro reachable
    exact ⟨Nat.find reachable, Nat.find_spec reachable, fun _ reached =>
      Nat.find_min' reachable reached⟩
  · rintro ⟨distance, reached, -⟩
    exact ⟨distance, reached⟩

theorem ReachesIn.pos {steps : Nat} {name : String}
    (reached : set.ReachesIn definition? steps name) : 0 < steps := by
  cases reached <;> omega

end SelectionSet

namespace Fragments

open SelectionSet (ReachesIn)

variable {fragments : Fragments} {set : SelectionSet} {known next : List String}

/-- What a search that knows some names ends with, however many rounds it takes. -/
inductive Ends (fragments : Fragments) : List String → Except String (List String) → Prop where
  | undefined {known : List String} {missing : String}
      (failed : fragments.expand known = .error missing) : Ends fragments known (.error missing)
  | settled {known next : List String} (expanded : fragments.expand known = .ok next)
      (same : next.length = known.length) : Ends fragments known (.ok known)
  | round {known next : List String} {outcome : Except String (List String)}
      (expanded : fragments.expand known = .ok next) (grown : next.length ≠ known.length)
      (ends : Ends fragments next outcome) : Ends fragments known outcome

theorem ends_iff_of_failed {missing : String} {outcome : Except String (List String)}
    (failed : fragments.expand known = .error missing) :
    fragments.Ends known outcome ↔ .error missing = outcome := by
  constructor
  · intro ends
    cases ends with
    | undefined alsoFailed => rw [← failed, alsoFailed]
    | settled expanded _ => simp [failed] at expanded
    | round expanded _ _ => simp [failed] at expanded
  · rintro rfl
    exact .undefined failed

theorem ends_iff_of_settled {outcome : Except String (List String)}
    (expanded : fragments.expand known = .ok next) (same : next.length = known.length) :
    fragments.Ends known outcome ↔ .ok known = outcome := by
  constructor
  · intro ends
    cases ends with
    | undefined failed => simp [expanded] at failed
    | settled _ _ => rfl
    | round alsoExpanded grown _ =>
        cases Except.ok.inj (expanded.symm.trans alsoExpanded)
        exact absurd same grown
  · rintro rfl
    exact .settled expanded same

theorem ends_iff_of_grown {outcome : Except String (List String)}
    (expanded : fragments.expand known = .ok next) (grown : next.length ≠ known.length) :
    fragments.Ends known outcome ↔ fragments.Ends next outcome := by
  constructor
  · intro ends
    cases ends with
    | undefined failed => simp [expanded] at failed
    | settled alsoExpanded same =>
        cases Except.ok.inj (expanded.symm.trans alsoExpanded)
        exact absurd same grown
    | round alsoExpanded _ ends =>
        cases Except.ok.inj (expanded.symm.trans alsoExpanded)
        exact ends
  · exact .round expanded grown

/-- A search with enough rounds left ends as one without a bound does. -/
theorem ends_iff_closeUpTo {rounds : Nat} {outcome : Except String (List String)}
    (distinct : known.Nodup) (enough : fragments.size + 1 - known.length < rounds) :
    fragments.Ends known outcome ↔ fragments.closeUpTo rounds known = outcome := by
  induction rounds generalizing known with
  | zero => omega
  | succ rounds ih =>
      rw [closeUpTo]
      cases expanded : fragments.expand known with
      | error missing => exact ends_iff_of_failed expanded
      | ok next =>
          by_cases settled : next.length = known.length
          · rw [ends_iff_of_settled expanded settled]
            simp [settled, bind, Except.bind, pure, Except.pure]
          · have bounded := length_le_size distinct (get?_isSome_of_expand expanded)
            have longer : known.length < next.length := by
              rcases exists_append_of_expand distinct expanded with ⟨added, rfl⟩
              rw [List.length_append] at settled ⊢
              omega
            rw [ends_iff_of_grown expanded settled, ih (nodup_of_expand expanded) (by omega)]
            simp [settled, bind, Except.bind]

/-- After some rounds a search knows the fragments up to one distance more. -/
structure SearchedTo (fragments : Fragments) (set : SelectionSet) (rounds : Nat)
    (known : List String) : Prop where
  distinct : known.Nodup
  mem_iff : ∀ name, name ∈ known ↔
    ∃ steps ≤ rounds + 1, set.ReachesIn fragments.get? steps name
  /-- However a later one is reached, an earlier one is reached by no more spreads. -/
  ordered : known.Pairwise fun earlier later => ∀ steps,
    set.ReachesIn fragments.get? steps later →
      ∃ fewer ≤ steps, set.ReachesIn fragments.get? fewer earlier

theorem searchedTo_spreads (fragments : Fragments) (set : SelectionSet) :
    fragments.SearchedTo set 0 set.spreads where
  distinct := Distinct.nodup_eraseDups _
  mem_iff name := by
    rw [SelectionSet.mem_spreads]
    constructor
    · intro spread
      exact ⟨1, Nat.le_refl 1, .spread spread⟩
    · rintro ⟨steps, few, reached⟩
      cases reached with
      | spread spread => exact spread
      | through reached _ _ =>
          have := reached.pos
          omega
  ordered := by
    refine List.Pairwise.imp_of_mem ?_ (Distinct.nodup_eraseDups set.spreadNames)
    intro earlier later earlier_mem _ _ steps reached
    exact ⟨1, reached.pos, .spread (SelectionSet.mem_spreads.mp earlier_mem)⟩

theorem SearchedTo.mem_next_iff {rounds : Nat} (searched : fragments.SearchedTo set rounds known)
    (expanded : fragments.expand known = .ok next) (name : String) :
    name ∈ next ↔ ∃ steps ≤ rounds + 1 + 1, set.ReachesIn fragments.get? steps name := by
  rw [mem_of_expand expanded, searched.mem_iff]
  constructor
  · rintro (⟨steps, few, reached⟩ | ⟨user, user_mem, fragment, defined, spread⟩)
    · exact ⟨steps, by omega, reached⟩
    · rcases (searched.mem_iff user).mp user_mem with ⟨steps, few, reached⟩
      exact ⟨steps + 1, by omega, .through reached defined spread⟩
  · rintro ⟨steps, few, reached⟩
    cases reached with
    | spread spread => exact .inl ⟨1, by omega, .spread spread⟩
    | @through steps user _ fragment reached defined spread =>
        exact .inr ⟨user, (searched.mem_iff user).mpr ⟨steps, by omega, reached⟩, fragment,
          defined, spread⟩

/-- A round takes a search one round further. What it adds is reached by no fewer spreads than
anything that is known then. -/
theorem SearchedTo.expand {rounds : Nat} (searched : fragments.SearchedTo set rounds known)
    (expanded : fragments.expand known = .ok next) :
    fragments.SearchedTo set (rounds + 1) next := by
  have distinct := nodup_of_expand expanded
  have mem_next := searched.mem_next_iff expanded
  refine ⟨distinct, mem_next, ?_⟩
  rcases exists_append_of_expand searched.distinct expanded with ⟨added, rfl⟩
  have farthest : ∀ earlier ∈ known ++ added, ∀ later ∈ added, ∀ steps,
      set.ReachesIn fragments.get? steps later →
        ∃ fewer ≤ steps, set.ReachesIn fragments.get? fewer earlier := by
    intro earlier earlier_mem later later_mem steps reached
    have new : later ∉ known := fun before =>
      (List.nodup_append.mp distinct).2.2 later before later later_mem rfl
    have far : rounds + 1 < steps := by
      by_contra near
      exact new ((searched.mem_iff later).mpr ⟨steps, by omega, reached⟩)
    rcases (mem_next earlier).mp earlier_mem with ⟨fewer, few, alsoReached⟩
    exact ⟨fewer, by omega, alsoReached⟩
  refine List.pairwise_append.mpr ⟨searched.ordered, ?_, ?_⟩
  · refine List.Pairwise.imp_of_mem ?_ (List.nodup_append.mp distinct).2.1
    intro earlier later earlier_mem later_mem _
    exact farthest earlier (List.mem_append_right _ earlier_mem) later later_mem
  · intro earlier earlier_mem later later_mem
    exact farthest earlier (List.mem_append_left _ earlier_mem) later later_mem

theorem SearchedTo.ends {rounds : Nat} {found : List String}
    (searched : fragments.SearchedTo set rounds known)
    (ends : fragments.Ends known (.ok found)) : ∃ all, fragments.SearchedTo set all found := by
  generalize outcome_eq : (Except.ok found : Except String (List String)) = outcome at ends
  induction ends generalizing rounds with
  | undefined _ => cases outcome_eq
  | settled _ _ =>
      cases outcome_eq
      exact ⟨rounds, searched⟩
  | round expanded _ _ ih => exact ih (searched.expand expanded) outcome_eq

theorem ends_iff_closure {outcome : Except String (List String)} :
    fragments.Ends set.spreads outcome ↔ fragments.closure set = outcome :=
  ends_iff_closeUpTo (Distinct.nodup_eraseDups _) (by omega)

/-- Fragments are found in the order of their distances. -/
theorem pairwise_distance_le_of_closure {found : List String}
    (ended : fragments.closure set = .ok found) :
    found.Pairwise fun earlier later => ∀ near far,
      set.IsDistance fragments.get? earlier near → set.IsDistance fragments.get? later far →
        near ≤ far := by
  rcases (fragments.searchedTo_spreads set).ends (ends_iff_closure.mpr ended) with ⟨_, searched⟩
  refine searched.ordered.imp fun ordered near far nearest farthest => ?_
  rcases ordered far farthest.1 with ⟨fewer, few, reached⟩
  exact Nat.le_trans (nearest.2 reached) few

/-- The search for the fragments of an operation ends. It ends with the name of a fragment that is
used and not defined exactly if there is one, for which the operation is then refused; and else with
the used fragments, each once and the nearer ones first. -/
theorem closure_finds_used_by_distance (fragments : Fragments) (candidate : OperationCandidate) :
    (∀ outcome, fragments.Ends candidate.definition.set.spreads outcome ↔
        fragments.closure candidate.definition.set = outcome) ∧
      ((∃ missing, fragments.closure candidate.definition.set = .error missing) ↔
        ∃ name, candidate.definition.set.Uses fragments.get? name ∧
          fragments.get? name = none) ∧
      (∀ missing, fragments.closure candidate.definition.set = .error missing →
        (candidate.definition.set.Uses fragments.get? missing ∧ fragments.get? missing = none) ∧
          ∀ earlier kind name, candidate.definition.identity? = some (kind, name) →
            (candidate.entryFor? (kind, name)).isSome →
              (kind, name) ∉ OperationCandidate.taken earlier →
                candidate.accept fragments earlier =
                  .error (.unknownFragment candidate.location missing name)) ∧
      ∀ found, fragments.closure candidate.definition.set = .ok found →
        found.Nodup ∧
          (∀ name, name ∈ found ↔ candidate.definition.set.Uses fragments.get? name) ∧
          (∀ name ∈ found, ∃ distance,
            candidate.definition.set.IsDistance fragments.get? name distance) ∧
          found.Pairwise fun earlier later => ∀ near far,
            candidate.definition.set.IsDistance fragments.get? earlier near →
              candidate.definition.set.IsDistance fragments.get? later far → near ≤ far := by
  have spec := fragments.closure_spec candidate.definition.set
  refine ⟨fun _ => ends_iff_closure, ⟨?fails, ?undefined⟩, ?reported, ?found⟩
  case fails =>
    rintro ⟨missing, failed⟩
    rw [failed] at spec
    exact ⟨missing, spec⟩
  case undefined =>
    rintro ⟨name, used, undefined⟩
    cases ended : fragments.closure candidate.definition.set with
    | error missing => exact ⟨missing, rfl⟩
    | ok found =>
        have defined := exists_closure_iff.mp ⟨found, ended⟩ name used
        simp [undefined] at defined
  case reported =>
    intro missing failed
    rw [failed] at spec
    refine ⟨spec, fun earlier kind name identity described free => ?_⟩
    rcases Option.isSome_iff_exists.mp described with ⟨metadata, described⟩
    rw [OperationCandidate.accept_of_described identity described free, failed]
  case found =>
    intro found ended
    have closed := closed_of_closure ended
    refine ⟨closed.distinct, closed.mem_iff, fun name name_mem => ?_,
      pairwise_distance_le_of_closure ended⟩
    exact SelectionSet.uses_iff_exists_isDistance.mp ((closed.mem_iff name).mp name_mem)

/-- A query with fragments that spread each other in a circle, one of them also itself. -/
def circle : SourceFile :=
  ⟨"query.graphql", "query Q \x7b a \x7b ...Bed \x7d ... on T \x7b ...Plant \x7d \x7d" ++
    " fragment Bed on T \x7b ...Bed ...Shed \x7d fragment Plant on T \x7b ...Bed \x7d" ++
    " fragment Shed on T \x7b ...Plant \x7d", 1⟩

theorem closure_finds_used_by_distance_circle :
    ∃ candidate ∈ OperationCandidate.ofSources [circle.parsed] [],
      (ofDocuments [circle.document]).Ends candidate.definition.set.spreads
          (.ok ["Bed", "Plant", "Shed"]) ∧
        candidate.definition.set.Uses (ofDocuments [circle.document]).get? "Shed" ∧
        (∃ distance, candidate.definition.set.IsDistance (ofDocuments [circle.document]).get?
          "Shed" distance) ∧
        ∃ name, candidate.definition.set.Uses (ofDocuments []).get? name ∧
          (ofDocuments []).get? name = none := by
  have facts : (OperationCandidate.ofSources [circle.parsed] []).any (fun candidate =>
      decide (((ofDocuments [circle.document]).closure candidate.definition.set).toOption =
        some ["Bed", "Plant", "Shed"]) &&
      decide (((ofDocuments []).closure candidate.definition.set).toOption = none)) = true := by
    decide +kernel
  rcases List.any_eq_true.mp facts with ⟨candidate, candidate_mem, facts⟩
  rcases Bool.and_eq_true_iff.mp facts with ⟨complete, incomplete⟩
  have ended : (ofDocuments [circle.document]).closure candidate.definition.set =
      .ok ["Bed", "Plant", "Shed"] := Success.toOption_eq_some_iff.mp (of_decide_eq_true complete)
  have failed : ∃ missing, (ofDocuments []).closure candidate.definition.set = .error missing := by
    cases found : (ofDocuments []).closure candidate.definition.set <;>
      simp_all [Except.toOption]
  have whole := closure_finds_used_by_distance (ofDocuments [circle.document]) candidate
  have part := closure_finds_used_by_distance (ofDocuments []) candidate
  rcases whole.2.2.2 _ ended with ⟨-, used, distances, -⟩
  exact ⟨candidate, candidate_mem, (whole.1 _).mpr ended, (used "Shed").mp (by simp),
    distances "Shed" (by simp), part.2.1.mp failed⟩

end Fragments

end WiredGraph
