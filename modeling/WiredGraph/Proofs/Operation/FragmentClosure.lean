import Mathlib.Data.List.Perm.Subperm
import WiredGraph.Operation.Fragments
import WiredGraph.Proofs.OrderedMap
import WiredGraph.Proofs.Success

/-!
# Fragments that an operation uses

`Uses` says which fragments a selection set uses: those that it spreads at any depth, and those
that a used fragment spreads. The search in rounds finds exactly these, or stops at one that is not
defined. A search that has found some names goes on with `searched`: what it knows are used
fragments without repetition, among them all that the set spreads itself. The number of rounds
suffices because a round can only be followed by another one if it adds a name, and can only be
made if all names known before it are defined.
-/

namespace WiredGraph

/-- The last definition of a fragment in some documents. -/
def Document.lastFragment? (documents : List Document) (name : String) :
    Option FragmentDefinition :=
  (documents.flatMap Document.fragments).reverse.find? (·.name.text = name)

/-- The fragments that a selection set uses: it spreads them, or a fragment that it uses does. -/
inductive SelectionSet.Uses (definition? : String → Option FragmentDefinition)
    (set : SelectionSet) : String → Prop where
  | spread {name : String} (spread : name ∈ set.spreadNames) : Uses definition? set name
  | through {name other : String} {fragment : FragmentDefinition}
      (used : Uses definition? set name) (defined : definition? name = some fragment)
      (spread : other ∈ fragment.set.spreadNames) : Uses definition? set other

theorem SelectionSet.mem_spreads {set : SelectionSet} {name : String} :
    name ∈ set.spreads ↔ name ∈ set.spreadNames := by
  simp [SelectionSet.spreads]

namespace Fragments

variable {fragments : Fragments} {set : SelectionSet} {known : List String}

/-- The fragments of some documents are the last definitions of their names. -/
theorem get?_ofDocuments (documents : List Document) (name : String) :
    (ofDocuments documents).get? name = Document.lastFragment? documents name := by
  rw [ofDocuments, OrderedMap.get?_ofList, ← List.map_reverse, List.find?_map,
    Document.lastFragment?, Option.map_map]
  exact Option.map_id_apply

/-- A search knows used fragments only, each once, and all that the set spreads itself. -/
structure Searched (fragments : Fragments) (set : SelectionSet) (known : List String) :
    Prop where
  distinct : known.Nodup
  used : ∀ name ∈ known, set.Uses fragments.get? name
  direct : ∀ name ∈ set.spreadNames, name ∈ known

theorem searched_spreads (fragments : Fragments) (set : SelectionSet) :
    fragments.Searched set set.spreads where
  distinct := Distinct.nodup_eraseDups _
  used _ name_mem := .spread (SelectionSet.mem_spreads.mp name_mem)
  direct _ name_mem := SelectionSet.mem_spreads.mpr name_mem

/-- A name has spreads exactly if it has a fragment. -/
theorem spreadsOf_eq_ok_iff {name : String} {spreads : List String} :
    fragments.spreadsOf name = .ok spreads ↔
      ∃ fragment, fragments.get? name = some fragment ∧ fragment.set.spreads = spreads := by
  unfold spreadsOf
  split <;> simp_all

theorem spreadsOf_eq_error_iff {name missing : String} :
    fragments.spreadsOf name = .error missing ↔
      fragments.get? name = none ∧ name = missing := by
  unfold spreadsOf
  split <;> simp_all

/-- A round succeeds if all names known before it are defined, and adds what they spread. -/
theorem expand_eq_ok {next : List String} (expanded : fragments.expand known = .ok next) :
    ∃ found,
      next = (known ++ found.flatten).eraseDups ∧
        List.Forall₂ (fun name spreads => fragments.spreadsOf name = .ok spreads) known found := by
  obtain ⟨found, each_found, rfl⟩ : ∃ found, known.mapM fragments.spreadsOf = .ok found ∧
      (known ++ found.flatten).eraseDups = next := by
    simpa only [expand, Success.bind_eq_ok, Success.pure_eq_ok] using expanded
  exact ⟨found, rfl, Success.mapM_eq_ok_iff.mp each_found⟩

theorem nodup_of_expand {next : List String} (expanded : fragments.expand known = .ok next) :
    next.Nodup := by
  rcases expand_eq_ok expanded with ⟨found, rfl, -⟩
  exact Distinct.nodup_eraseDups _

/-- The names known before a successful round are defined. -/
theorem get?_isSome_of_expand {next : List String} (expanded : fragments.expand known = .ok next) :
    ∀ name ∈ known, (fragments.get? name).isSome := by
  intro name name_mem
  obtain ⟨found, -, each_found⟩ := expand_eq_ok expanded
  obtain ⟨spreads, _, found_spreads⟩ :=
    Success.exists_right_of_forall₂ each_found name_mem
  obtain ⟨fragment, defined, _⟩ := spreadsOf_eq_ok_iff.mp found_spreads
  simp [defined]

/-- A name is known after a round if it was known before or a known fragment spreads it. -/
theorem mem_of_expand {next : List String} (expanded : fragments.expand known = .ok next)
    {name : String} :
    name ∈ next ↔ name ∈ known ∨
      ∃ user ∈ known, ∃ fragment, fragments.get? user = some fragment ∧
        name ∈ fragment.set.spreadNames := by
  obtain ⟨found, rfl, each_found⟩ := expand_eq_ok expanded
  rw [List.mem_eraseDups, List.mem_append, List.mem_flatten]
  apply or_congr_right
  constructor
  · rintro ⟨spreads, spreads_mem, name_mem⟩
    obtain ⟨user, user_mem, found_spreads⟩ :=
      Success.exists_left_of_forall₂ each_found spreads_mem
    obtain ⟨fragment, defined, rfl⟩ := spreadsOf_eq_ok_iff.mp found_spreads
    exact ⟨user, user_mem, fragment, defined, SelectionSet.mem_spreads.mp name_mem⟩
  · rintro ⟨user, user_mem, fragment, defined, name_mem⟩
    obtain ⟨spreads, spreads_mem, found_spreads⟩ :=
      Success.exists_right_of_forall₂ each_found user_mem
    obtain ⟨other, also_defined, rfl⟩ := spreadsOf_eq_ok_iff.mp found_spreads
    obtain rfl : fragment = other := Option.some.inj (defined.symm.trans also_defined)
    exact ⟨_, spreads_mem, SelectionSet.mem_spreads.mpr name_mem⟩

/-- A round keeps what is known in front. -/
theorem exists_append_of_expand {next : List String} (distinct : known.Nodup)
    (expanded : fragments.expand known = .ok next) : ∃ added, next = known ++ added := by
  obtain ⟨found, rfl, -⟩ := expand_eq_ok expanded
  rw [List.eraseDups_append, Distinct.eraseDups_of_nodup distinct]
  exact ⟨_, rfl⟩

theorem Searched.expand {next : List String} (searched : fragments.Searched set known)
    (expanded : fragments.expand known = .ok next) : fragments.Searched set next where
  distinct := nodup_of_expand expanded
  used name name_mem := by
    rcases (mem_of_expand expanded).mp name_mem with before | ⟨user, user_mem, fragment, found⟩
    · exact searched.used name before
    · exact .through (searched.used user user_mem) found.1 found.2
  direct name spread := (mem_of_expand expanded).mpr (.inl (searched.direct name spread))

/-- As many different names can be defined as there are fragments. -/
theorem length_le_size (distinct : known.Nodup)
    (defined : ∀ name ∈ known, (fragments.get? name).isSome) : known.length ≤ fragments.size := by
  have subset : known ⊆ fragments.keys := by
    intro name name_mem
    exact (OrderedMap.get?_isSome_iff fragments name).mp (defined name name_mem)
  simpa [OrderedMap.keys, OrderedMap.size] using (distinct.subperm subset).length_le

/-- A search that ends has found the used fragments, and all of them are defined. -/
structure Closed (fragments : Fragments) (set : SelectionSet) (found : List String) : Prop where
  distinct : found.Nodup
  mem_iff : ∀ name, name ∈ found ↔ set.Uses fragments.get? name
  defined : ∀ name ∈ found, (fragments.get? name).isSome

/-- A search ends with a round that adds no name. A name is spread by the set or by a used fragment,
and the last round has added neither. -/
theorem Searched.closed {next : List String} (searched : fragments.Searched set known)
    (expanded : fragments.expand known = .ok next) (settled : next.length = known.length) :
    fragments.Closed set known where
  distinct := searched.distinct
  mem_iff name := by
    refine ⟨searched.used name, fun used => ?_⟩
    obtain ⟨added, rfl⟩ := exists_append_of_expand searched.distinct expanded
    obtain rfl : added = [] := by simpa using settled
    induction used with
    | spread spread => exact searched.direct _ spread
    | through _ defined spread ih =>
        have later := (mem_of_expand expanded).mpr (.inr ⟨_, ih, _, defined, spread⟩)
        simpa using later
  defined := get?_isSome_of_expand expanded

/-- A search with enough rounds left ends with the used fragments or at one that has no definition.
Every round but the last makes the known names more, and all of them are defined, so the rounds left
are always more than the names that can be added. -/
theorem closeUpTo_spec {rounds : Nat} (searched : fragments.Searched set known)
    (enough : fragments.size + 1 - known.length < rounds) :
    match fragments.closeUpTo rounds known with
    | .ok found => fragments.Closed set found
    | .error missing => set.Uses fragments.get? missing ∧ fragments.get? missing = none := by
  induction rounds generalizing known with
  | zero => omega
  | succ rounds ih =>
      cases expanded : fragments.expand known with
      | error missing =>
          have stopped : fragments.closeUpTo (rounds + 1) known = .error missing := by
            simp [closeUpTo, expanded, bind, Except.bind]
          rw [stopped]
          have failed : known.mapM fragments.spreadsOf = .error missing := by
            rcases Success.bind_eq_error.mp expanded with failed | ⟨_, _, impossible⟩
            · exact failed
            · simp [pure, Except.pure] at impossible
          obtain ⟨name, name_mem, undefined⟩ := Success.exists_of_mapM_eq_error failed
          obtain ⟨none_found, rfl⟩ := spreadsOf_eq_error_iff.mp undefined
          exact ⟨searched.used name name_mem, none_found⟩
      | ok next =>
          by_cases settled : next.length = known.length
          · have ended : fragments.closeUpTo (rounds + 1) known = .ok known := by
              simp [closeUpTo, expanded, settled, bind, Except.bind, pure, Except.pure]
            rw [ended]
            exact searched.closed expanded settled
          · have goes_on :
                fragments.closeUpTo (rounds + 1) known = fragments.closeUpTo rounds next := by
              simp [closeUpTo, expanded, settled, bind, Except.bind]
            rw [goes_on]
            apply ih (searched.expand expanded)
            have bounded := length_le_size searched.distinct (get?_isSome_of_expand expanded)
            obtain ⟨added, rfl⟩ := exists_append_of_expand searched.distinct expanded
            simp only [List.length_append] at settled ⊢
            omega

theorem closure_spec (fragments : Fragments) (set : SelectionSet) :
    match fragments.closure set with
    | .ok found => fragments.Closed set found
    | .error missing => set.Uses fragments.get? missing ∧ fragments.get? missing = none :=
  closeUpTo_spec (fragments.searched_spreads set) (by omega)

/-- The closure of a set holds the fragments that the set uses. -/
theorem closed_of_closure {found : List String} (ended : fragments.closure set = .ok found) :
    fragments.Closed set found := by
  have spec := closure_spec fragments set
  rw [ended] at spec
  exact spec

/-- A set has a closure exactly if every fragment that it uses is defined. -/
theorem exists_closure_iff :
    (∃ found, fragments.closure set = .ok found) ↔
      ∀ name, set.Uses fragments.get? name → (fragments.get? name).isSome := by
  constructor
  · rintro ⟨found, ended⟩ name used
    have closed := closed_of_closure ended
    exact closed.defined name ((closed.mem_iff name).mpr used)
  · intro defined
    cases ended : fragments.closure set with
    | ok found => exact ⟨found, rfl⟩
    | error missing =>
        have spec := closure_spec fragments set
        rw [ended] at spec
        have impossible := defined missing spec.1
        rw [spec.2] at impossible
        exact absurd impossible (by simp)

section Agreement

variable {other : Fragments} {found : List String}

/-- One round of a search that ends: it is the last one, or the search ends after it. -/
theorem closeUpTo_succ_eq_ok_iff {rounds : Nat} :
    fragments.closeUpTo (rounds + 1) known = .ok found ↔
      ∃ next, fragments.expand known = .ok next ∧
        (next.length = known.length ∧ known = found ∨
          next.length ≠ known.length ∧ fragments.closeUpTo rounds next = .ok found) := by
  rw [closeUpTo, Success.bind_eq_ok]
  apply exists_congr
  intro next
  apply and_congr_right
  intro _
  by_cases settled : next.length = known.length <;> simp [settled]

/-- A search keeps what is known in front. -/
theorem exists_append_of_closeUpTo {rounds : Nat} (distinct : known.Nodup)
    (ended : fragments.closeUpTo rounds known = .ok found) :
    ∃ added, found = known ++ added := by
  induction rounds generalizing known with
  | zero => exact ⟨[], by simpa [closeUpTo] using ended.symm⟩
  | succ rounds ih =>
      rcases closeUpTo_succ_eq_ok_iff.mp ended with ⟨next, expanded, ⟨-, rfl⟩ | ⟨-, ended⟩⟩
      · exact ⟨[], by simp⟩
      · have nextDistinct := nodup_of_expand expanded
        rcases exists_append_of_expand distinct expanded with ⟨first, rfl⟩
        rcases ih nextDistinct ended with ⟨more, rfl⟩
        exact ⟨first ++ more, by rw [List.append_assoc]⟩

/-- A round is the same for fragments that spread the same. -/
theorem expand_agree
    (agree : ∀ name ∈ known, other.spreadsOf name = fragments.spreadsOf name) :
    other.expand known = fragments.expand known := by
  have same : known.mapM other.spreadsOf = known.mapM fragments.spreadsOf := by
    induction known with
    | nil => rfl
    | cons name rest ih =>
        rcases List.forall_mem_cons.mp agree with ⟨here, later⟩
        rw [List.mapM_cons, List.mapM_cons, here, ih later]
  rw [expand, expand, same]

/-- A search among fragments that spread the same finds the same in the same order, if it has enough
rounds left. The two searches take the same rounds, each with a bound of its own. -/
theorem closeUpTo_agree {rounds others : Nat} (distinct : known.Nodup)
    (agree : ∀ name ∈ found, other.spreadsOf name = fragments.spreadsOf name)
    (enough : fragments.size + 1 - known.length < rounds)
    (otherEnough : other.size + 1 - known.length < others)
    (ended : fragments.closeUpTo rounds known = .ok found) :
    other.closeUpTo others known = .ok found := by
  induction rounds generalizing known others with
  | zero => omega
  | succ rounds ih =>
      rcases exists_append_of_closeUpTo distinct ended with ⟨added, all⟩
      have knownAgree : ∀ name ∈ known, other.spreadsOf name = fragments.spreadsOf name :=
        fun name name_mem => agree name (all ▸ List.mem_append_left added name_mem)
      rcases closeUpTo_succ_eq_ok_iff.mp ended with ⟨next, expanded, last⟩
      have alsoExpanded : other.expand known = .ok next := by rw [expand_agree knownAgree, expanded]
      cases others with
      | zero => omega
      | succ others =>
          refine closeUpTo_succ_eq_ok_iff.mpr ⟨next, alsoExpanded, ?_⟩
          rcases last with settled | ⟨grown, ended⟩
          · exact .inl settled
          · have bounded := length_le_size distinct (get?_isSome_of_expand expanded)
            have otherBounded := length_le_size distinct (get?_isSome_of_expand alsoExpanded)
            have longer : known.length < next.length := by
              rcases exists_append_of_expand distinct expanded with ⟨first, rfl⟩
              rw [List.length_append] at grown ⊢
              omega
            exact .inr ⟨grown, ih (nodup_of_expand expanded) (by omega) (by omega) ended⟩

/-- Sets that spread the same have the same closure among fragments that spread the same. -/
theorem closure_agree {set otherSet : SelectionSet} (same : otherSet.spreadNames = set.spreadNames)
    (agree : ∀ name ∈ found, other.spreadsOf name = fragments.spreadsOf name)
    (ended : fragments.closure set = .ok found) : other.closure otherSet = .ok found := by
  rw [closure, SelectionSet.spreads, same]
  exact closeUpTo_agree (Distinct.nodup_eraseDups _) agree (by omega) (by omega) ended

end Agreement

end Fragments

end WiredGraph
