import Mathlib.Data.List.Forall2

/-!
# When a chain of steps succeeds

Compiling and reading are chains of steps that may fail. A chain succeeds exactly if each of its
steps does, given what the steps before it produced; over a list, exactly if the step succeeds for
every item.
-/

namespace WiredGraph

namespace Success

variable {Fault First Second Third : Type}

@[simp]
theorem bind_eq_ok {first : Except Fault First} {next : First → Except Fault Second}
    {second : Second} :
    first >>= next = .ok second ↔ ∃ value, first = .ok value ∧ next value = .ok second := by
  cases first <;> simp [bind, Except.bind]

theorem bind_eq_error {first : Except Fault First} {next : First → Except Fault Second}
    {fault : Fault} :
    first >>= next = .error fault ↔
      first = .error fault ∨ ∃ value, first = .ok value ∧ next value = .error fault := by
  cases first <;> simp [bind, Except.bind]

@[simp]
theorem map_eq_ok {first : Except Fault First} {change : First → Second} {second : Second} :
    change <$> first = .ok second ↔ ∃ value, first = .ok value ∧ change value = second := by
  cases first <;> simp [Functor.map, Except.map]

@[simp]
theorem pure_eq_ok {value other : First} :
    (pure value : Except Fault First) = .ok other ↔ value = other := by
  simp [pure, Except.pure]

@[simp]
theorem throw_ne_ok {fault : Fault} {value : First} :
    (throw fault : Except Fault First) ≠ .ok value := nofun

theorem toOption_eq_some_iff {step : Except Fault First} {value : First} :
    step.toOption = some value ↔ step = .ok value := by
  cases step <;> simp [Except.toOption]

/-- What is returned after a step does not make it fail. -/
theorem bind_pure_eq_error {step : Except Fault First} {finish : First → Second} {fault : Fault} :
    (step >>= fun value => pure (finish value)) = .error fault ↔ step = .error fault := by
  cases step <;> simp [bind, Except.bind, pure, Except.pure]

theorem exists_bind_pure_eq_ok_iff {step : Except Fault First} {finish : First → Second} :
    (∃ result, (step >>= fun value => pure (finish value)) = .ok result) ↔
      ∃ value, step = .ok value := by
  cases step <;> simp [bind, Except.bind, pure, Except.pure]

/-- A guarded step succeeds if the guard holds and the step succeeds. -/
theorem unless_eq_ok {condition : Prop} [Decidable condition] {fault : Fault}
    {next otherwise : Except Fault First} {value : First} :
    (if condition then next else (throw fault : Except Fault PUnit) >>= fun _ => otherwise) =
        .ok value ↔
      condition ∧ next = .ok value := by
  split <;> simp [*]

/-- A step behind a refusal succeeds if nothing is refused and the step succeeds. -/
theorem when_eq_ok {condition : Prop} [Decidable condition] {fault : Fault}
    {next otherwise : Except Fault First} {value : First} :
    (if condition then (throw fault : Except Fault PUnit) >>= fun _ => otherwise else next) =
        .ok value ↔
      ¬condition ∧ next = .ok value := by
  split <;> simp [*]

theorem forall₂_append_left_iff {Related : First → Second → Prop} {front back : List First}
    {results : List Second} :
    List.Forall₂ Related (front ++ back) results ↔
      ∃ before after, List.Forall₂ Related front before ∧ List.Forall₂ Related back after ∧
        before ++ after = results := by
  constructor
  · intro related
    induction front generalizing results with
    | nil => exact ⟨[], results, .nil, related, rfl⟩
    | cons item rest ih =>
        rcases List.forall₂_cons_left_iff.mp related with ⟨result, others, here, later, rfl⟩
        rcases ih later with ⟨before, after, fronts, backs, rfl⟩
        exact ⟨result :: before, after, .cons here fronts, backs, rfl⟩
  · rintro ⟨before, after, fronts, backs, rfl⟩
    exact List.rel_append fronts backs

theorem exists_right_of_forall₂ {Related : First → Second → Prop} {items : List First}
    {results : List Second} (related : List.Forall₂ Related items results) {item : First}
    (item_mem : item ∈ items) : ∃ result ∈ results, Related item result := by
  induction related with
  | nil => simp at item_mem
  | cons here _ ih =>
      rcases List.mem_cons.mp item_mem with rfl | later
      · exact ⟨_, by simp, here⟩
      · obtain ⟨result, result_mem, there⟩ := ih later
        exact ⟨result, List.mem_cons_of_mem _ result_mem, there⟩

theorem exists_left_of_forall₂ {Related : First → Second → Prop} {items : List First}
    {results : List Second} (related : List.Forall₂ Related items results) {result : Second}
    (result_mem : result ∈ results) : ∃ item ∈ items, Related item result :=
  exists_right_of_forall₂ related.flip result_mem

theorem forall₂_congr_of_mem {Related AlsoRelated : First → Second → Prop} {items : List First}
    {results : List Second}
    (same : ∀ item ∈ items, ∀ result, Related item result ↔ AlsoRelated item result) :
    List.Forall₂ Related items results ↔ List.Forall₂ AlsoRelated items results := by
  induction items generalizing results with
  | nil => simp
  | cons item rest ih =>
      have later := fun other other_mem => same other (List.mem_cons_of_mem item other_mem)
      cases results with
      | nil => simp
      | cons result others =>
          rw [List.forall₂_cons, List.forall₂_cons, same item List.mem_cons_self, ih later]

/-- Items that all have a partner make a list that has one. -/
theorem exists_forall₂ {Related : First → Second → Prop} {items : List First}
    (each : ∀ item ∈ items, ∃ result, Related item result) :
    ∃ results, List.Forall₂ Related items results := by
  induction items with
  | nil => exact ⟨[], .nil⟩
  | cons item rest ih =>
      rcases each item (by simp) with ⟨result, here⟩
      rcases ih fun other other_mem => each other (List.mem_cons_of_mem _ other_mem) with
        ⟨results, later⟩
      exact ⟨result :: results, .cons here later⟩

theorem exists_forall₂_iff {Related : First → Second → Prop} {items : List First} :
    (∃ results, List.Forall₂ Related items results) ↔
      ∀ item ∈ items, ∃ result, Related item result := by
  constructor
  · rintro ⟨results, related⟩ item item_mem
    rcases exists_right_of_forall₂ related item_mem with ⟨result, -, here⟩
    exact ⟨result, here⟩
  · exact exists_forall₂

/-- A step made for every item of a list succeeds exactly if it succeeds for each of them. -/
theorem mapM_eq_ok_iff {step : First → Except Fault Second} {items : List First}
    {results : List Second} :
    items.mapM step = .ok results ↔
      List.Forall₂ (fun item result => step item = .ok result) items results := by
  induction items generalizing results with
  | nil => cases results <;> simp [pure, Except.pure]
  | cons item rest ih =>
      cases results with
      | nil => simp
      | cons result others => simp [ih]

/-- A step that relates the parts of every item to results relates the parts of all items to all
results. -/
theorem exists_mapM_flatten_iff {step : First → Except Fault (List Second)}
    {parts : First → List Third} {Related : Third → Second → Prop} {items : List First}
    {whole : List Second}
    (each : ∀ item ∈ items, ∀ results,
      step item = .ok results ↔ List.Forall₂ Related (parts item) results) :
    (∃ results, items.mapM step = .ok results ∧ results.flatten = whole) ↔
      List.Forall₂ Related (items.flatMap parts) whole := by
  simp only [mapM_eq_ok_iff]
  induction items generalizing whole with
  | nil => cases whole <;> simp
  | cons item rest ih =>
      have later := fun other other_mem => each other (List.mem_cons_of_mem item other_mem)
      simp only [List.flatMap_cons, forall₂_append_left_iff, ← ih later]
      constructor
      · rintro ⟨results, related, rfl⟩
        rcases List.forall₂_cons_left_iff.mp related with ⟨first, others, here, there, rfl⟩
        exact ⟨first, others.flatten, (each item (by simp) first).mp here, ⟨others, there, rfl⟩,
          rfl⟩
      · rintro ⟨first, _, here, ⟨others, there, rfl⟩, rfl⟩
        exact ⟨first :: others, .cons ((each item (by simp) first).mpr here) there, rfl⟩

/-- Two steps made for every item, the second when the first is done for all, succeed exactly if
they succeed one after the other for each of them. -/
theorem mapM_mapM_eq_ok_iff {step : First → Except Fault Second}
    {next : Second → Except Fault Third} {items : List First} {results : List Third} :
    (∃ between, items.mapM step = .ok between ∧ between.mapM next = .ok results) ↔
      List.Forall₂ (fun item result => ∃ value, step item = .ok value ∧ next value = .ok result)
        items results := by
  simp only [mapM_eq_ok_iff]
  induction items generalizing results with
  | nil => simp
  | cons item rest ih =>
      cases results with
      | nil => simp [List.forall₂_cons_left_iff]
      | cons result others =>
          rw [List.forall₂_cons, ← ih]
          constructor
          · rintro ⟨between, firsts, seconds⟩
            cases firsts with
            | cons here firsts =>
                cases seconds with
                | cons there seconds => exact ⟨⟨_, here, there⟩, _, firsts, seconds⟩
          · rintro ⟨⟨value, here, there⟩, between, firsts, seconds⟩
            exact ⟨value :: between, .cons here firsts, .cons there seconds⟩

theorem forM_eq_ok_iff {step : First → Except Fault Unit} {items : List First} :
    items.forM step = .ok () ↔ ∀ item ∈ items, step item = .ok () := by
  induction items with
  | nil => simp [pure, Except.pure]
  | cons item rest ih =>
      rw [List.forM_eq_forM] at ih ⊢
      rw [List.forM_cons, bind_eq_ok, List.forall_mem_cons, ← ih]
      constructor
      · rintro ⟨⟨⟩, here, later⟩
        exact ⟨here, later⟩
      · rintro ⟨here, later⟩
        exact ⟨(), here, later⟩

/-- Items for which a step succeeds may be left out. -/
theorem forM_filter_eq {step : First → Except Fault Unit} {keeps : First → Bool}
    {items : List First}
    (passes : ∀ item ∈ items, keeps item = false → step item = .ok ()) :
    (items.filter keeps).forM step = items.forM step := by
  induction items with
  | nil => rfl
  | cons item rest ih =>
      have later := ih fun other other_mem => passes other (List.mem_cons_of_mem _ other_mem)
      simp only [List.forM_eq_forM] at later ⊢
      rw [List.filter_cons, List.forM_cons, ← later]
      cases kept : keeps item with
      | true => rw [if_pos rfl, List.forM_cons]
      | false =>
          rw [passes item List.mem_cons_self kept]
          rfl

/-- Lists are related by a function and a condition on its argument exactly if the condition holds
throughout and the one list is the image of the other. -/
theorem forall₂_and_eq_iff {Holds : First → Prop} {image : First → Second} {items : List First}
    {results : List Second} :
    List.Forall₂ (fun item result => Holds item ∧ image item = result) items results ↔
      (∀ item ∈ items, Holds item) ∧ items.map image = results := by
  rw [List.forall₂_and_left]
  apply and_congr_right
  intro _
  rw [← List.forall₂_map_left_iff, List.forall₂_eq_eq_eq]

/-- A step made for every item of a list fails where it fails for one of them. -/
theorem exists_of_mapM_eq_error {step : First → Except Fault Second} {items : List First}
    {fault : Fault} (failed : items.mapM step = .error fault) :
    ∃ item ∈ items, step item = .error fault := by
  induction items with
  | nil => simp [pure, Except.pure] at failed
  | cons item rest ih =>
      rw [List.mapM_cons, bind_eq_error] at failed
      rcases failed with here | ⟨result, _, failed⟩
      · exact ⟨item, by simp, here⟩
      · rcases bind_eq_error.mp failed with later | ⟨_, _, impossible⟩
        · obtain ⟨other, other_mem, other_failed⟩ := ih later
          exact ⟨other, List.mem_cons_of_mem _ other_mem, other_failed⟩
        · simp [pure, Except.pure] at impossible

section Faults

variable {allowed : Fault → Prop}

/-- Whatever makes a step fail is one of the faults that are allowed. -/
def FailsOnly (allowed : Fault → Prop) (step : Except Fault First) : Prop :=
  ∀ fault, step = .error fault → allowed fault

theorem failsOnly_of_exists_ok {step : Except Fault First} (succeeds : ∃ value, step = .ok value) :
    FailsOnly allowed step := by
  rcases succeeds with ⟨value, rfl⟩
  exact nofun

theorem failsOnly_pure (value : First) : FailsOnly allowed (pure value : Except Fault First) :=
  failsOnly_of_exists_ok ⟨value, rfl⟩

theorem failsOnly_bind {step : Except Fault First} {next : First → Except Fault Second}
    (first : FailsOnly allowed step)
    (second : ∀ value, step = .ok value → FailsOnly allowed (next value)) :
    FailsOnly allowed (step >>= next) := by
  intro fault failed
  rcases bind_eq_error.mp failed with here | ⟨value, found, later⟩
  · exact first fault here
  · exact second value found fault later

theorem failsOnly_mapM {step : First → Except Fault Second} {items : List First}
    (each : ∀ item ∈ items, FailsOnly allowed (step item)) :
    FailsOnly allowed (items.mapM step) := by
  intro fault failed
  rcases exists_of_mapM_eq_error failed with ⟨item, item_mem, here⟩
  exact each item item_mem fault here

end Faults

end Success

end WiredGraph
