import Mathlib.Data.List.Forall2

/-!
# Two runs of a chain of steps

A chain of steps may be run twice, on inputs that are related. If at each step either both runs go
on with related values or both stop with related faults, the same is true of the whole chain.
-/

namespace WiredGraph

variable {Fault First Second Third Fourth : Type}

/-- Two runs both succeed, with related values, or both fail, with related faults. -/
inductive SameOutcome (SameFault : Fault → Fault → Prop) (Same : First → Second → Prop) :
    Except Fault First → Except Fault Second → Prop where
  | ok {value : First} {other : Second} (same : Same value other) :
      SameOutcome SameFault Same (.ok value) (.ok other)
  | error {fault other : Fault} (same : SameFault fault other) :
      SameOutcome SameFault Same (.error fault) (.error other)

namespace SameOutcome

variable {SameFault : Fault → Fault → Prop} {Between : First → Second → Prop}
  {Same : Third → Fourth → Prop} {first : Except Fault First} {second : Except Fault Second}

theorem iff_exists :
    SameOutcome SameFault Between first second ↔
      (∃ fault other, first = .error fault ∧ second = .error other ∧ SameFault fault other) ∨
        ∃ value other, first = .ok value ∧ second = .ok other ∧ Between value other := by
  constructor
  · intro here
    cases here with
    | ok same => exact .inr ⟨_, _, rfl, rfl, same⟩
    | error same => exact .inl ⟨_, _, rfl, rfl, same⟩
  · rintro (⟨fault, other, rfl, rfl, same⟩ | ⟨value, other, rfl, rfl, same⟩)
    · exact .error same
    · exact .ok same

/-- A step that both runs make alike, with what follows it. -/
theorem bind_same {step : Except Fault Fourth} {next : Fourth → Except Fault First}
    {otherNext : Fourth → Except Fault Second}
    (later : ∀ value, SameOutcome Eq Between (next value) (otherNext value)) :
    SameOutcome Eq Between (step >>= next) (step >>= otherNext) := by
  cases step with
  | ok value => exact later value
  | error fault => exact .error rfl

theorem bind {next : First → Except Fault Third} {otherNext : Second → Except Fault Fourth}
    (here : SameOutcome SameFault Between first second)
    (later : ∀ value other, Between value other →
      SameOutcome SameFault Same (next value) (otherNext other)) :
    SameOutcome SameFault Same (first >>= next) (second >>= otherNext) := by
  cases here with
  | ok same => exact later _ _ same
  | error same => exact .error same

theorem imp {Weaker : First → Second → Prop} (here : SameOutcome SameFault Between first second)
    (implies : ∀ value other, Between value other → Weaker value other) :
    SameOutcome SameFault Weaker first second := by
  cases here with
  | ok same => exact .ok (implies _ _ same)
  | error same => exact .error same

/-- A step made for every item of two lists stops at the same place in both, if at all. -/
theorem mapM {step : First → Except Fault Third} {otherStep : Second → Except Fault Fourth}
    {items : List First} {others : List Second} (related : List.Forall₂ Between items others)
    (each : ∀ item other, Between item other →
      SameOutcome SameFault Same (step item) (otherStep other)) :
    SameOutcome SameFault (List.Forall₂ Same) (items.mapM step) (others.mapM otherStep) := by
  induction related with
  | nil => exact .ok .nil
  | cons here _ ih =>
      rw [List.mapM_cons, List.mapM_cons]
      apply (each _ _ here).bind
      intro value other same
      exact ih.bind fun _ _ rest => .ok (.cons same rest)

end SameOutcome

/-- Lists have the same images exactly if their items have the same images in pairs. -/
theorem forall₂_same_image_iff {image : First → Third} {otherImage : Second → Third}
    {items : List First} {others : List Second} :
    List.Forall₂ (fun item other => image item = otherImage other) items others ↔
      items.map image = others.map otherImage := by
  rw [← List.forall₂_eq_eq_eq, List.forall₂_map_left_iff, List.forall₂_map_right_iff]

theorem flatMap_eq_of_forall₂ {Related : First → Second → Prop} {parts : First → List Third}
    {otherParts : Second → List Third} {items : List First} {others : List Second}
    (related : List.Forall₂ Related items others)
    (each : ∀ item other, Related item other → parts item = otherParts other) :
    items.flatMap parts = others.flatMap otherParts := by
  induction related with
  | nil => rfl
  | cons here _ ih => rw [List.flatMap_cons, List.flatMap_cons, each _ _ here, ih]

/-- A step that does the same for related items does the same for related lists. -/
theorem mapM_eq_of_forall₂ {Related : First → Second → Prop} {step : First → Except Fault Third}
    {otherStep : Second → Except Fault Third} {items : List First} {others : List Second}
    (related : List.Forall₂ Related items others)
    (each : ∀ item other, Related item other → step item = otherStep other) :
    items.mapM step = others.mapM otherStep := by
  induction related with
  | nil => rfl
  | cons here _ ih => rw [List.mapM_cons, List.mapM_cons, each _ _ here, ih]

theorem forM_eq_of_forall₂ {Related : First → Second → Prop} {step : First → Except Fault Unit}
    {otherStep : Second → Except Fault Unit} {items : List First} {others : List Second}
    (related : List.Forall₂ Related items others)
    (each : ∀ item other, Related item other → step item = otherStep other) :
    items.forM step = others.forM otherStep := by
  induction related with
  | nil => rfl
  | cons here _ ih =>
      simp only [List.forM_eq_forM] at ih ⊢
      rw [List.forM_cons, List.forM_cons, each _ _ here, ih]

/-- Two optional values with the same image are both there or both absent. -/
theorem cases_of_map_eq {image : First → Third} {otherImage : Second → Third}
    {found : Option First} {otherFound : Option Second}
    (same : found.map image = otherFound.map otherImage) :
    (found = none ∧ otherFound = none) ∨
      ∃ value other, found = some value ∧ otherFound = some other ∧
        image value = otherImage other := by
  cases found <;> cases otherFound
  · exact .inl ⟨rfl, rfl⟩
  · cases same
  · cases same
  · exact .inr ⟨_, _, rfl, rfl, Option.some.inj same⟩

end WiredGraph
