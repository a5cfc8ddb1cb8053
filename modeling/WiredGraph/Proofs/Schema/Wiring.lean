import WiredGraph.Proofs.Success
import WiredGraph.Schema.Wiring

/-!
# What wiring directives say

Of the directives of one name the first one counts, and its first argument has to be a string. A
reference is found exactly if that string is one; without a directive nothing is wired. Nothing else
about the directives matters, and it does not matter what they are on.
-/

namespace WiredGraph

namespace Directive

/-- The first of some directives that has a name. -/
def first? (directives : List Directive) (name : String) : Option Directive :=
  directives.find? (·.name.text = name)

/-- The first argument of the directive, if it is a string. -/
def text? (directive : Directive) : Option String :=
  directive.arguments.head?.bind (·.value.string?)

/-- If there is a directive of a name, the first argument of the first one is a string that is
accepted. -/
def FirstGives (directives : List Directive) (name : String) (Accepts : String → Prop) : Prop :=
  ∀ directive, first? directives name = some directive →
    ∃ text, directive.text? = some text ∧ Accepts text

/-- Some directive has a name. -/
def Among (directives : List Directive) (name : String) : Prop :=
  ∃ directive ∈ directives, directive.name.text = name

theorem first?_isSome_iff {directives : List Directive} {name : String} :
    (first? directives name).isSome ↔ Among directives name := by
  simp [first?, Among, List.find?_isSome]

theorem first?_eq_none_iff {directives : List Directive} {name : String} :
    first? directives name = none ↔ ¬Among directives name := by
  rw [← first?_isSome_iff, Option.isSome_iff_ne_none, not_not]

end Directive

namespace Reference

/-- A text refers to a callable. -/
def IsReference (tokens : ReferenceTokens) (text : String) : Prop :=
  ∃ reference, parse tokens text = .ok reference

end Reference

open Directive (first? FirstGives Among)
open Reference (IsReference)

/-- What the directives of a name are wired to. -/
inductive WiredTo (tokens : ReferenceTokens) (directives : List Directive) (name : String) :
    Option CallableRef → Prop
  | unwired : ¬Among directives name → WiredTo tokens directives name none
  | wired {directive : Directive} {text : String} {reference : CallableRef} :
      first? directives name = some directive → directive.text? = some text →
        Reference.parse tokens text = .ok reference →
          WiredTo tokens directives name (some reference)

namespace WiredTo

variable {tokens : ReferenceTokens} {directives : List Directive} {name : String}

theorem isSome_iff {reference : Option CallableRef}
    (wiredTo : WiredTo tokens directives name reference) :
    reference.isSome ↔ Among directives name := by
  cases wiredTo with
  | unwired missing => simp [missing]
  | wired first => simp [← Directive.first?_isSome_iff, first]

theorem unique {reference other : Option CallableRef}
    (wiredTo : WiredTo tokens directives name reference)
    (also : WiredTo tokens directives name other) : reference = other := by
  cases wiredTo with
  | unwired missing =>
      cases also with
      | unwired => rfl
      | wired first => exact absurd (Directive.first?_isSome_iff.mp (by simp [first])) missing
  | wired first given parsed =>
      cases also with
      | unwired missing => exact absurd (Directive.first?_isSome_iff.mp (by simp [first])) missing
      | wired alsoFirst alsoGiven alsoParsed =>
          cases first.symm.trans alsoFirst
          cases given.symm.trans alsoGiven
          cases parsed.symm.trans alsoParsed
          rfl

end WiredTo

/-- Directives can be wired exactly if the first one of the name has a reference. -/
theorem exists_wiredTo_iff {tokens : ReferenceTokens} {directives : List Directive}
    {name : String} :
    (∃ reference, WiredTo tokens directives name reference) ↔
      FirstGives directives name (IsReference tokens) := by
  constructor
  · rintro ⟨reference, wiredTo⟩ directive first
    cases wiredTo with
    | unwired missing =>
        rw [← Directive.first?_eq_none_iff, first] at missing
        nomatch missing
    | @wired other text reference otherFirst given parsed =>
        cases first.symm.trans otherFirst
        exact ⟨text, given, reference, parsed⟩
  · intro gives
    cases first : first? directives name with
    | none => exact ⟨none, .unwired (Directive.first?_eq_none_iff.mp first)⟩
    | some directive =>
        rcases gives directive first with ⟨text, given, reference, parsed⟩
        exact ⟨some reference, .wired first given parsed⟩

namespace Subject

variable {subject : Subject} {tokens : ReferenceTokens} {directives : List Directive}
  {name : String}

theorem wiringText?_eq_ok_none_iff :
    subject.wiringText? name directives = .ok none ↔ ¬Among directives name := by
  rw [← Directive.first?_eq_none_iff, wiringText?, first?]
  split
  · next missing => simp [missing]
  · next directive found => split <;> simp [found]

theorem wiringText?_eq_ok_some_iff {text : String} :
    subject.wiringText? name directives = .ok (some text) ↔
      ∃ directive, first? directives name = some directive ∧ directive.text? = some text := by
  rw [wiringText?, first?]
  split
  · next missing => simp [missing]
  · next directive found =>
      split
      · next given => simp [found, Directive.text?, given]
      · next missing => simp [found, Directive.text?, missing]

/-- What is found for a name is what its directives are wired to. -/
theorem wiring?_eq_ok_iff {reference : Option CallableRef} :
    subject.wiring? tokens name directives = .ok reference ↔
      WiredTo tokens directives name reference := by
  rw [wiring?, Success.bind_eq_ok]
  constructor
  · rintro ⟨text | text, found, referred⟩
    · rw [Success.pure_eq_ok] at referred
      subst referred
      exact .unwired (wiringText?_eq_ok_none_iff.mp found)
    · rcases wiringText?_eq_ok_some_iff.mp found with ⟨directive, first, given⟩
      cases parsed : Reference.parse tokens text with
      | error fault => simp [parsed] at referred
      | ok callable =>
          simp only [parsed, Success.pure_eq_ok] at referred
          subst referred
          exact .wired first given parsed
  · intro wiredTo
    cases wiredTo with
    | unwired missing => exact ⟨none, wiringText?_eq_ok_none_iff.mpr missing, rfl⟩
    | @wired directive text reference first given parsed =>
        refine ⟨some text, wiringText?_eq_ok_some_iff.mpr ⟨directive, first, given⟩, ?_⟩
        simp only [parsed]
        rfl

end Subject

end WiredGraph
