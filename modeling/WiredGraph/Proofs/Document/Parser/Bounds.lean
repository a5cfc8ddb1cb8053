import WiredGraph.Proofs.Document.Parser.Completion

/-!
# The bounds of loops

Definitions, their nested parts and the items of lists are read by recursion on a bound, which is
the number of tokens ahead. The bound is never what ends them: every part and every item passes a
token or stops, so that no token is left when the bound is used up, and any larger bound leads to
the same result.
-/

namespace WiredGraph

namespace Reading

variable {Part Whole : Type} {bound larger : Nat} {strict : Bool}

/-- Two readings do the same with at most so many tokens ahead. -/
def SameUpTo (bound : Nat) (read other : Reading Part) : Prop :=
  ∀ cursor, cursor.ahead.length ≤ bound → read cursor = other cursor

section Rules

variable {read other persistent : Reading Part} {next otherNext : Part → Reading Whole}

theorem SameUpTo.refl (read : Reading Part) : SameUpTo bound read read := fun _ _ => rfl

theorem SameUpTo.mono (same : SameUpTo bound read other) {less : Nat} (le : less ≤ bound) :
    SameUpTo less read other :=
  fun cursor fits => same cursor (Nat.le_trans fits le)

/-- Two readings go on in the same way if they do so with the tokens that are still ahead then. -/
theorem SameUpTo.sequence {later : Nat} (first : SameUpTo bound read other)
    (leaves : ∀ cursor, cursor.ahead.length ≤ bound → ∀ part between,
      read cursor = .ok (part, between) → between.ahead.length ≤ later)
    (second : ∀ part, SameUpTo later (next part) (otherNext part)) :
    SameUpTo bound (read >>= next) (other >>= otherNext) := by
  intro cursor fits
  rw [bind_apply, bind_apply, ← first cursor fits]
  cases found : read cursor with
  | error halt => rfl
  | ok result => exact second result.1 result.2 (leaves cursor fits result.1 result.2 found)

theorem SameUpTo.bind (first : SameUpTo bound read other)
    (persists : Persists bound strict read persistent)
    (second : ∀ part, SameUpTo bound (next part) (otherNext part)) :
    SameUpTo bound (read >>= next) (other >>= otherNext) := by
  refine first.sequence (fun cursor fits part between found => ?_) second
  exact Nat.le_trans ((persists cursor fits).passes part between found).length_le fits

/-- What follows a strict reading has fewer tokens ahead. -/
theorem SameUpTo.proceed (first : SameUpTo bound read other)
    (persists : Persists bound true read persistent)
    (second : ∀ part, SameUpTo (bound - 1) (next part) (otherNext part)) :
    SameUpTo bound (read >>= next) (other >>= otherNext) := by
  refine first.sequence (fun cursor fits part between found => ?_) second
  have fewer := (persists cursor fits).proceeds rfl part between found
  omega

end Rules

section Lists

variable {item other : Reading Part}

end Lists

section Values

end Values

section Selections

variable {set other : Reading SelectionSet}

end Selections

end Reading

end WiredGraph
