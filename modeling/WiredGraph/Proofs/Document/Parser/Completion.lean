import WiredGraph.Proofs.Document.Continuation
import WiredGraph.Proofs.Document.Parser.Placement

/-!
# Definitions completed one after the other

Reading a document completes definitions one after the other until the tokens end or one more
definition cannot be completed. How often reading may go on is of no importance as long as it is as
often as there are tokens ahead, since each definition passes one.
-/

namespace WiredGraph

namespace Reading

variable {bound : Nat} {cursor stopped : Cursor} {definitions : List Definition}
  {outcome : Except Halt Cursor}

/-- From one cursor to another, definitions are completed one after the other. -/
inductive Completes : Cursor → List Definition → Cursor → Prop where
  | nil {cursor : Cursor} : Completes cursor [] cursor
  | cons {cursor next stopped : Cursor} {first : Definition} {rest : List Definition}
      (visible : cursor.current.kind ≠ .endOfInput)
      (reads : definition cursor = .ok (first, next)) (others : Completes next rest stopped) :
      Completes cursor (first :: rest) stopped

/-- Why no further definition is completed: the tokens have ended, or the next definition is not
complete where reading stops. -/
inductive EndsWith (stopped : Cursor) : Except Halt Cursor → Prop where
  | ended (ended : stopped.current.kind = .endOfInput) : EndsWith stopped (.ok stopped)
  | incomplete {halt : Halt} (visible : stopped.current.kind ≠ .endOfInput)
      (stops : definition stopped = .error halt) : EndsWith stopped (.error halt)

theorem length_lt_of_definition {first : Definition} {next : Cursor}
    (reads : definition cursor = .ok (first, next)) : next.ahead.length < cursor.ahead.length := by
  have persists : PersistsFrom true cursor definition definition :=
    persists_definition cursor (Nat.le_refl _)
  exact persists.proceeds rfl first next reads

theorem completes_of_definitionsUpTo (fits : cursor.ahead.length ≤ bound)
    (read : definitionsUpTo bound cursor = (definitions, outcome)) :
    ∃ stopped, Completes cursor definitions stopped ∧ EndsWith stopped outcome := by
  induction bound generalizing cursor definitions with
  | zero =>
      obtain ⟨rfl, rfl⟩ := Prod.mk.inj read
      have ahead := List.length_eq_zero_iff.mp (Nat.le_zero.mp fits)
      exact ⟨cursor, .nil, .ended (by rw [Cursor.current, ahead]; rfl)⟩
  | succ bound ih =>
      by_cases ended : cursor.current.kind = .endOfInput
      · rw [definitionsUpTo, if_pos ended] at read
        obtain ⟨rfl, rfl⟩ := Prod.mk.inj read
        exact ⟨cursor, .nil, .ended ended⟩
      · rw [definitionsUpTo_succ ended] at read
        cases reads : definition cursor with
        | error halt =>
            rw [reads] at read
            obtain ⟨rfl, rfl⟩ := Prod.mk.inj read
            exact ⟨cursor, .nil, .incomplete ended reads⟩
        | ok result =>
            rw [reads] at read
            obtain ⟨rfl, rfl⟩ := Prod.mk.inj read
            have fewer := length_lt_of_definition reads
            rcases ih (by omega) rfl with ⟨stopped, completes, ends⟩
            exact ⟨stopped, .cons ended reads completes, ends⟩

variable {source : List Char} {origin : Cursor} {parts : List SpanTree}

/-- Definitions are placed when they are completed. -/
theorem Completes.gathered (completes : Completes cursor definitions stopped)
    (gathered : Gathered source origin parts cursor) :
    Gathered source origin (parts ++ definitions.map Definition.spanTree) stopped := by
  induction completes generalizing parts with
  | nil => rwa [List.map_nil, List.append_nil]
  | cons visible reads others ih =>
      have first := (places_definition _ _ _ gathered).yields _ _ reads
      have whole := ih first
      rwa [List.append_assoc, List.singleton_append] at whole

/-- What keeps one more definition from being completed is found by passing on. -/
theorem EndsWith.haltsFrom {halt : Halt} (ends : EndsWith stopped (.error halt))
    (gathered : Gathered source origin parts stopped) : stopped.HaltsFrom halt := by
  cases ends with
  | incomplete visible stops => exact (places_definition _ _ _ gathered.refl_cursor).halts _ stops

end Reading

end WiredGraph
