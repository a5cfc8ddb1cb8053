import WiredGraph.Proofs.Document.Parser.Completion

/-!
# Documents are in place

Whatever source a document is parsed from, with a fault or without one, all of its nodes are in
place: they lie in the source and between characters, each around the nodes below it, which stand
one after the other, and a name or a number is the text under its span.
-/

namespace WiredGraph

namespace Document

open Reading

variable {source : List Char} {definitions : List Definition} {stop : Nat}

/-- How reading a source begins: with an invalid token, or with definitions that are completed one
after the other. -/
theorem readDefinitions_cases (source : List Char) :
    (∃ code title message,
      readDefinitions source = ([], .error ((startCursor source).halt code title message)) ∧
        (startCursor source).check = .error ((startCursor source).halt code title message)) ∨
    ∃ definitions outcome stopped,
      readDefinitions source = (definitions, outcome) ∧
        Gathered source (startCursor source) [] (startCursor source) ∧
        Completes (startCursor source) definitions stopped ∧ EndsWith stopped outcome := by
  by_cases valid : (startCursor source).current.kind = .invalid
  · left
    cases checked : (startCursor source).check with
    | error halt =>
        rcases Cursor.exists_halt_of_check checked with ⟨code, title, message, rfl⟩
        exact ⟨code, title, message, by rw [readDefinitions, checked], rfl⟩
    | ok cursor => exact absurd valid (Cursor.eq_of_check checked).2
  · right
    rcases completes_of_definitionsUpTo (Nat.le_refl (startCursor source).ahead.length) rfl with
      ⟨stopped, completes, ends⟩
    exact ⟨_, _, stopped, readDefinitions_eq valid, .refl (Cursor.standsIn_start source) valid,
      completes, ends⟩

/-- A document of definitions that have been gathered is in place if it ends at a boundary behind
them. -/
theorem inPlace_of_gathered {stopped : Cursor}
    (gathered : Gathered source (startCursor source) (definitions.map Definition.spanTree) stopped)
    (boundary : Utf8.Boundary source stop) (behind : stopped.passed ≤ stop) :
    ∀ node ∈ (⟨definitions, ⟨(startCursor source).current.span.start,
        max stop (startCursor source).current.span.start⟩⟩ : Document).spanTree.nodes,
      node.InPlace source := by
  refine SpanTree.forall_mem_nodes.mpr ⟨?_, gathered.inPlace⟩
  refine gathered.standsIn.inPlace_around boundary (fun part part_mem => ?_) gathered.inOrder
  have inside := gathered.inside part part_mem
  exact ⟨inside.1, inside.2.trans behind⟩

/-- Every node of a document that is parsed is in place, whether or not a fault ends it. -/
theorem nodes_inPlace_of_parse {parsed : ParsedDocument} (parses : parse source = .ok parsed) :
    ∀ node ∈ parsed.document.spanTree.nodes, node.InPlace source := by
  rcases readDefinitions_cases source with
    ⟨code, title, message, read, -⟩ | ⟨definitions, outcome, stopped, read, start, completes, ends⟩
  · rw [parse, read] at parses
    obtain rfl := Except.ok.inj parses
    have standsIn := Cursor.standsIn_start source
    exact SpanTree.forall_mem_nodes.mpr
      ⟨standsIn.inPlace_around standsIn.boundary (List.forall_mem_nil _) .nil,
        List.forall_mem_nil _⟩
  · have gathered := completes.gathered start
    rw [parse, read] at parses
    cases outcome with
    | ok last =>
        obtain rfl := Except.ok.inj parses
        cases ends with
        | ended =>
            exact inPlace_of_gathered gathered gathered.standsIn_cursor.boundary (Nat.le_refl _)
    | error halt =>
        rcases ends.haltsFrom gathered with
          ⟨tokens, last, code, title, message, passes, rfl⟩ | ⟨span, rfl⟩
        · obtain rfl := Except.ok.inj parses
          have standsIn := gathered.standsIn_cursor
          exact inPlace_of_gathered gathered (passes.standsIn standsIn).boundary
            (passes.passed_le standsIn)
        · cases parses

/-- A described type and an operation before an unfinished one. -/
def unfinishedSource : List Char :=
  ("\"é\" type A implements B @c(d: [1, -2.5]) \x7b e(f: [G!] = \x7bh: I\x7d): J \x7d " ++
    "query K($l: M) \x7b n: o \x7b ...p \x7d \x7d \x7b").toList

theorem nodes_inPlace_of_parse_unfinishedSource :
    ∃ parsed, parse unfinishedSource = .ok parsed ∧ parsed.fault ≠ none ∧
      parsed.document.definitions.length = 2 ∧ parsed.document.spanTree.nodes.length = 36 ∧
      ∀ node ∈ parsed.document.spanTree.nodes, node.InPlace unfinishedSource := by
  have read : (parse unfinishedSource).toOption.any (fun parsed =>
      parsed.fault.isSome && parsed.document.definitions.length == 2 &&
        parsed.document.spanTree.nodes.length == 36) = true := by decide +kernel
  cases parses : parse unfinishedSource with
  | error block =>
      rw [parses] at read
      cases read
  | ok parsed =>
      rw [parses] at read
      obtain ⟨⟨fault, two⟩, nodes⟩ : (parsed.fault.isSome = true ∧
          parsed.document.definitions.length = 2) ∧
          parsed.document.spanTree.nodes.length = 36 := by
        simpa [Except.toOption] using read
      exact ⟨parsed, rfl, Option.isSome_iff_ne_none.mp fault, two, nodes,
        nodes_inPlace_of_parse parses⟩

end Document

end WiredGraph
