import WiredGraph.Proofs.Document.Parser.Passing
import WiredGraph.Proofs.Document.SpanTree

/-!
# Where the parts of a document are read

Between two cursors of a source, one reached from the other by passing tokens, parts of a document
are gathered: every node of them is in place, and they stand between the two cursors one after the
other. A reading places its parts if it adds the trees of what it yields to what has been gathered
before, wherever that began. The nodes of a document come about in two ways: a token that is passed
is a leaf, and the parts gathered since a cursor are the children of a node that starts with the
token in view there.
-/

namespace WiredGraph

/-- A node that starts with the token in view and ends at a boundary is in place around what stands
between, even if nothing does. -/
theorem Cursor.StandsIn.inPlace_around {source : List Char} {cursor : Cursor}
    {children : List SpanTree} (standsIn : cursor.StandsIn source) {stop : Nat}
    (boundary : Utf8.Boundary source stop)
    (inside : ∀ child ∈ children,
      cursor.current.span.start ≤ child.span.start ∧ child.span.stop ≤ stop)
    (inOrder : children.Pairwise fun first second => first.span.stop ≤ second.span.start) :
    (SpanTree.node ⟨cursor.current.span.start, max stop cursor.current.span.start⟩ none
      children).InPlace source where
  start_le_stop := Nat.le_max_right _ _
  stop_le_length := (boundary.max standsIn.covers.start_boundary).le_length
  start_boundary := standsIn.covers.start_boundary
  stop_boundary := boundary.max standsIn.covers.start_boundary
  text := nofun
  inside := fun child child_mem =>
    ⟨(inside child child_mem).1, (inside child child_mem).2.trans (Nat.le_max_left _ _)⟩
  inOrder := inOrder

/-- Parts of a document, each of them in place, stand one after the other between the token in view
at one cursor and the last token passed at another. -/
structure Gathered (source : List Char) (origin : Cursor) (parts : List SpanTree)
    (cursor : Cursor) : Prop where
  standsIn : origin.StandsIn source
  passes : ∃ tokens, origin.Passes tokens cursor
  valid : cursor.current.kind ≠ .invalid
  inPlace : ∀ part ∈ parts, ∀ node ∈ part.nodes, node.InPlace source
  inside : ∀ part ∈ parts,
    origin.current.span.start ≤ part.span.start ∧ part.span.stop ≤ cursor.passed
  inOrder : parts.Pairwise fun first second => first.span.stop ≤ second.span.start

namespace Gathered

variable {source : List Char} {origin cursor next : Cursor}
  {parts more children : List SpanTree}

theorem refl (standsIn : origin.StandsIn source) (valid : origin.current.kind ≠ .invalid) :
    Gathered source origin [] origin :=
  ⟨standsIn, ⟨[], .stay⟩, valid, nofun, nofun, .nil⟩

theorem standsIn_cursor (gathered : Gathered source origin parts cursor) :
    cursor.StandsIn source := by
  rcases gathered.passes with ⟨tokens, passes⟩
  exact passes.standsIn gathered.standsIn

/-- Nothing is gathered anew where gathering has come to. -/
theorem refl_cursor (gathered : Gathered source origin parts cursor) :
    Gathered source cursor [] cursor :=
  .refl gathered.standsIn_cursor gathered.valid

/-- What is gathered from where gathering has come to goes on with what was gathered before. -/
theorem append (first : Gathered source origin parts cursor)
    (second : Gathered source cursor more next) :
    Gathered source origin (parts ++ more) next := by
  rcases first.passes with ⟨tokens, passes⟩
  rcases second.passes with ⟨further, passesOn⟩
  have start_le := passes.start_le first.standsIn
  have passed_le := passesOn.passed_le second.standsIn
  refine ⟨first.standsIn, ⟨_, passes.trans passesOn⟩, second.valid, ?_, ?_, ?_⟩
  · exact List.forall_mem_append.mpr ⟨first.inPlace, second.inPlace⟩
  · refine List.forall_mem_append.mpr ⟨fun part part_mem => ?_, fun part part_mem => ?_⟩
    · exact ⟨(first.inside part part_mem).1, (first.inside part part_mem).2.trans passed_le⟩
    · exact ⟨start_le.trans (second.inside part part_mem).1, (second.inside part part_mem).2⟩
  · refine List.pairwise_append.mpr ⟨first.inOrder, second.inOrder, ?_⟩
    intro part part_mem later later_mem
    exact ((first.inside part part_mem).2.trans second.standsIn.passed_le).trans
      (second.inside later later_mem).1

/-- Some of the parts may be left out. -/
theorem sublist (gathered : Gathered source origin parts cursor) (kept : children.Sublist parts) :
    Gathered source origin children cursor :=
  { gathered with
    inPlace := fun part part_mem => gathered.inPlace part (kept.subset part_mem)
    inside := fun part part_mem => gathered.inside part (kept.subset part_mem)
    inOrder := gathered.inOrder.sublist kept }

/-- The parts gathered since a cursor are the children of a node, with or without some marks that
stand around them. -/
theorem node (gathered : Gathered source origin parts cursor) (kept : children.Sublist parts)
    (some_parts : parts ≠ []) :
    Gathered source origin
      [.node ⟨origin.current.span.start, max cursor.passed origin.current.span.start⟩ none
        children] cursor := by
  have begun : origin.current.span.start ≤ cursor.passed := by
    rcases List.exists_mem_of_ne_nil parts some_parts with ⟨part, part_mem⟩
    have in_place := gathered.inPlace part part_mem part (by cases part; simp [SpanTree.nodes])
    have inside := gathered.inside part part_mem
    exact (inside.1.trans in_place.start_le_stop).trans inside.2
  have fewer := gathered.sublist kept
  have in_place := fewer.standsIn.inPlace_around fewer.standsIn_cursor.boundary fewer.inside
    fewer.inOrder
  exact { gathered with
    inPlace := List.forall_mem_singleton.mpr
      (SpanTree.forall_mem_nodes.mpr ⟨in_place, fewer.inPlace⟩)
    inside := List.forall_mem_singleton.mpr
      ⟨Nat.le_refl _, Nat.max_le.mpr ⟨Nat.le_refl _, begun⟩⟩
    inOrder := List.pairwise_singleton _ _ }

/-- A token that is passed is a leaf, which may keep the text of the token. -/
theorem leaf (standsIn : cursor.StandsIn source) (valid : cursor.current.kind ≠ .invalid)
    (visible : cursor.ahead ≠ []) (validAfter : cursor.after.current.kind ≠ .invalid)
    {text : Option String} (keeps : ∀ kept ∈ text, kept = cursor.current.text) :
    Gathered source cursor [.node cursor.current.span text []] cursor.after := by
  have covers := standsIn.covers
  refine ⟨standsIn, ⟨_, .pass .stay visible valid⟩, validAfter, ?_, ?_,
    List.pairwise_singleton _ _⟩
  · refine List.forall_mem_singleton.mpr (SpanTree.forall_mem_nodes.mpr ⟨?_, nofun⟩)
    exact {
      start_le_stop := covers.start_le_stop
      stop_le_length := covers.stop_boundary.le_length
      start_boundary := covers.start_boundary
      stop_boundary := covers.stop_boundary
      text := fun kept kept_mem => by rw [keeps kept kept_mem]; exact covers.slice_eq
      inside := nofun
      inOrder := .nil }
  · exact List.forall_mem_singleton.mpr ⟨Nat.le_refl _, Nat.le_refl _⟩

end Gathered

namespace Reading

variable {Part Whole : Type} {origin cursor : Cursor}

/-- A reading at a cursor leads to a part and a cursor that a condition holds of, or it stops with
a fault that can be reached from another cursor. -/
structure Leads (origin cursor : Cursor) (read : Reading Part) (post : Part → Cursor → Prop) :
    Prop where
  yields : ∀ part next, read cursor = .ok (part, next) → post part next
  halts : ∀ halt, read cursor = .error halt → origin.HaltsFrom halt

section Rules

variable {read : Reading Part} {post : Part → Cursor → Prop}

theorem leads_pure {part : Part} (holds : post part cursor) :
    Leads origin cursor (pure part) post where
  yields := by
    rintro _ _ ⟨⟩
    exact holds
  halts := nofun

theorem Leads.bind {next : Part → Reading Whole} {whole : Whole → Cursor → Prop}
    (first : Leads origin cursor read post)
    (second : ∀ part between, post part between → Leads origin between (next part) whole) :
    Leads origin cursor (read >>= next) whole where
  yields := by
    intro result last found
    rcases bind_eq_ok found with ⟨part, between, here, there⟩
    exact (second part between (first.yields part between here)).yields result last there
  halts := by
    intro halt failed
    rw [bind_apply, Success.bind_eq_error] at failed
    rcases failed with here | ⟨⟨part, between⟩, here, there⟩
    · exact first.halts halt here
    · exact (second part between (first.yields part between here)).halts halt there

theorem Leads.imp {weak : Part → Cursor → Prop} (leads : Leads origin cursor read post)
    (implies : ∀ part next, post part next → weak part next) : Leads origin cursor read weak :=
  { leads with yields := fun part next found => implies part next (leads.yields part next found) }

theorem Leads.map {change : Part → Whole} {whole : Whole → Cursor → Prop}
    (leads : Leads origin cursor read post)
    (implies : ∀ part next, post part next → whole (change part) next) :
    Leads origin cursor (change <$> read) whole := by
  rw [map_eq_pure_bind]
  exact leads.bind fun part next holds => leads_pure (implies part next holds)

theorem leads_ite {condition : Prop} [Decidable condition] {first second : Reading Part}
    (whenTrue : condition → Leads origin cursor first post)
    (whenFalse : ¬ condition → Leads origin cursor second post) :
    Leads origin cursor (if condition then first else second) post := by
  split
  · exact whenTrue ‹_›
  · exact whenFalse ‹_›

theorem leads_congr {other : Reading Part} (same : read cursor = other cursor) :
    Leads origin cursor read post ↔ Leads origin cursor other post :=
  ⟨fun leads => ⟨same ▸ leads.yields, same ▸ leads.halts⟩,
    fun leads => ⟨same ▸ leads.yields, same ▸ leads.halts⟩⟩

theorem leads_current {next : Token → Reading Part} :
    Leads origin cursor (current >>= next) post ↔
      Leads origin cursor (next cursor.current) post := leads_congr rfl

theorem leads_kind {next : TokenKind → Reading Part} :
    Leads origin cursor (kind >>= next) post ↔
      Leads origin cursor (next cursor.current.kind) post := leads_congr rfl

theorem leads_startOffset {next : Nat → Reading Part} :
    Leads origin cursor (startOffset >>= next) post ↔
      Leads origin cursor (next cursor.current.span.start) post := leads_congr rfl

theorem leads_spanFrom {start : Nat} {next : Span → Reading Part} :
    Leads origin cursor (spanFrom start >>= next) post ↔
      Leads origin cursor (next ⟨start, max cursor.passed start⟩) post := leads_congr rfl

theorem leads_bounded {read : Nat → Reading Part} :
    Leads origin cursor (bounded read) post ↔
      Leads origin cursor (read cursor.ahead.length) post := leads_congr rfl

/-- A part gets the span from where it starts to the last token passed. -/
theorem leads_spanned {start : Nat} {make : Span → Part}
    (holds : post (make ⟨start, max cursor.passed start⟩) cursor) :
    Leads origin cursor (do return make (← spanFrom start)) post :=
  leads_spanFrom.mpr (leads_pure holds)

end Rules

variable {source : List Char} {parts : List SpanTree}

/-- A reading adds the trees of what it yields to what has been gathered before, or it stops. -/
def Places (source : List Char) (read : Reading Part) (trees : Part → List SpanTree) : Prop :=
  ∀ origin parts cursor, Gathered source origin parts cursor →
    Leads origin cursor read fun part next => Gathered source origin (parts ++ trees part) next

/-- What a reading adds may be gathered by itself. -/
theorem Leads.after {read : Reading Part} {trees : Part → List SpanTree}
    (leads : Leads cursor cursor read fun part next => Gathered source cursor (trees part) next)
    (gathered : Gathered source origin parts cursor) :
    Leads origin cursor read fun part next =>
      Gathered source origin (parts ++ trees part) next where
  yields := fun part next found => gathered.append (leads.yields part next found)
  halts := fun halt failed => by
    rcases gathered.passes with ⟨tokens, passes⟩
    exact (leads.halts halt failed).of_passes passes

theorem Places.of_start {read : Reading Part} {trees : Part → List SpanTree}
    (each : ∀ cursor, Gathered source cursor [] cursor →
      Leads cursor cursor read fun part next => Gathered source cursor (trees part) next) :
    Places source read trees :=
  fun _ _ cursor gathered => (each cursor gathered.refl_cursor).after gathered

section Tokens

variable {post : Part → Cursor → Prop}

theorem leads_fault {code : DiagnosticCode} {title message : String}
    (gathered : Gathered source origin parts cursor) {read : Reading Part}
    (fails : read cursor = .error (cursor.halt code title message)) :
    Leads origin cursor read post where
  yields := by
    rw [fails]
    exact nofun
  halts := by
    rw [fails]
    rintro _ ⟨⟩
    rcases gathered.passes with ⟨tokens, passes⟩
    exact .inl ⟨tokens, cursor, _, _, _, passes, rfl⟩

theorem leads_malformed (gathered : Gathered source origin parts cursor) (message : String) :
    Leads origin cursor (malformed message) post :=
  leads_fault gathered rfl

theorem leads_expected (gathered : Gathered source origin parts cursor) (wanted : String) :
    Leads origin cursor (expected wanted) post :=
  leads_fault gathered rfl

/-- The token in view is added as a leaf when it is passed. -/
theorem leads_advance_leaf (gathered : Gathered source origin parts cursor)
    (visible : cursor.current.kind ≠ .endOfInput) (text : Option String)
    (keeps : ∀ kept ∈ text, kept = cursor.current.text) :
    Leads origin cursor advance fun _ next =>
      Gathered source origin (parts ++ [.node cursor.current.span text []]) next where
  yields := by
    rintro _ next found
    obtain ⟨rfl, valid⟩ := Cursor.next_eq_ok (advance_eq_ok.mp found)
    exact gathered.append (.leaf gathered.standsIn_cursor gathered.valid
      (Cursor.ahead_ne_nil_of_current visible) valid keeps)
  halts := by
    intro halt failed
    change (cursor.after.check >>= fun next => pure ((), next)) = _ at failed
    rw [Success.bind_pure_eq_error] at failed
    rcases Cursor.exists_halt_of_check failed with ⟨code, title, message, rfl⟩
    rcases gathered.passes with ⟨tokens, passes⟩
    exact .inl ⟨_, cursor.after, code, title, message,
      passes.pass (Cursor.ahead_ne_nil_of_current visible) gathered.valid, rfl⟩

/-- A mark that is passed is no part of the document. -/
theorem leads_advance (gathered : Gathered source origin parts cursor)
    (visible : cursor.current.kind ≠ .endOfInput) :
    Leads origin cursor advance fun _ next => Gathered source origin parts next :=
  (leads_advance_leaf gathered visible none nofun).imp fun _ _ gathered =>
    gathered.sublist (List.sublist_append_left _ _)

theorem leads_expect_leaf (gathered : Gathered source origin parts cursor) {wanted : TokenKind}
    (isToken : wanted ≠ .endOfInput) :
    Leads origin cursor (expect wanted) fun _ next =>
      Gathered source origin (parts ++ [.node cursor.current.span none []]) next := by
  rw [expect, leads_kind]
  refine leads_ite (fun same => ?_) fun _ => leads_expected gathered _
  exact leads_advance_leaf gathered (same ▸ isToken) none nofun

theorem leads_expect (gathered : Gathered source origin parts cursor) {wanted : TokenKind}
    (isToken : wanted ≠ .endOfInput) :
    Leads origin cursor (expect wanted) fun _ next => Gathered source origin parts next :=
  (leads_expect_leaf gathered isToken).imp fun _ _ gathered =>
    gathered.sublist (List.sublist_append_left _ _)

theorem leads_eat (gathered : Gathered source origin parts cursor) {wanted : TokenKind}
    (isToken : wanted ≠ .endOfInput) :
    Leads origin cursor (eat wanted) fun _ next => Gathered source origin parts next := by
  rw [eat, leads_kind]
  refine leads_ite (fun same => ?_) fun _ => leads_pure gathered
  apply (leads_advance gathered (same ▸ isToken)).bind
  exact fun _ _ gathered => leads_pure gathered

end Tokens

end Reading

end WiredGraph
