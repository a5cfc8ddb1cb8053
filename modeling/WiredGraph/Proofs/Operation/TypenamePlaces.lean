import WiredGraph.Proofs.Compile.Sources
import WiredGraph.Proofs.Operation.Rendering

/-!
# Where type names are asked for

A set inside a definition has a place: the positions of the selections that lead to it. Asking for
type names leaves every set in its place, with its selections in their order, and puts one more
selection behind them in some of the sets: in those, other than the root of an operation, that
select no field whose name starts with two underscores. What a set selects, each selection taken
without its own set, is called the outline of the set. The outlines at all places determine a set,
so nothing else can have changed, and taking the last selection away again at the same places gives
back what was there before.
-/

namespace WiredGraph

namespace Selection

/-- The set of a selection, if it has one. -/
def set? : Selection → Option SelectionSet
  | .field _ _ _ _ set _ => set
  | .spread .. => none
  | .inline _ _ set _ => some set

/-- A selection without what its set selects. -/
def outline : Selection → Selection
  | .field aliasName name arguments directives set span =>
      .field aliasName name arguments directives (set.map fun set => .mk [] set.span) span
  | .spread name directives span => .spread name directives span
  | .inline condition directives set span => .inline condition directives (.mk [] set.span) span

end Selection

namespace SelectionSet

/-- What a set selects, without the sets inside it. -/
def outline (set : SelectionSet) : List Selection := set.selections.map Selection.outline

/-- The set of the selection at a position. -/
def child? (set : SelectionSet) (position : Nat) : Option SelectionSet :=
  set.selections[position]?.bind Selection.set?

/-- The set at a place inside a set. -/
def inner? (set : SelectionSet) : (place : List Nat) → Option SelectionSet
  | [] => some set
  | position :: place => (set.child? position).bind fun child => child.inner? place

/-- The set selects a field whose name starts with two underscores. -/
def SelectsIntrospection (set : SelectionSet) : Prop :=
  ∃ aliasName name arguments directives inner span,
    Selection.field aliasName name arguments directives inner span ∈ set.selections ∧
      ['_', '_'] <+: name.text.toList

/-- A set at a place lacks the type name. The root of an operation never does. -/
structure Lacks (root : Prop) (set : SelectionSet) (place : List Nat) : Prop where
  below : place = [] → root
  lacking : ∃ inner, set.inner? place = some inner ∧ ¬inner.SelectsIntrospection

/-- A set becomes another one by being given the type name as its last selection. -/
structure GainsTypename (lacking : Prop) (before after : SelectionSet) : Prop where
  span : after.span = before.span
  added : lacking → after.outline = before.outline ++ [.typename]
  kept : ¬lacking → after.outline = before.outline

end SelectionSet

mutual

/-- A selection whose sets at some places have lost their last selection. -/
def Selection.dropLastAt (marked : List Nat → Bool) : Selection → Selection
  | .field aliasName name arguments directives none span =>
      .field aliasName name arguments directives none span
  | .field aliasName name arguments directives (some set) span =>
      .field aliasName name arguments directives (some (set.dropLastAt marked)) span
  | .spread name directives span => .spread name directives span
  | .inline condition directives set span =>
      .inline condition directives (set.dropLastAt marked) span

/-- A set that has lost its last selection at some places. -/
def SelectionSet.dropLastAt (marked : List Nat → Bool) : SelectionSet → SelectionSet
  | .mk selections span =>
      let below := Selection.dropLastAtEach marked 0 selections
      .mk (if marked [] then below.dropLast else below) span

/-- Selections, the first one at a position, whose sets at some places have lost their last
selection. -/
def Selection.dropLastAtEach (marked : List Nat → Bool) : Nat → List Selection → List Selection
  | _, [] => []
  | position, selection :: rest =>
      selection.dropLastAt (fun place => marked (position :: place)) ::
        Selection.dropLastAtEach marked (position + 1) rest

end

namespace SelectionSet

/-- At every place there is a set in both or in none, and it gains the type name where it lacks
it. -/
def GainsTypenames (root : Prop) (source result : SelectionSet) : Prop :=
  ∀ place, Option.Rel (GainsTypename (source.Lacks root place)) (source.inner? place)
    (result.inner? place)

/-- A set asks for type names where another one lacks them, and differs from it in nothing else. -/
structure AsksTypenames (root : Prop) (source result : SelectionSet) : Prop where
  gains : source.GainsTypenames root result
  only : ∀ other, source.GainsTypenames root other → other = result
  selects : ∀ place inner, (place = [] → root) → result.inner? place = some inner →
    inner.SelectsIntrospection
  restored : ∀ marked, (∀ place, marked place = true ↔ source.Lacks root place) →
    result.dropLastAt marked = source

end SelectionSet

namespace Selection

theorem introspects_iff (selection : Selection) :
    selection.introspects = true ↔ ∃ aliasName name arguments directives inner span,
      selection = .field aliasName name arguments directives inner span ∧
        ['_', '_'] <+: name.text.toList := by
  cases selection with
  | field aliasName name arguments directives inner span =>
      have starts : (Selection.field aliasName name arguments directives inner span).introspects =
          true ↔ ['_', '_'] <+: name.text.toList := by
        rw [introspects]
        split
        · next rest spelled => simp [spelled]
        · next other =>
            simp only [Bool.false_eq_true, false_iff]
            rintro ⟨rest, spelled⟩
            exact other rest spelled.symm
      rw [starts]
      constructor
      · exact fun starts => ⟨_, _, _, _, _, _, rfl, starts⟩
      · rintro ⟨_, _, _, _, _, _, same, starts⟩
        cases same
        exact starts
  | spread | inline => simp [introspects]

@[simp]
theorem set?_withTypenames (selection : Selection) :
    selection.withTypenames.set? = selection.set?.map SelectionSet.withTypenames := by
  rcases selection with ⟨_, _, _, _, - | set, _⟩ | _ | _ <;> rfl

@[simp]
theorem outline_withTypenames (selection : Selection) :
    selection.withTypenames.outline = selection.outline := by
  rcases selection with ⟨_, _, _, _, - | ⟨_, _⟩, _⟩ | _ | ⟨_, _, ⟨_, _⟩, _⟩ <;> rfl

/-- A selection is determined by its outline and its set. -/
theorem eq_of_outline_of_set? {selection other : Selection}
    (outlines : selection.outline = other.outline) (sets : selection.set? = other.set?) :
    selection = other := by
  cases selection <;> cases other <;> simp_all [outline, set?]

end Selection

namespace SelectionSet

open Selection (askTypename)

theorem selectsIntrospection_iff (set : SelectionSet) :
    set.SelectsIntrospection ↔ set.selections.any Selection.introspects = true := by
  rw [List.any_eq_true]
  constructor
  · rintro ⟨_, _, _, _, _, _, field_mem, starts⟩
    exact ⟨_, field_mem, (Selection.introspects_iff _).mpr ⟨_, _, _, _, _, _, rfl, starts⟩⟩
  · rintro ⟨selection, selection_mem, introspects⟩
    rcases (Selection.introspects_iff selection).mp introspects with
      ⟨_, _, _, _, _, _, rfl, starts⟩
    exact ⟨_, _, _, _, _, _, selection_mem, starts⟩

/-- The inner sets of a set ask for type names, and it does so itself if it lacks the type name. -/
inductive Extended (lacking : Prop) (set : SelectionSet) : SelectionSet → Prop
  | kept : ¬lacking →
      Extended lacking set (.mk (set.selections.map Selection.withTypenames) set.span)
  | added : lacking →
      Extended lacking set
        (.mk (set.selections.map Selection.withTypenames ++ [.typename]) set.span)

theorem extended_withTypenames (set : SelectionSet) :
    Extended (¬set.SelectsIntrospection) set set.withTypenames := by
  have unchanged : (set.selections.map Selection.withTypenames).any Selection.introspects =
      set.selections.any Selection.introspects := by
    rw [List.any_map]
    exact congrArg set.selections.any (funext Selection.introspects_withTypenames)
  rcases set with ⟨selections, span⟩
  rw [Selection.withTypenames_mk, askTypename, selectsIntrospection_iff, ← unchanged]
  split
  · next introspects => exact .kept (not_not_intro introspects)
  · next lacking => exact .added lacking

namespace Extended

variable {lacking : Prop} {set result : SelectionSet}

theorem gainsTypename (extended : Extended lacking set result) :
    GainsTypename lacking set result := by
  have outlines : (set.selections.map Selection.withTypenames).map Selection.outline =
      set.outline := by
    rw [List.map_map]
    exact List.map_congr_left fun selection _ => selection.outline_withTypenames
  cases extended with
  | kept complete =>
      exact ⟨rfl, fun lacks => absurd lacks complete, fun _ => outlines⟩
  | added lacks =>
      refine ⟨rfl, fun _ => ?_, fun complete => absurd lacks complete⟩
      rw [outline, selections, List.map_append, outlines]
      rfl

/-- The sets right inside a set are the same as before, with type names. The selection that is put
behind the others has no set. -/
theorem child?_eq (extended : Extended lacking set result) (position : Nat) :
    result.child? position = (set.child? position).map withTypenames := by
  have below : ((set.selections.map Selection.withTypenames)[position]?).bind Selection.set? =
      (set.child? position).map withTypenames := by
    rw [List.getElem?_map, child?]
    cases set.selections[position]? <;> simp
  cases extended with
  | kept => exact below
  | added =>
      rw [← below, child?, selections, List.getElem?_append]
      split
      · rfl
      · next behind =>
          rw [List.getElem?_eq_none (Nat.le_of_not_lt behind), Option.bind_none]
          cases position - (set.selections.map Selection.withTypenames).length <;> rfl

end Extended

/-- The sets inside a set are the same as before, with type names. -/
theorem inner?_withTypenames (set : SelectionSet) (place : List Nat) :
    set.withTypenames.inner? place = (set.inner? place).map withTypenames := by
  induction place generalizing set with
  | nil => rfl
  | cons position place ih =>
      rw [inner?, inner?, set.extended_withTypenames.child?_eq]
      cases set.child? position with
      | none => rfl
      | some child => exact ih child

theorem Extended.inner?_cons {lacking : Prop} {set result : SelectionSet}
    (extended : Extended lacking set result) (position : Nat) (place : List Nat) :
    result.inner? (position :: place) = (set.inner? (position :: place)).map withTypenames := by
  rw [inner?, inner?, extended.child?_eq]
  cases set.child? position with
  | none => rfl
  | some child => exact child.inner?_withTypenames place

section Lacks

variable {root : Prop} {set inner child : SelectionSet} {position : Nat} {place : List Nat}

theorem lacks_iff (found : set.inner? place = some inner) :
    set.Lacks root place ↔ (place = [] → root) ∧ ¬inner.SelectsIntrospection := by
  constructor
  · rintro ⟨below, other, alsoFound, lacking⟩
    cases found.symm.trans alsoFound
    exact ⟨below, lacking⟩
  · rintro ⟨below, lacking⟩
    exact ⟨below, inner, found, lacking⟩

theorem lacks_cons_iff (found : set.child? position = some child) :
    set.Lacks root (position :: place) ↔ child.Lacks True place := by
  have through : set.inner? (position :: place) = child.inner? place := by
    rw [inner?, found, Option.bind_some]
  constructor
  · rintro ⟨-, lacking⟩
    exact ⟨fun _ => trivial, through ▸ lacking⟩
  · rintro ⟨-, lacking⟩
    exact ⟨nofun, through ▸ lacking⟩

end Lacks

section Gains

variable {root : Prop} {source result other : SelectionSet}

theorem gainsTypenames_of_extended (extended : Extended (source.Lacks root []) source result) :
    source.GainsTypenames root result := by
  rintro (- | ⟨position, place⟩)
  · exact .some extended.gainsTypename
  · rw [extended.inner?_cons]
    cases found : source.inner? (position :: place) with
    | none => exact .none
    | some inner =>
        have lacks : source.Lacks root (position :: place) ↔ ¬inner.SelectsIntrospection := by
          rw [lacks_iff found]
          simp
        rw [lacks]
        exact .some inner.extended_withTypenames.gainsTypename

/-- Two sets have sets with the same outlines at all places. -/
def SameOutlines (set other : SelectionSet) : Prop :=
  ∀ place, Option.Rel (fun inner also => inner.span = also.span ∧ inner.outline = also.outline)
    (set.inner? place) (other.inner? place)

theorem SameOutlines.child {set other : SelectionSet} (same : set.SameOutlines other)
    (position : Nat) : Option.Rel SameOutlines (set.child? position) (other.child? position) := by
  have below := fun place => same (position :: place)
  simp only [inner?] at below
  cases here : set.child? position with
  | none =>
      cases there : other.child? position with
      | none => exact .none
      | some also =>
          have root := below []
          rw [here, there] at root
          nomatch root
  | some child =>
      cases there : other.child? position with
      | none =>
          have root := below []
          rw [here, there] at root
          nomatch root
      | some also =>
          rw [here, there] at below
          exact .some below

/-- Outlines at all places determine a set whose selections are determined by their outlines and
sets. -/
theorem eq_of_sameOutlines_of_each {selections : List Selection} {span : Span}
    {other : SelectionSet}
    (each : ∀ selection ∈ selections, ∀ also : Selection, selection.outline = also.outline →
      Option.Rel SameOutlines selection.set? also.set? → selection = also)
    (same : (mk selections span).SameOutlines other) : mk selections span = other := by
  rcases other with ⟨others, otherSpan⟩
  cases same [] with
  | some root =>
      rcases root with ⟨rfl, outlines⟩
      have length : selections.length = others.length := by
        simpa [outline, SelectionSet.selections] using congrArg List.length outlines
      have equal : selections = others := by
        refine List.ext_getElem length fun position here there => ?_
        refine each _ (List.getElem_mem here) _ ?outline ?set
        case outline =>
          have outlined := congrArg (fun outlines => outlines[position]?) outlines
          simpa [outline, SelectionSet.selections, here, there] using outlined
        case set =>
          simpa [child?, SelectionSet.selections, here, there] using same.child position
      rw [equal]
      rfl

end Gains

end SelectionSet

namespace Selection

/-- Selections with the same outline are the same if their sets have the same outlines at all
places. -/
theorem eq_of_sameOutlines (selection : Selection) :
    ∀ also : Selection, selection.outline = also.outline →
      Option.Rel SelectionSet.SameOutlines selection.set? also.set? → selection = also := by
  have set_eq : ∀ (selections : List Selection) (span : Span) (set : Option SelectionSet),
      (∀ selection ∈ selections, ∀ also : Selection, selection.outline = also.outline →
        Option.Rel SelectionSet.SameOutlines selection.set? also.set? → selection = also) →
        Option.Rel SelectionSet.SameOutlines (some (.mk selections span)) set →
          some (.mk selections span) = set := by
    intro selections span set each same
    cases same with
    | some same => rw [SelectionSet.eq_of_sameOutlines_of_each each same]
  induction selection with
  | leaf | spread =>
      intro also outlines sets
      refine eq_of_outline_of_set? outlines ?_
      generalize also.set? = set at sets
      cases sets
      rfl
  | field aliasName name arguments directives selections setSpan span ih =>
      exact fun also outlines sets =>
        eq_of_outline_of_set? outlines (set_eq selections setSpan also.set? ih sets)
  | inline condition directives selections setSpan span ih =>
      exact fun also outlines sets =>
        eq_of_outline_of_set? outlines (set_eq selections setSpan also.set? ih sets)

end Selection

namespace SelectionSet

variable {root : Prop} {source result other : SelectionSet}

/-- Outlines at all places determine a set. -/
theorem eq_of_sameOutlines (same : source.SameOutlines other) : source = other := by
  rcases source with ⟨selections, span⟩
  exact eq_of_sameOutlines_of_each (fun selection _ => selection.eq_of_sameOutlines) same

/-- There is only one way for a set to gain type names. -/
theorem eq_of_gainsTypenames (gains : source.GainsTypenames root result)
    (also : source.GainsTypenames root other) : other = result := by
  refine eq_of_sameOutlines fun place => ?_
  have here := gains place
  have there := also place
  generalize source.inner? place = before at here there
  generalize result.inner? place = after at here
  generalize other.inner? place = alsoAfter at there
  cases here with
  | none =>
      cases there
      exact .none
  | some gained =>
      cases there with
      | some alsoGained =>
          refine .some ⟨alsoGained.span.trans gained.span.symm, ?_⟩
          by_cases lacks : source.Lacks root place
          · rw [alsoGained.added lacks, gained.added lacks]
          · rw [alsoGained.kept lacks, gained.kept lacks]

theorem selectsIntrospection_iff_outline (set : SelectionSet) :
    set.SelectsIntrospection ↔ set.outline.any Selection.introspects = true := by
  have unchanged : Selection.introspects ∘ Selection.outline = Selection.introspects := by
    funext selection
    cases selection <;> rfl
  rw [selectsIntrospection_iff, outline, List.any_map, unchanged]

/-- A set that gains the type name where it lacks it selects a field with two underscores. -/
theorem selectsIntrospection_of_gainsTypenames {place : List Nat} {inner : SelectionSet}
    (gains : source.GainsTypenames root result) (asked : place = [] → root)
    (found : result.inner? place = some inner) : inner.SelectsIntrospection := by
  have here := gains place
  rw [found] at here
  cases sourceFound : source.inner? place with
  | none =>
      rw [sourceFound] at here
      nomatch here
  | some before =>
      rw [sourceFound] at here
      cases here with
      | some gained =>
          rw [selectsIntrospection_iff_outline]
          by_cases introspects : before.SelectsIntrospection
          · have complete : ¬source.Lacks root place := fun lacks =>
              ((lacks_iff sourceFound).mp lacks).2 introspects
            rwa [gained.kept complete, ← selectsIntrospection_iff_outline]
          · have lacks : source.Lacks root place := (lacks_iff sourceFound).mpr ⟨asked, introspects⟩
            rw [gained.added lacks, List.any_append, Bool.or_eq_true_iff]
            exact .inr (by decide)

end SelectionSet

namespace Selection

theorem dropLastAtEach_append (marked : List Nat → Bool) (position : Nat)
    (front back : List Selection) :
    dropLastAtEach marked position (front ++ back) =
      dropLastAtEach marked position front ++
        dropLastAtEach marked (position + front.length) back := by
  induction front generalizing position with
  | nil => rfl
  | cons selection rest ih =>
      have next : position + 1 + rest.length = position + (rest.length + 1) := by omega
      simp only [List.cons_append, dropLastAtEach, ih, List.length_cons, next]

theorem dropLastAtEach_map_withTypenames {marked : List Nat → Bool} {position : Nat}
    {selections : List Selection}
    (each : ∀ (index : Nat) (selection : Selection), selections[index]? = some selection →
      selection.withTypenames.dropLastAt (fun place => marked ((position + index) :: place)) =
        selection) :
    dropLastAtEach marked position (selections.map withTypenames) = selections := by
  induction selections generalizing position with
  | nil => rfl
  | cons selection rest ih =>
      have here := each 0 selection rfl
      have later := ih fun index other found => by
        have next : position + (index + 1) = position + 1 + index := by omega
        have there := each (index + 1) other found
        rwa [next] at there
      rw [List.map_cons, dropLastAtEach, later]
      exact congrArg (· :: rest) here

end Selection

namespace SelectionSet

variable {root : Prop} {result : SelectionSet} {marked : List Nat → Bool}

/-- A set gets back what it had if the selections inside it do. -/
theorem dropLastAt_of_each {selections : List Selection} {span : Span}
    (each : ∀ selection ∈ selections, ∀ marked : List Nat → Bool,
      (∀ set, selection.set? = some set → ∀ place, marked place = true ↔ set.Lacks True place) →
        selection.withTypenames.dropLastAt marked = selection)
    (extended : Extended ((mk selections span).Lacks root []) (mk selections span) result)
    (marks : ∀ place, marked place = true ↔ (mk selections span).Lacks root place) :
    result.dropLastAt marked = .mk selections span := by
  have eachRestored :
      Selection.dropLastAtEach marked 0 (selections.map Selection.withTypenames) = selections := by
    refine Selection.dropLastAtEach_map_withTypenames fun position selection found => ?_
    refine each selection (List.mem_of_getElem? found) _ fun set isSet place => ?_
    have child : (mk selections span).child? position = some set := by
      rw [child?, SelectionSet.selections, found, Option.bind_some, isSet]
    rw [Nat.zero_add, marks, lacks_cons_iff child]
  cases extended with
  | kept complete =>
      have unmarked : ¬marked [] = true := fun isMarked => complete ((marks []).mp isMarked)
      rw [SelectionSet.selections, dropLastAt, eachRestored, if_neg unmarked]
      rfl
  | added lacks =>
      rw [SelectionSet.selections, dropLastAt, Selection.dropLastAtEach_append, eachRestored,
        if_pos ((marks []).mpr lacks)]
      exact congrArg (mk · span) List.dropLast_concat

end SelectionSet

namespace Selection

/-- Taking the type names away again gives back a selection. -/
theorem dropLastAt_withTypenames (selection : Selection) :
    ∀ marked : List Nat → Bool,
      (∀ set, selection.set? = some set → ∀ place, marked place = true ↔ set.Lacks True place) →
        selection.withTypenames.dropLastAt marked = selection := by
  have restored : ∀ (selections : List Selection) (span : Span) (marked : List Nat → Bool),
      (∀ selection ∈ selections, ∀ marked : List Nat → Bool,
        (∀ set, selection.set? = some set → ∀ place, marked place = true ↔ set.Lacks True place) →
          selection.withTypenames.dropLastAt marked = selection) →
        (∀ place, marked place = true ↔ (SelectionSet.mk selections span).Lacks True place) →
          (SelectionSet.mk selections span).withTypenames.dropLastAt marked =
            .mk selections span := by
    intro selections span marked each marks
    have lacks : (SelectionSet.mk selections span).Lacks True [] ↔
        ¬(SelectionSet.mk selections span).SelectsIntrospection := by
      rw [SelectionSet.lacks_iff rfl]
      simp
    have extended := (SelectionSet.mk selections span).extended_withTypenames
    rw [← lacks] at extended
    exact SelectionSet.dropLastAt_of_each each extended marks
  induction selection with
  | leaf | spread => exact fun _ _ => rfl
  | field aliasName name arguments directives selections setSpan span ih =>
      intro marked marks
      rw [withTypenames, dropLastAt, restored selections setSpan marked ih (marks _ rfl)]
  | inline condition directives selections setSpan span ih =>
      intro marked marks
      rw [withTypenames, dropLastAt, restored selections setSpan marked ih (marks _ rfl)]

end Selection

namespace SelectionSet

variable {root : Prop} {source result : SelectionSet}

/-- A set asks for type names exactly where it lacks them if its inner sets do and it does itself
where it is asked to. -/
theorem asksTypenames_of_extended (extended : Extended (source.Lacks root []) source result) :
    source.AsksTypenames root result where
  gains := gainsTypenames_of_extended extended
  only _ also := eq_of_gainsTypenames (gainsTypenames_of_extended extended) also
  selects _ _ asked found :=
    selectsIntrospection_of_gainsTypenames (gainsTypenames_of_extended extended) asked found
  restored marked marks := by
    rcases source with ⟨selections, span⟩
    exact dropLastAt_of_each (fun selection _ => selection.dropLastAt_withTypenames) extended marks

theorem asksTypenames_withTypenames (set : SelectionSet) :
    set.AsksTypenames True set.withTypenames := by
  have lacks : set.Lacks True [] ↔ ¬set.SelectsIntrospection := by
    rw [lacks_iff rfl]
    simp
  have extended := set.extended_withTypenames
  rw [← lacks] at extended
  exact asksTypenames_of_extended extended

end SelectionSet

/-- An operation asks for type names below its root, and differs from another one in nothing
else. -/
structure OperationDefinition.AsksTypenames (source result : OperationDefinition) : Prop where
  others : result = { source with set := result.set }
  sets : source.set.AsksTypenames False result.set
  again : result.withTypenames = result

/-- A fragment asks for type names, and differs from another one in nothing else. -/
structure FragmentDefinition.AsksTypenames (source result : FragmentDefinition) : Prop where
  others : result = { source with set := result.set }
  sets : source.set.AsksTypenames True result.set
  again : result.withTypenames = result

theorem OperationDefinition.asksTypenames_withTypenames (definition : OperationDefinition) :
    definition.AsksTypenames definition.withTypenames where
  others := rfl
  sets := by
    have atRoot : ¬definition.set.Lacks False [] := fun lacks => lacks.below rfl
    rw [withTypenames, Selection.withTypenamesEach_eq_map]
    exact SelectionSet.asksTypenames_of_extended (.kept atRoot)
  again := definition.withTypenames_twice

theorem FragmentDefinition.asksTypenames_withTypenames (definition : FragmentDefinition) :
    definition.AsksTypenames definition.withTypenames where
  others := rfl
  sets := definition.set.asksTypenames_withTypenames
  again := definition.withTypenames_twice

namespace OperationBody

/-- A body is the text of its operation and of the fragments it uses, all of which ask for type
names wherever they lacked them, the root of the operation excepted, and are not changed
otherwise. -/
theorem render_asks_typenames (fragments : Fragments) (operation : OperationDefinition)
    (used : List String) :
    (render fragments operation used).toList =
        operation.withTypenames.print ++
          (if used.isEmpty then []
            else '\n' :: Text.join ['\n'] ((used.reverse.filterMap fragments.get?).map
              fun fragment => fragment.withTypenames.print)) ∧
      operation.AsksTypenames operation.withTypenames ∧
      ∀ fragment : FragmentDefinition, fragment.AsksTypenames fragment.withTypenames := by
  refine ⟨?_, operation.asksTypenames_withTypenames,
    fun fragment => fragment.asksTypenames_withTypenames⟩
  rw [toList_render, usedFragments, List.map_map]
  rfl

/-- The root asks for nothing, and neither does a set that does so already. -/
example :
    (Document.operations (SourceFile.document ⟨"query.graphql",
      "\x7b me \x7b id ... \x7b kind: __typename \x7d ... \x7b __typename: kind \x7d \x7d \x7d",
      1⟩)).map
        (fun operation => render .empty operation []) =
      ["\x7b\n  me \x7b\n    id\n    ... \x7b\n      kind: __typename\n    \x7d\n    ... \x7b\n" ++
        "      __typename: kind\n      __typename\n    \x7d\n    __typename\n  \x7d\n\x7d"] := by
  decide +kernel

end OperationBody

end WiredGraph
