import WiredGraph.Proofs.Graph.Memoization

/-!
# What partials make of a type

Each part of a type is taken from its partials by a rule of its own. A description, directives,
interfaces and references are those of the last partial that has any; enum values and union members
are those of all partials, in the order in which they first occur; and the fields are those of all
partials one after another, as long as no name comes twice. The rules are stated here by where in
the list of partials something stands, not by how it is looked for.
-/

namespace WiredGraph

variable {World : Type}

/-- The last of some entries that gives anything gives an item, or none of them gives anything. -/
def GivenByLast {Entry Item : Type} (entries : List Entry) (pick : Entry → Option Item) :
    Option Item → Prop
  | some item => ∃ before decisive after, entries = before ++ decisive :: after ∧
      pick decisive = some item ∧ ∀ later ∈ after, pick later = none
  | none => ∀ entry ∈ entries, pick entry = none

/-- The list, unless it is empty. -/
def nonempty? {Item : Type} : List Item → Option (List Item)
  | [] => none
  | items => some items

section GivenByLast

variable {Entry Item : Type} {entries : List Entry} {pick : Entry → Option Item}

/-- What is found first from the end is given by the last entry that gives anything. -/
theorem givenByLast_findSome? (entries : List Entry) (pick : Entry → Option Item) :
    GivenByLast entries pick (entries.reverse.findSome? pick) := by
  cases found : entries.reverse.findSome? pick with
  | none =>
      intro entry entry_mem
      exact List.findSome?_eq_none_iff.mp found entry (List.mem_reverse.mpr entry_mem)
  | some item =>
      rcases List.findSome?_eq_some_iff.mp found with ⟨front, decisive, back, split, given, silent⟩
      refine ⟨back.reverse, decisive, front.reverse, ?_, given, ?_⟩
      · rw [← List.reverse_reverse entries, split]
        simp
      · simpa using silent

/-- The last entry gives what it gives. -/
theorem givenByLast_of_getLast {last : Entry} {item : Item} (isLast : entries.getLast? = some last)
    (given : pick last = some item) : GivenByLast entries pick (some item) := by
  rcases List.getLast?_eq_some_iff.mp isLast with ⟨before, rfl⟩
  exact ⟨before, last, [], rfl, given, by simp⟩

theorem find?_map_eq (entries : List Entry) (pick : Entry → List Item) :
    (entries.map pick).find? (!·.isEmpty) =
      entries.findSome? fun entry => nonempty? (pick entry) := by
  induction entries with
  | nil => rfl
  | cons entry rest ih =>
      rw [List.map_cons, List.find?_cons, List.findSome?_cons]
      cases pick entry with
      | nil => exact ih
      | cons item items => rfl

/-- What is given as lists that are not empty can be told from nothing. -/
theorem nonempty?_getD_findSome? (entries : List Entry) (pick : Entry → List Item) :
    nonempty? ((entries.findSome? fun entry => nonempty? (pick entry)).getD []) =
      entries.findSome? fun entry => nonempty? (pick entry) := by
  induction entries with
  | nil => rfl
  | cons entry rest ih =>
      rw [List.findSome?_cons]
      cases pick entry with
      | nil => exact ih
      | cons item items => rfl

end GivenByLast

namespace TypeDescriptor.Body

/-- The function that values of a scalar pass through on their way out. -/
def serialize? : Body → Option CallableRef
  | .scalar serialize _ _ => some serialize
  | _ => none

/-- The function that values of a scalar pass through on their way in, as variables. -/
def parseScalar? : Body → Option CallableRef
  | .scalar _ parseValue _ => some parseValue
  | _ => none

/-- The function that values of a scalar pass through on their way in, as literals. -/
def parseLiteral? : Body → Option CallableRef
  | .scalar _ _ parseLiteral => some parseLiteral
  | _ => none

/-- The type resolver of a union. -/
def memberResolver? : Body → Option CallableRef
  | .union _ typeResolver => some typeResolver
  | _ => none

/-- The interfaces of an object type. -/
def interfaces : Body → List String
  | .object _ _ interfaces => interfaces
  | _ => []

theorem interfaces?_eq (body : Body) : body.interfaces? = nonempty? body.interfaces := by
  rcases body with _ | ⟨_, _, _ | _⟩ | _ | _ | _ | _ <;> rfl

theorem fields_eq_nil {body : Body}
    (fieldless : body.kind = .scalar ∨ body.kind = .enum ∨ body.kind = .union) :
    body.fields = [] := by
  cases body <;> simp [Body.kind] at fieldless <;> rfl

end TypeDescriptor.Body

/-- What is bound to a reference of the last partial that has it, if any has it. -/
def Wired {Item : Type} (partials : List TypeDescriptor)
    (pick : TypeDescriptor.Body → Option CallableRef)
    (find : CallableRef → Except AssemblyError Item) (bound : Option Item) : Prop :=
  ∃ reference, GivenByLast partials (fun descriptor => pick descriptor.body) reference ∧
    Option.Rel (fun reference item => find reference = .ok item) reference bound

/-- What partials make of the parts of a type that only its kind has. The fields are those of all
partials. -/
def NodeKind.MergedFrom (bindings : Bindings World) (partials : List TypeDescriptor) :
    NodeKind World → Prop
  | .builtin => False
  | .scalar serialize parseValue parseLiteral =>
      Wired partials TypeDescriptor.Body.serialize? bindings.valueFunction (some serialize) ∧
        Wired partials TypeDescriptor.Body.parseScalar? bindings.valueFunction (some parseValue) ∧
        Wired partials TypeDescriptor.Body.parseLiteral? bindings.valueFunction
          (some parseLiteral)
  | .object fields producer interfaces =>
      fields = partials.flatMap (·.body.fields) ∧
        Wired partials TypeDescriptor.Body.fieldResolver? bindings.resolverMap producer ∧
        GivenByLast partials (fun descriptor => nonempty? descriptor.body.interfaces)
          (nonempty? interfaces)
  | .input fields parseValue =>
      fields = partials.flatMap (·.body.fields) ∧
        Wired partials TypeDescriptor.Body.parseValue? bindings.valueFunction parseValue
  | .enum values =>
      Distinct.FirstOccurrences ((partials.flatMap (·.body.values)).map Prod.fst) values.keys ∧
        ∀ key, GivenByLast (partials.flatMap (·.body.values))
          (fun entry => if entry.1 = key then some entry.2 else none) (values.get? key)
  | .interface fields typeResolver =>
      fields = partials.flatMap (·.body.fields) ∧
        Wired partials TypeDescriptor.Body.typeResolver? bindings.typeResolver typeResolver
  | .union members typeResolver =>
      Distinct.FirstOccurrences (partials.flatMap (·.body.members)) members ∧
        Wired partials TypeDescriptor.Body.memberResolver? bindings.typeResolver
          (some typeResolver)

/-- The second descriptor is the first one among partials that is of another kind than the first of
them all. -/
def TypeDescriptor.FirstMismatch (partials : List TypeDescriptor)
    (first second : TypeDescriptor) : Prop :=
  ∃ before after, partials = first :: before ++ second :: after ∧
    (∀ descriptor ∈ before, descriptor.kind = first.kind) ∧ second.kind ≠ first.kind

/-- What becomes of fields that are contributed to a type: they are all there, in order, or the
first one with a name that has come before is refused. -/
inductive FieldDescriptor.MergesTo (typeName : String) (contributed : List FieldDescriptor) :
    Except AssemblyError (OrderedMap String FieldDescriptor) → Prop
  | merged {fields : OrderedMap String FieldDescriptor}
      (distinct : (contributed.map FieldDescriptor.name).Nodup)
      (entries : fields.entries = contributed.map fun field => (field.name, field)) :
      MergesTo typeName contributed (.ok fields)
  | repeated {before after : List FieldDescriptor} {field : FieldDescriptor}
      (split : contributed = before ++ field :: after)
      (distinct : (before.map FieldDescriptor.name).Nodup)
      (known : field.name ∈ before.map FieldDescriptor.name) :
      MergesTo typeName contributed (.error (.duplicateField typeName field.name))

/-- What partials make of a type. -/
structure TypeNode.MergedFrom (bindings : Bindings World) (partials : List TypeDescriptor)
    (node : TypeNode World) : Prop where
  name : ∃ first rest, partials = first :: rest ∧ node.name = first.name
  typeKind : ∀ descriptor ∈ partials, node.kind.typeKind = descriptor.kind
  description : GivenByLast partials TypeDescriptor.description node.description
  directives : GivenByLast partials (fun descriptor => nonempty? descriptor.directives)
    (nonempty? node.directives)
  kind : node.kind.MergedFrom bindings partials
  fields : FieldDescriptor.MergesTo node.name (partials.flatMap (·.body.fields)) node.fields

namespace FieldDescriptor

/-- Fields with distinct names are followed by no other, or by one that repeats a name. -/
theorem distinct_or_repeated (fields : List FieldDescriptor) :
    (fields.map name).Nodup ∨ ∃ before field after, fields = before ++ field :: after ∧
      (before.map name).Nodup ∧ field.name ∈ before.map name := by
  induction fields using List.reverseRecOn with
  | nil => exact .inl List.nodup_nil
  | append_singleton fields last ih =>
      rcases ih with distinct | ⟨before, field, after, rfl, distinct, known⟩
      · by_cases known : last.name ∈ fields.map name
        · exact .inr ⟨fields, last, [], rfl, distinct, known⟩
        · refine .inl ?_
          rw [List.map_append, List.map_singleton, List.nodup_append]
          refine ⟨distinct, List.nodup_singleton _, ?_⟩
          intro one one_mem other other_mem same
          rw [List.mem_singleton.mp other_mem] at same
          exact known (same ▸ one_mem)
      · exact .inr ⟨before, field, after ++ [last], by simp, distinct, known⟩

/-- The first field with a name that has come before is refused. -/
theorem mergeInto_of_repeated {typeName : String} {before after : List FieldDescriptor}
    {field : FieldDescriptor} {merged : OrderedMap String FieldDescriptor}
    (distinct : (merged.keys ++ before.map name).Nodup)
    (known : field.name ∈ merged.keys ++ before.map name) :
    mergeInto typeName merged (before ++ field :: after) =
      .error (.duplicateField typeName field.name) := by
  induction before generalizing merged with
  | nil =>
      have present : merged.contains field.name = true := by
        rw [OrderedMap.contains, OrderedMap.get?_isSome_iff]
        simpa using known
      rw [List.nil_append, mergeInto, if_pos present]
  | cons first rest ih =>
      have new : first.name ∉ merged.keys := fun earlier =>
        (List.nodup_append.mp distinct).2.2 _ earlier _ List.mem_cons_self rfl
      have absent : ¬merged.contains first.name = true := by
        rwa [OrderedMap.contains, OrderedMap.get?_isSome_iff]
      have keys : (merged.insert first.name first).keys ++ rest.map name =
          merged.keys ++ (first :: rest).map name := by
        rw [OrderedMap.keys_insert, if_neg new, List.append_assoc, List.map_cons,
          List.singleton_append]
      rw [List.cons_append, mergeInto, if_neg absent]
      exact ih (keys ▸ distinct) (keys ▸ known)

theorem mergesTo_mergeInto (typeName : String) (contributed : List FieldDescriptor) :
    MergesTo typeName contributed (mergeInto typeName .empty contributed) := by
  rcases distinct_or_repeated contributed with
    distinct | ⟨before, field, after, rfl, distinct, known⟩
  · have merges : ∃ fields, mergeInto typeName .empty contributed = .ok fields ∧
        fields.entries = contributed.map fun field => (field.name, field) :=
      mergeInto_eq_ok (by exact distinct)
    rcases merges with ⟨fields, merged, entries⟩
    rw [merged]
    exact .merged distinct entries
  · rw [mergeInto_of_repeated (by exact distinct) (by exact known)]
    exact .repeated rfl distinct known

end FieldDescriptor

section Wired

variable {Item : Type} {partials : List TypeDescriptor} {last : TypeDescriptor}
  {pick : TypeDescriptor.Body → Option CallableRef}
  {find : CallableRef → Except AssemblyError Item}

theorem wired_of_bindOptional {bound : Option Item}
    (made : NodeKind.bindOptional find (NodeKind.lastReference partials pick) = .ok bound) :
    Wired partials pick find bound := by
  refine ⟨NodeKind.lastReference partials pick, givenByLast_findSome? _ _, ?_⟩
  cases last : NodeKind.lastReference partials pick with
  | none =>
      rw [last] at made
      cases made
      exact .none
  | some reference =>
      rw [last, NodeKind.bindOptional] at made
      rcases Success.map_eq_ok.mp made with ⟨item, found, rfl⟩
      exact .some found

theorem wired_of_getLast {reference : CallableRef} {item : Item}
    (isLast : partials.getLast? = some last) (given : pick last.body = some reference)
    (found : find reference = .ok item) : Wired partials pick find (some item) :=
  ⟨some reference, givenByLast_of_getLast isLast given, .some found⟩

end Wired

namespace NodeKind

/-- The kind of node that partials of one kind make follows the rules. -/
theorem mergedFrom_of_ofPartials {bindings : Bindings World} {partials : List TypeDescriptor}
    {last : TypeDescriptor} {kind : NodeKind World} (isLast : partials.getLast? = some last)
    (agree : ∀ descriptor ∈ partials, descriptor.kind = last.kind)
    (made : ofPartials bindings partials last = .ok kind) :
    kind.MergedFrom bindings partials ∧ kind.typeKind = last.kind ∧
      kind.contributedFields = partials.flatMap (·.body.fields) := by
  have fieldless (none : last.kind = .scalar ∨ last.kind = .enum ∨ last.kind = .union) :
      partials.flatMap (·.body.fields) = [] := by
    refine List.flatMap_eq_nil_iff.mpr fun descriptor descriptor_mem => ?_
    rw [← agree descriptor descriptor_mem] at none
    exact TypeDescriptor.Body.fields_eq_nil none
  rw [TypeDescriptor.kind] at fieldless ⊢
  cases body : last.body with
  | scalar serialize parseValue parseLiteral =>
      simp only [ofPartials, body, Success.bind_eq_ok, Success.pure_eq_ok] at made
      rcases made with ⟨outward, serializes, asVariable, parses, asLiteral, reads, rfl⟩
      refine ⟨⟨?_, ?_, ?_⟩, rfl, ?_⟩
      · exact wired_of_getLast isLast (by rw [body]; rfl) serializes
      · exact wired_of_getLast isLast (by rw [body]; rfl) parses
      · exact wired_of_getLast isLast (by rw [body]; rfl) reads
      · rw [fieldless (by simp [body, TypeDescriptor.Body.kind])]
        rfl
  | object fields fieldResolver interfaces =>
      simp only [ofPartials, body, Success.bind_eq_ok, Success.pure_eq_ok] at made
      rcases made with ⟨producer, bound, rfl⟩
      refine ⟨⟨rfl, wired_of_bindOptional bound, ?_⟩, rfl, rfl⟩
      simp only [TypeDescriptor.Body.interfaces?_eq, nonempty?_getD_findSome?]
      exact givenByLast_findSome? _ _
  | input fields parseValue =>
      simp only [ofPartials, body, Success.bind_eq_ok, Success.pure_eq_ok] at made
      rcases made with ⟨function, bound, rfl⟩
      exact ⟨⟨rfl, wired_of_bindOptional bound⟩, rfl, rfl⟩
  | enum values =>
      simp only [ofPartials, body, Success.pure_eq_ok] at made
      obtain rfl := made
      refine ⟨⟨?_, fun key => ?_⟩, rfl, ?_⟩
      · rw [OrderedMap.keys_ofList]
        exact Distinct.firstOccurrences_eraseDups _
      · rw [OrderedMap.get?_ofList_eq_findSome?]
        exact givenByLast_findSome? _ _
      · rw [fieldless (by simp [body, TypeDescriptor.Body.kind])]
        rfl
  | interface fields typeResolver =>
      simp only [ofPartials, body, Success.bind_eq_ok, Success.pure_eq_ok] at made
      rcases made with ⟨resolver, bound, rfl⟩
      exact ⟨⟨rfl, wired_of_bindOptional bound⟩, rfl, rfl⟩
  | union members typeResolver =>
      simp only [ofPartials, body, Success.bind_eq_ok, Success.pure_eq_ok] at made
      rcases made with ⟨resolver, bound, rfl⟩
      refine ⟨⟨Distinct.firstOccurrences_eraseDups _, ?_⟩, rfl, ?_⟩
      · exact wired_of_getLast isLast (by rw [body]; rfl) bound
      · rw [fieldless (by simp [body, TypeDescriptor.Body.kind])]
        rfl

end NodeKind

namespace TypeNode

variable {bindings : Bindings World} {id : Nat} {name : String} {partials : List TypeDescriptor}

/-- Partials of different kinds make no node. -/
theorem ofPartials_of_mismatch (mismatch : ∃ one ∈ partials, ∃ other ∈ partials,
      one.kind ≠ other.kind) :
    ∃ first second, TypeDescriptor.FirstMismatch partials first second ∧
      ofPartials bindings id name partials =
        .error (.kindMismatch first.name first.kind second.kind) := by
  rcases mismatch with ⟨one, one_mem, other, other_mem, differ⟩
  rcases List.exists_cons_of_ne_nil (List.ne_nil_of_mem one_mem) with ⟨first, rest, rfl⟩
  cases found : (first :: rest).find? fun descriptor => descriptor.kind ≠ first.kind with
  | none =>
      simp only [List.find?_eq_none, decide_eq_true_eq, not_not] at found
      exact absurd ((found one one_mem).trans (found other other_mem).symm) differ
  | some second =>
      have same : ofPartials bindings id name (first :: rest) =
          .error (.kindMismatch first.name first.kind second.kind) := by
        rw [ofPartials, List.head?_cons]
        simp only [found]
        rfl
      rw [List.find?_cons_of_neg (by simp)] at found
      rcases List.find?_eq_some_iff_append.mp found with ⟨differs, before, after, rfl, alike⟩
      refine ⟨first, second, ⟨before, after, rfl, ?_, ?_⟩, same⟩
      · simpa using alike
      · simpa using differs

/-- A node that partials make follows the rules. -/
theorem mergedFrom_of_ofPartials {node : TypeNode World}
    (made : ofPartials bindings id name partials = .ok node) :
    node.MergedFrom bindings partials := by
  cases partials with
  | nil => cases made
  | cons first rest =>
      rw [ofPartials, List.head?_cons] at made
      cases found : (first :: rest).find? fun descriptor => descriptor.kind ≠ first.kind with
      | some other =>
          simp only [found] at made
          cases made
      | none =>
          simp only [found, Success.bind_eq_ok, Success.pure_eq_ok] at made
          rcases made with ⟨kind, kindMade, rfl⟩
          simp only [List.find?_eq_none, decide_eq_true_eq, not_not] at found
          have isLast : (first :: rest).getLast? =
              some ((first :: rest).getLast?.getD first) := by
            simp [List.getLast?_cons]
          have agree : ∀ descriptor ∈ first :: rest,
              descriptor.kind = ((first :: rest).getLast?.getD first).kind :=
            fun descriptor descriptor_mem => (found descriptor descriptor_mem).trans
              (found _ (List.mem_of_getLast? isLast)).symm
          rcases NodeKind.mergedFrom_of_ofPartials isLast agree kindMade with
            ⟨merged, typeKind, contributed⟩
          refine {
            name := ⟨first, rest, rfl, rfl⟩
            typeKind := fun descriptor descriptor_mem =>
              typeKind.trans (agree descriptor descriptor_mem).symm
            description := givenByLast_findSome? _ _
            directives := ?_
            kind := merged
            fields := ?_ }
          · rw [find?_map_eq, nonempty?_getD_findSome?]
            exact givenByLast_findSome? _ _
          · rw [TypeNode.fields, ← contributed]
            exact FieldDescriptor.mergesTo_mergeInto _ _

/-- If partials of one kind make no node, a reference is at fault. -/
theorem isUnbound_of_ofPartials {error : AssemblyError} (described : partials ≠ [])
    (alike : ∀ one ∈ partials, ∀ other ∈ partials, one.kind = other.kind)
    (failed : ofPartials bindings id name partials = .error error) : error.IsUnbound := by
  rcases List.exists_cons_of_ne_nil described with ⟨first, rest, rfl⟩
  rw [ofPartials, List.head?_cons] at failed
  have noOther : ((first :: rest).find? fun descriptor => descriptor.kind ≠ first.kind) = none := by
    simp only [List.find?_eq_none, decide_eq_true_eq, not_not]
    intro descriptor descriptor_mem
    exact alike descriptor descriptor_mem first List.mem_cons_self
  simp only [noOther] at failed
  exact NodeKind.isUnbound_of_ofPartials (Success.bind_pure_eq_error.mp failed)

/-- A node whose fields cannot be merged has none of them. -/
theorem fieldOf_of_fields_eq_error {node : TypeNode World} {error : AssemblyError}
    (failed : node.fields = .error error) (field : String) :
    TypeGraph.fieldOf node field = .error error := by
  rw [TypeGraph.fieldOf, field?, failed]
  rfl

end TypeNode

namespace TypeGraph

/-- If a type cannot be realized, asking for it makes no node. -/
theorem nodes_lookUp_of_failed {graph : TypeGraph World} {name : String} {error : AssemblyError}
    (failed : graph.create name = .error error) :
    (graph.lookUp name).2.nodes = graph.nodes ∧
      (graph.lookUp name).2.created = graph.created := by
  have finds := graph.finds_lookUp name
  generalize (graph.lookUp name).1 = realized at finds
  generalize (graph.lookUp name).2 = after at finds ⊢
  cases finds with
  | builtin | unknown | kept => exact ⟨rfl, rfl⟩
  | created notBuiltin described new =>
      rw [failed, nodes_keep _ new, created_keep]
      exact ⟨List.append_nil _, rfl⟩

attribute [local irreducible] lookUp TypeNode.builtin? Ascii.foldCase

/-- A node that is found once is found again after any requests. -/
theorem lookUp_run_of_found {graph : TypeGraph World} {name : String} {node : TypeNode World}
    (found : (graph.lookUp name).1 = .ok node) (requests : List (GraphRequest World))
    (world : World) :
    (((graph.lookUp name).2.run requests world).1.lookUp name).1 = .ok node := by
  cases builtin : (TypeNode.builtin? (Ascii.foldCase name) : Option (TypeNode World)) with
  | some other =>
      rw [lookUp_of_builtin builtin] at found ⊢
      exact found
  | none =>
      by_cases undescribed : graph.descriptors.partials name = []
      · rw [lookUp_of_unknown builtin undescribed] at found
        cases found
      · have kept := slots_run (slot_lookUp builtin undescribed) requests world
        rw [found] at kept
        refine lookUp_of_kept builtin ?_ kept
        rwa [descriptors_run, (graph.finds_lookUp name).descriptors_eq]

/-- A node that is found is made of the partials of the name as it was first asked for. -/
theorem IsMemo.mergedFrom_of_lookUp {graph : TypeGraph World} {asked : List String}
    (memo : graph.IsMemo asked) {name : String} {node : TypeNode World}
    (notBuiltin : (TypeNode.builtin? (Ascii.foldCase name) : Option (TypeNode World)) = none)
    (found : (graph.lookUp name).1 = .ok node) :
    ∃ first, Ascii.foldCase first = Ascii.foldCase name ∧
      node.MergedFrom graph.bindings (graph.descriptors.partials first) := by
  have described : graph.descriptors.partials name ≠ [] := by
    intro undescribed
    rw [lookUp_of_unknown notBuiltin undescribed] at found
    cases found
  have kept := slot_lookUp notBuiltin described
  rw [found] at kept
  rcases ((memo.lookUp name).held _ _ kept).2 with ⟨first, isFirst, id, made⟩
  rw [(graph.finds_lookUp name).bindings_eq, (graph.finds_lookUp name).descriptors_eq] at made
  exact ⟨first, (foldCase_of_firstAsked isFirst).1, TypeNode.mergedFrom_of_ofPartials made⟩

/-- Whatever a graph has been asked for, partials of different kinds are refused, naming the first
two kinds, and no node is made. Otherwise a node follows the rules, and only a reference can keep it
from being made. A type whose fields cannot be merged is found, but each request for one of its
fields is answered by the same error. -/
theorem merges_run (descriptors : DescriptorSet) (bindings : Bindings World)
    (registry : HandlerRegistry World) (roots : RootNames) (requests : List (GraphRequest World))
    (world : World) (name : String) :
    let now := ((ofDescriptors descriptors bindings registry roots).run requests world).1
    let partials := descriptors.partials name
    ((∃ one ∈ partials, ∃ other ∈ partials, one.kind ≠ other.kind) →
      (∃ first second, TypeDescriptor.FirstMismatch partials first second ∧
        now.create name = .error (.kindMismatch first.name first.kind second.kind)) ∧
      (now.lookUp name).2.nodes = now.nodes ∧ (now.lookUp name).2.created = now.created) ∧
    ((∀ one ∈ partials, ∀ other ∈ partials, one.kind = other.kind) → partials ≠ [] →
      match now.create name with
      | .ok node => node.MergedFrom bindings partials
      | .error error => error.IsUnbound) ∧
    ∀ node, (now.lookUp name).1 = .ok node →
      ((TypeNode.builtin? (Ascii.foldCase name) : Option (TypeNode World)) = none →
        ∃ first, Ascii.foldCase first = Ascii.foldCase name ∧
          node.MergedFrom bindings (descriptors.partials first)) ∧
      ∀ error, node.fields = .error error → ∀ later there field parent arguments context elsewhere,
        (((now.lookUp name).2.run later there).1.resolveField name field parent arguments context
          elsewhere).1.1 = .error (.assembly error) := by
  intro now partials
  have ofStart : now.descriptors = descriptors := descriptors_run _ requests world
  have withBindings : now.bindings = bindings := bindings_run _ requests world
  have create : now.create name = TypeNode.ofPartials bindings now.nextId name partials := by
    rw [TypeGraph.create, ofStart, withBindings]
  refine ⟨fun mismatch => ?refused, fun alike described => ?made,
    fun node found => ⟨?found, ?again⟩⟩
  case refused =>
    rcases TypeNode.ofPartials_of_mismatch mismatch with ⟨first, second, isFirst, failed⟩
    rw [← create] at failed
    exact ⟨⟨first, second, isFirst, failed⟩, nodes_lookUp_of_failed failed⟩
  case made =>
    rw [create]
    cases created : TypeNode.ofPartials bindings now.nextId name partials with
    | ok node => exact TypeNode.mergedFrom_of_ofPartials created
    | error error => exact TypeNode.isUnbound_of_ofPartials described alike created
  case found =>
    intro notBuiltin
    have memo : now.IsMemo ([] ++ _) :=
      (isMemo_ofDescriptors descriptors bindings registry roots).run requests world
    rw [← ofStart, ← withBindings]
    exact memo.mergedFrom_of_lookUp notBuiltin found
  case again =>
    intro error failed later there field parent arguments context elsewhere
    have again := lookUp_run_of_found found later there
    rw [resolveField_of_fieldless (Prod.ext again rfl)
      (TypeNode.fieldOf_of_fields_eq_error failed field)]

/-- A field that takes nothing and is resolved by nothing of its own. -/
def plainField (name : String) : FieldDescriptor :=
  ⟨name, .named "Int", none, none, none, [], []⟩

/-- Types to which two modules contribute: the second one leaves out, overrides, adds, repeats a
field and takes one for another kind of type. -/
def orchard : DescriptorSet :=
  let growing (name : String) (description : Option String) (body : TypeDescriptor.Body) :=
    (⟨name, description, "growing", [], body⟩ : TypeDescriptor)
  let caring (name : String) (description : Option String) (body : TypeDescriptor.Body) :=
    (⟨name, description, "caring", [], body⟩ : TypeDescriptor)
  .ofTables [
    ((((DescriptorTable.empty "growing").push
        (growing "Tree" (some "A tree") (.object [plainField "height"] (some (.service "trees"))
          ["Plant"]))).push
        (growing "Season" none (.enum (.ofList [("WARM", "summer"), ("COLD", "winter")])))).push
        (growing "Patch" none (.object [plainField "width"] none []))).push
        (growing "Pick" none (.input [plainField "amount"] none)),
    ((((DescriptorTable.empty "caring").push
        (caring "Tree" none (.object [plainField "pruned"] none []))).push
        (caring "Season" none (.enum (.ofList [("DRY", "drought"), ("WARM", "heat")])))).push
        (caring "Patch" none (.object [plainField "depth", plainField "width"] none []))).push
        (caring "Pick" none (.object [plainField "picked"] none []))]

/-- What the types of the orchard refer to. -/
def orchardBindings : Bindings Unit :=
  let resolvers : HostRun Unit (ResolverMap Unit) := pure .empty
  Bindings.empty.withServices (.ofList [("trees", .resolverMap resolvers)])

theorem merges_run_orchard :
    let now := ((ofDescriptors orchard orchardBindings (.ofCatalog .empty) .standard).run
      [.type "patch"] ()).1
    (now.create "Pick" = .error (.kindMismatch "Pick" .input .object) ∧
      (now.lookUp "Pick").2.nodes = now.nodes) ∧
    (∃ node, now.create "Tree" = .ok node ∧ node.description = some "A tree" ∧
      node.interfaces = ["Plant"] ∧
      node.MergedFrom orchardBindings (orchard.partials "Tree")) ∧
    ∃ node, (now.lookUp "Patch").1 = .ok node ∧
      ∀ later there field parent arguments context elsewhere,
        (((now.lookUp "Patch").2.run later there).1.resolveField "Patch" field parent arguments
          context elsewhere).1.1 = .error (.assembly (.duplicateField "Patch" "width")) := by
  intro now
  have merges := merges_run orchard orchardBindings (.ofCatalog .empty) .standard [.type "patch"] ()
  refine ⟨?refused, ?made, ?again⟩
  case refused =>
    have mismatch : ∃ one ∈ orchard.partials "Pick", ∃ other ∈ orchard.partials "Pick",
        one.kind ≠ other.kind := by decide +kernel
    have refused : (match now.create "Pick" with
        | .ok _ => none
        | .error error => some error) = some (.kindMismatch "Pick" .input .object) := by
      decide +kernel
    split at refused
    · cases refused
    · next failed => exact ⟨failed.trans (congrArg _ (Option.some.inj refused)),
        ((merges "Pick").1 mismatch).2.1⟩
  case made =>
    have alike : ∀ one ∈ orchard.partials "Tree", ∀ other ∈ orchard.partials "Tree",
        one.kind = other.kind := by decide +kernel
    have described : orchard.partials "Tree" ≠ [] := by
      have someThere : (orchard.partials "Tree").isEmpty = false := by decide +kernel
      simpa using someThere
    have shown : ((now.create "Tree").toOption.map fun node =>
        (node.description, node.interfaces)) = some (some "A tree", ["Plant"]) := by
      decide +kernel
    rcases Option.map_eq_some_iff.mp shown with ⟨node, made, shown⟩
    have made := Success.toOption_eq_some_iff.mp made
    have merged := (merges "Tree").2.1 alike described
    rw [made] at merged
    exact ⟨node, made, congrArg Prod.fst shown, congrArg Prod.snd shown, merged⟩
  case again =>
    have shown : (now.lookUp "Patch").1.toOption.map (fun node => match node.fields with
        | .ok _ => none
        | .error error => some error) = some (some (.duplicateField "Patch" "width")) := by
      decide +kernel
    rcases Option.map_eq_some_iff.mp shown with ⟨node, found, refused⟩
    have found := Success.toOption_eq_some_iff.mp found
    have failed : node.fields = .error (.duplicateField "Patch" "width") := by
      split at refused
      · cases refused
      · next error failed => rw [failed, Option.some.inj refused]
    exact ⟨node, found, ((merges "Patch").2.2 node found).2 _ failed⟩

end TypeGraph

end WiredGraph
