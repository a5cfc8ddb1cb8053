import WiredGraph.Graph.TypeGraph
import WiredGraph.Proofs.Descriptor.Table
import WiredGraph.Proofs.Success

/-!
# Merging partials

The partials of a type may agree on everything but their fields. Then merging them is binding what
they agree on, with the fields of all of them: which of them decides where they could disagree does
not matter, and neither does their order, except for the order of the fields.
-/

namespace WiredGraph

variable {World : Type}

namespace AssemblyError

/-- The error is about a reference that is not bound as it has to be. -/
def IsUnbound : AssemblyError → Prop
  | .unresolvedBinding _ => True
  | .bindingMismatch .. => True
  | _ => False

end AssemblyError

namespace Bindings

variable {bindings : Bindings World} {reference : CallableRef} {error : AssemblyError}

theorem isUnbound_of_resolve (failed : bindings.resolve reference = .error error) :
    error.IsUnbound := by
  rw [resolve] at failed
  split at failed
  · nomatch failed
  · cases failed
    trivial

/-- Whatever shape is asked for, only the binding can be at fault. -/
theorem isUnbound_of_shape {Item : Type} {pick : Binding World → Except AssemblyError Item}
    (mismatch : ∀ binding error, pick binding = .error error → error.IsUnbound)
    (failed : bindings.resolve reference >>= pick = .error error) : error.IsUnbound := by
  rcases Success.bind_eq_error.mp failed with unresolved | ⟨binding, -, mismatched⟩
  · exact isUnbound_of_resolve unresolved
  · exact mismatch binding error mismatched

theorem isUnbound_of_valueFunction (failed : bindings.valueFunction reference = .error error) :
    error.IsUnbound := by
  refine isUnbound_of_shape (fun binding error mismatched => ?_) failed
  cases binding <;> cases mismatched <;> trivial

theorem isUnbound_of_resolverMap (failed : bindings.resolverMap reference = .error error) :
    error.IsUnbound := by
  refine isUnbound_of_shape (fun binding error mismatched => ?_) failed
  cases binding <;> cases mismatched <;> trivial

theorem isUnbound_of_fieldResolver (failed : bindings.fieldResolver reference = .error error) :
    error.IsUnbound := by
  refine isUnbound_of_shape (fun binding error mismatched => ?_) failed
  cases binding <;> cases mismatched <;> trivial

theorem isUnbound_of_typeResolver (failed : bindings.typeResolver reference = .error error) :
    error.IsUnbound := by
  refine isUnbound_of_shape (fun binding error mismatched => ?_) failed
  cases binding <;> cases mismatched <;> trivial

end Bindings

namespace NodeKind

/-- The kind of node with no fields. -/
def withoutFields : NodeKind World → NodeKind World
  | .object _ producer interfaces => .object [] producer interfaces
  | .input _ parseValue => .input [] parseValue
  | .interface _ typeResolver => .interface [] typeResolver
  | kind => kind

variable {Item : Type} {find : CallableRef → Except AssemblyError Item}
  {reference : Option CallableRef}

theorem isUnbound_of_bindOptional
    (unbound : ∀ reference error, find reference = .error error → error.IsUnbound)
    {error : AssemblyError} (failed : bindOptional find reference = .error error) :
    error.IsUnbound := by
  rcases reference with - | reference
  · nomatch failed
  · rw [bindOptional] at failed
    cases found : find reference with
    | ok item => simp [found, Except.map] at failed
    | error other =>
        rw [found] at failed
        cases failed
        exact unbound reference error found

theorem exists_bindOptional_iff :
    (∃ item, bindOptional find reference = .ok item) ↔
      ∀ bound ∈ reference, ∃ item, find bound = .ok item := by
  rcases reference with - | bound
  · simp [bindOptional]
  · rw [bindOptional]
    cases found : find bound <;> simp [Except.map, found]

end NodeKind

namespace TypeDescriptor.Body

/-- What is said about a type when its fields are others. -/
def withFields (fields : List FieldDescriptor) : Body → Body
  | .object _ fieldResolver interfaces => .object fields fieldResolver interfaces
  | .input _ parseValue => .input fields parseValue
  | .interface _ typeResolver => .interface fields typeResolver
  | body => body

/-- Everything that is referred to is bound to a callable of the right shape. -/
def IsBound (bindings : Bindings World) : Body → Prop
  | .scalar serialize parseValue parseLiteral =>
      ∀ reference ∈ [serialize, parseValue, parseLiteral],
        ∃ function, bindings.valueFunction reference = .ok function
  | .object _ fieldResolver _ =>
      ∀ reference ∈ fieldResolver, ∃ producer, bindings.resolverMap reference = .ok producer
  | .input _ parseValue =>
      ∀ reference ∈ parseValue, ∃ function, bindings.valueFunction reference = .ok function
  | .enum _ => True
  | .interface _ typeResolver =>
      ∀ reference ∈ typeResolver, ∃ resolver, bindings.typeResolver reference = .ok resolver
  | .union _ typeResolver => ∃ resolver, bindings.typeResolver typeResolver = .ok resolver

/-- The kind of node that a type with some fields is. -/
def realize (bindings : Bindings World) (fields : List FieldDescriptor) :
    Body → Except AssemblyError (NodeKind World)
  | .scalar serialize parseValue parseLiteral => do
      return .scalar (← bindings.valueFunction serialize) (← bindings.valueFunction parseValue)
        (← bindings.valueFunction parseLiteral)
  | .object _ fieldResolver interfaces => do
      return .object fields (← NodeKind.bindOptional bindings.resolverMap fieldResolver) interfaces
  | .input _ parseValue => do
      return .input fields (← NodeKind.bindOptional bindings.valueFunction parseValue)
  | .enum values => .ok (.enum (.ofList values.entries))
  | .interface _ typeResolver => do
      return .interface fields (← NodeKind.bindOptional bindings.typeResolver typeResolver)
  | .union members typeResolver => do
      return .union members.eraseDups (← bindings.typeResolver typeResolver)

variable {bindings : Bindings World} {body other : Body} {fields : List FieldDescriptor}

@[simp]
theorem kind_withFields : (body.withFields fields).kind = body.kind := by
  cases body <;> rfl

theorem kind_eq_of_same (same : body.withFields [] = other.withFields []) :
    body.kind = other.kind := by
  have kinds := congrArg kind same
  rwa [kind_withFields, kind_withFields] at kinds

theorem realize_withFields (others : List FieldDescriptor) :
    (body.withFields others).realize bindings fields = body.realize bindings fields := by
  cases body <;> rfl

theorem realize_eq_of_same (same : body.withFields [] = other.withFields []) :
    body.realize bindings fields = other.realize bindings fields := by
  rw [← body.realize_withFields [], same, realize_withFields]

theorem isBound_withFields (others : List FieldDescriptor) :
    (body.withFields others).IsBound bindings ↔ body.IsBound bindings := by
  cases body <;> rfl

theorem isBound_iff_of_same (same : body.withFields [] = other.withFields []) :
    body.IsBound bindings ↔ other.IsBound bindings := by
  rw [← body.isBound_withFields [], same, isBound_withFields]

/-- A type becomes a node exactly if everything it refers to is bound. -/
theorem exists_realize_iff :
    (∃ kind, body.realize bindings fields = .ok kind) ↔ body.IsBound bindings := by
  cases body with
  | scalar serialize parseValue parseLiteral =>
      simp only [realize, IsBound, Success.bind_eq_ok, Success.pure_eq_ok, List.forall_mem_cons]
      constructor
      · rintro ⟨_, first, serializes, second, parses, third, reads, rfl⟩
        exact ⟨⟨first, serializes⟩, ⟨second, parses⟩, ⟨third, reads⟩, List.forall_mem_nil _⟩
      · rintro ⟨⟨first, serializes⟩, ⟨second, parses⟩, ⟨third, reads⟩, -⟩
        exact ⟨_, first, serializes, second, parses, third, reads, rfl⟩
  | object others fieldResolver interfaces =>
      exact Success.exists_bind_pure_eq_ok_iff.trans NodeKind.exists_bindOptional_iff
  | input others parseValue =>
      exact Success.exists_bind_pure_eq_ok_iff.trans NodeKind.exists_bindOptional_iff
  | enum values => exact iff_of_true ⟨_, rfl⟩ trivial
  | interface others typeResolver =>
      exact Success.exists_bind_pure_eq_ok_iff.trans NodeKind.exists_bindOptional_iff
  | union members typeResolver => exact Success.exists_bind_pure_eq_ok_iff

theorem isUnbound_of_realize {error : AssemblyError}
    (failed : body.realize bindings fields = .error error) : error.IsUnbound := by
  cases body with
  | scalar serialize parseValue parseLiteral =>
      rcases Success.bind_eq_error.mp failed with unbound | ⟨_, -, failed⟩
      · exact Bindings.isUnbound_of_valueFunction unbound
      · rcases Success.bind_eq_error.mp failed with unbound | ⟨_, -, failed⟩
        · exact Bindings.isUnbound_of_valueFunction unbound
        · exact Bindings.isUnbound_of_valueFunction (Success.bind_pure_eq_error.mp failed)
  | object others fieldResolver interfaces =>
      exact NodeKind.isUnbound_of_bindOptional (fun _ _ => Bindings.isUnbound_of_resolverMap)
        (Success.bind_pure_eq_error.mp failed)
  | input others parseValue =>
      exact NodeKind.isUnbound_of_bindOptional (fun _ _ => Bindings.isUnbound_of_valueFunction)
        (Success.bind_pure_eq_error.mp failed)
  | enum values => nomatch failed
  | interface others typeResolver =>
      exact NodeKind.isUnbound_of_bindOptional (fun _ _ => Bindings.isUnbound_of_typeResolver)
        (Success.bind_pure_eq_error.mp failed)
  | union members typeResolver =>
      exact Bindings.isUnbound_of_typeResolver (Success.bind_pure_eq_error.mp failed)

/-- Only the fields of a node depend on the fields of the type. -/
theorem map_withoutFields_realize :
    (body.realize bindings fields).map NodeKind.withoutFields = body.realize bindings [] := by
  cases body with
  | scalar serialize parseValue parseLiteral =>
      simp only [realize]
      cases bindings.valueFunction serialize <;> cases bindings.valueFunction parseValue <;>
        cases bindings.valueFunction parseLiteral <;> rfl
  | object others fieldResolver interfaces =>
      simp only [realize]
      cases NodeKind.bindOptional bindings.resolverMap fieldResolver <;> rfl
  | input others parseValue =>
      simp only [realize]
      cases NodeKind.bindOptional bindings.valueFunction parseValue <;> rfl
  | enum values => rfl
  | interface others typeResolver =>
      simp only [realize]
      cases NodeKind.bindOptional bindings.typeResolver typeResolver <;> rfl
  | union members typeResolver =>
      simp only [realize]
      cases bindings.typeResolver typeResolver <;> rfl

/-- A node has the kind and the fields of its type. -/
theorem of_realize_eq_ok {kind : NodeKind World}
    (realized : body.realize bindings fields = .ok kind) :
    kind.typeKind = body.kind ∧ kind.contributedFields = (body.withFields fields).fields := by
  cases body with
  | enum values =>
      cases realized
      exact ⟨rfl, rfl⟩
  | _ =>
      simp only [realize, Success.bind_eq_ok, Success.pure_eq_ok] at realized
      grind [NodeKind.typeKind, NodeKind.contributedFields, withFields, Body.fields, Body.kind]

end TypeDescriptor.Body

/-- The node with no fields. -/
def TypeNode.withoutFields (node : TypeNode World) : TypeNode World :=
  { node with kind := node.kind.withoutFields }

namespace TypeDescriptor

/-- The node of a kind that a descriptor describes. -/
def node (descriptor : TypeDescriptor) (id : Nat) (kind : NodeKind World) : TypeNode World :=
  ⟨id, descriptor.name, descriptor.description, descriptor.directives, kind⟩

/-- What comes of a type that a descriptor and some fields describe. -/
def realize (descriptor : TypeDescriptor) (bindings : Bindings World) (id : Nat)
    (fields : List FieldDescriptor) : Realized World :=
  (descriptor.body.realize bindings fields).map (descriptor.node id)

section Realize

variable {descriptor : TypeDescriptor} {bindings : Bindings World} {id : Nat}
  {fields : List FieldDescriptor}

theorem realize_eq_ok_iff {node : TypeNode World} :
    descriptor.realize bindings id fields = .ok node ↔
      ∃ kind, descriptor.body.realize bindings fields = .ok kind ∧ descriptor.node id kind = node :=
  Success.map_eq_ok

theorem exists_node_iff :
    (∃ node, descriptor.realize bindings id fields = .ok node) ↔
      descriptor.body.IsBound bindings := by
  rw [← Body.exists_realize_iff, realize]
  cases descriptor.body.realize bindings fields <;> simp [Except.map]

/-- Only a missing or a wrong binding keeps a described type from being realized. -/
theorem isUnbound_of_realize {error : AssemblyError}
    (failed : descriptor.realize bindings id fields = .error error) : error.IsUnbound := by
  rw [realize] at failed
  cases realized : descriptor.body.realize bindings fields with
  | ok kind => simp [realized, Except.map] at failed
  | error other =>
      rw [realized] at failed
      cases failed
      exact Body.isUnbound_of_realize realized

theorem map_withoutFields_realize :
    (descriptor.realize bindings id fields).map TypeNode.withoutFields =
      descriptor.realize bindings id [] := by
  rw [realize, realize, ← Body.map_withoutFields_realize]
  cases descriptor.body.realize bindings fields <;> rfl

end Realize

/-- Two descriptors agree on everything but the fields and the module. -/
structure AgreesWith (descriptor other : TypeDescriptor) : Prop where
  name : descriptor.name = other.name
  description : descriptor.description = other.description
  directives : descriptor.directives = other.directives
  body : descriptor.body.withFields [] = other.body.withFields []

/-- Partials of a type that can be merged in any order: only object types have several. -/
structure Mergeable (shared : TypeDescriptor) (partials : List TypeDescriptor) : Prop where
  nonempty : partials ≠ []
  agree : ∀ descriptor ∈ partials, descriptor.AgreesWith shared
  single : shared.kind ≠ .object → ∃ descriptor, partials = [descriptor]

namespace Mergeable

variable {shared : TypeDescriptor} {partials : List TypeDescriptor}

/-- Whatever all partials give is the same for each of them. -/
theorem map_reverse_eq {Item : Type} {pick : TypeDescriptor → Item} {item : Item}
    (same : ∀ descriptor ∈ partials, pick descriptor = item) :
    partials.reverse.map pick = List.replicate partials.length item := by
  rw [List.eq_replicate_iff, List.length_map, List.length_reverse]
  refine ⟨rfl, fun other other_mem => ?_⟩
  rcases List.mem_map.mp other_mem with ⟨descriptor, descriptor_mem, rfl⟩
  exact same descriptor (List.mem_reverse.mp descriptor_mem)

/-- The last partial that gives something gives what all of them do. -/
theorem findSome?_reverse_eq (mergeable : Mergeable shared partials) {Item : Type}
    {pick : TypeDescriptor → Option Item} {item : Option Item}
    (same : ∀ descriptor ∈ partials, pick descriptor = item) :
    partials.reverse.findSome? pick = item := by
  have asMap : partials.reverse.findSome? pick = (partials.reverse.map pick).findSome? id := by
    rw [List.findSome?_map, Function.id_comp]
  rw [asMap, map_reverse_eq same, List.findSome?_replicate,
    if_neg (List.length_eq_zero_iff.not.mpr mergeable.nonempty), id]

theorem lastReference_eq (mergeable : Mergeable shared partials)
    {pick : TypeDescriptor.Body → Option CallableRef} {reference : Option CallableRef}
    (same : ∀ descriptor ∈ partials, pick descriptor.body = reference) :
    NodeKind.lastReference partials pick = reference :=
  mergeable.findSome?_reverse_eq same

theorem directives_eq (mergeable : Mergeable shared partials) :
    ((partials.reverse.map TypeDescriptor.directives).find? (!·.isEmpty)).getD [] =
      shared.directives := by
  have same : ∀ descriptor ∈ partials, descriptor.directives = shared.directives :=
    fun descriptor descriptor_mem => (mergeable.agree descriptor descriptor_mem).directives
  rw [map_reverse_eq same, List.find?_replicate,
    if_neg (List.length_eq_zero_iff.not.mpr mergeable.nonempty)]
  cases shared.directives <;> rfl

theorem kind_eq (mergeable : Mergeable shared partials) {descriptor : TypeDescriptor}
    (descriptor_mem : descriptor ∈ partials) : descriptor.kind = shared.kind :=
  Body.kind_eq_of_same (mergeable.agree descriptor descriptor_mem).body

/-- The partials refer to what they agree on, so they are bound together. -/
theorem isBound_iff (mergeable : Mergeable shared partials) {bindings : Bindings World} :
    shared.body.IsBound bindings ↔
      ∀ descriptor ∈ partials, descriptor.body.IsBound bindings := by
  constructor
  · intro isBound descriptor descriptor_mem
    exact (Body.isBound_iff_of_same (mergeable.agree descriptor descriptor_mem).body).mpr isBound
  · intro allBound
    rcases List.exists_mem_of_ne_nil _ mergeable.nonempty with ⟨descriptor, descriptor_mem⟩
    exact (Body.isBound_iff_of_same (mergeable.agree descriptor descriptor_mem).body).mp
      (allBound descriptor descriptor_mem)

end Mergeable

end TypeDescriptor

namespace NodeKind

open TypeDescriptor (Mergeable)

/-- A single partial is bound as it is. -/
theorem ofPartials_single (bindings : Bindings World) (descriptor : TypeDescriptor) :
    ofPartials bindings [descriptor] descriptor =
      descriptor.body.realize bindings descriptor.body.fields := by
  rcases descriptor with ⟨name, description, sourceModule, directives, body⟩
  cases body with
  | object fields fieldResolver interfaces =>
      have noInterfaces : (TypeDescriptor.Body.interfaces?
          (.object fields fieldResolver interfaces)).getD [] = interfaces := by
        cases interfaces <;> rfl
      cases fieldResolver <;>
        simp [ofPartials, TypeDescriptor.Body.realize, lastReference,
          TypeDescriptor.Body.fieldResolver?, TypeDescriptor.Body.fields, noInterfaces]
  | _ =>
      simp [ofPartials, TypeDescriptor.Body.realize, lastReference,
          TypeDescriptor.Body.parseValue?, TypeDescriptor.Body.typeResolver?,
          TypeDescriptor.Body.fields, TypeDescriptor.Body.members, TypeDescriptor.Body.values]

theorem exists_object_of_same {body : TypeDescriptor.Body} {fields : List FieldDescriptor}
    {fieldResolver : Option CallableRef} {interfaces : List String}
    (same : body.withFields [] =
      TypeDescriptor.Body.withFields [] (.object fields fieldResolver interfaces)) :
    ∃ others, body = .object others fieldResolver interfaces := by
  cases body <;> simp_all [TypeDescriptor.Body.withFields]

/-- Partials that can be merged are bound as what they agree on, with the fields of all. -/
theorem ofPartials_eq {shared last : TypeDescriptor} {partials : List TypeDescriptor}
    (mergeable : Mergeable shared partials) (last_mem : last ∈ partials)
    (bindings : Bindings World) :
    ofPartials bindings partials last =
      shared.body.realize bindings (partials.flatMap (·.body.fields)) := by
  by_cases kind : shared.kind = .object
  · rcases shared with ⟨name, description, sourceModule, directives, body⟩
    cases body with
    | object fields fieldResolver interfaces =>
        have objects : ∀ descriptor ∈ partials, ∃ others,
            descriptor.body = .object others fieldResolver interfaces :=
          fun descriptor descriptor_mem =>
            exists_object_of_same (mergeable.agree descriptor descriptor_mem).body
        have resolvers : lastReference partials TypeDescriptor.Body.fieldResolver? =
            fieldResolver := by
          refine mergeable.lastReference_eq fun descriptor descriptor_mem => ?_
          rcases objects descriptor descriptor_mem with ⟨others, asObject⟩
          rw [asObject, TypeDescriptor.Body.fieldResolver?]
        have implemented :
            (partials.reverse.findSome? (·.body.interfaces?)).getD [] = interfaces := by
          have same : ∀ descriptor ∈ partials, descriptor.body.interfaces? =
              TypeDescriptor.Body.interfaces? (.object [] fieldResolver interfaces) := by
            intro descriptor descriptor_mem
            rcases objects descriptor descriptor_mem with ⟨others, asObject⟩
            rw [asObject]
            cases interfaces <;> rfl
          rw [mergeable.findSome?_reverse_eq same]
          cases interfaces <;> rfl
        rcases objects last last_mem with ⟨others, asObject⟩
        rw [ofPartials, asObject]
        simp only [resolvers, implemented]
        rfl
    | _ => nomatch kind
  · rcases mergeable.single kind with ⟨descriptor, rfl⟩
    obtain rfl := List.mem_singleton.mp last_mem
    have same := (mergeable.agree last last_mem).body
    rw [ofPartials_single, TypeDescriptor.Body.realize_eq_of_same same, List.flatMap_singleton]

end NodeKind

namespace TypeNode

open TypeDescriptor (Mergeable)

/-- Partials that can be merged become the node of what they agree on, with the fields of all. -/
theorem ofPartials_eq {shared : TypeDescriptor} {partials : List TypeDescriptor}
    (mergeable : Mergeable shared partials) (bindings : Bindings World) (id : Nat)
    (name : String) :
    ofPartials bindings id name partials =
      shared.realize bindings id (partials.flatMap (·.body.fields)) := by
  rcases List.exists_cons_of_ne_nil mergeable.nonempty with ⟨first, rest, rfl⟩
  have first_mem : first ∈ first :: rest := List.mem_cons_self
  have oneKind : (first :: rest).find? (fun descriptor => descriptor.kind ≠ first.kind) = none := by
    rw [List.find?_eq_none]
    intro descriptor descriptor_mem
    simp [mergeable.kind_eq descriptor_mem, mergeable.kind_eq first_mem]
  have last_mem : (first :: rest).getLast?.getD first ∈ first :: rest := by
    rw [List.getLast?_eq_some_getLast (List.cons_ne_nil first rest), Option.getD_some]
    exact List.getLast_mem _
  have described : (first :: rest).reverse.findSome? TypeDescriptor.description =
      shared.description :=
    mergeable.findSome?_reverse_eq fun descriptor descriptor_mem =>
      (mergeable.agree descriptor descriptor_mem).description
  rw [ofPartials, TypeDescriptor.realize]
  simp only [List.head?_cons, oneKind, NodeKind.ofPartials_eq mergeable last_mem, described,
    mergeable.directives_eq, (mergeable.agree first first_mem).name]
  cases shared.body.realize bindings ((first :: rest).flatMap (·.body.fields)) <;> rfl

end TypeNode

namespace FieldDescriptor

/-- Fields with distinct names are all put into the map, in order. -/
theorem mergeInto_eq_ok {typeName : String} {merged : OrderedMap String FieldDescriptor}
    {fields : List FieldDescriptor}
    (distinct : (merged.keys ++ fields.map FieldDescriptor.name).Nodup) :
    ∃ result, mergeInto typeName merged fields = .ok result ∧
      result.entries = merged.entries ++ fields.map fun field => (field.name, field) := by
  induction fields generalizing merged with
  | nil => exact ⟨merged, rfl, by simp⟩
  | cons field rest ih =>
      have new : field.name ∉ merged.keys := by
        intro known
        exact (List.nodup_append.mp distinct).2.2 _ known _ List.mem_cons_self rfl
      have absent : merged.contains field.name = false := by
        rwa [OrderedMap.contains, ← Bool.not_eq_true, OrderedMap.get?_isSome_iff]
      have keys : (merged.insert field.name field).keys = merged.keys ++ [field.name] := by
        rw [OrderedMap.keys_insert, if_neg new]
      have distinctLater :
          ((merged.insert field.name field).keys ++ rest.map FieldDescriptor.name).Nodup := by
        rwa [keys, List.append_assoc, List.singleton_append]
      rcases ih distinctLater with ⟨result, put, entries⟩
      refine ⟨result, ?_, ?_⟩
      · rw [mergeInto, absent]
        exact put
      · rw [entries, OrderedMap.entries_insert_of_not_mem new, List.append_assoc]
        rfl

end FieldDescriptor

namespace TypeNode

/-- A node that fields of distinct names are contributed to has them all, each by its name. -/
theorem exists_fields_of_perm (node : TypeNode World) {descriptors : List FieldDescriptor}
    (contributed : node.kind.contributedFields.Perm descriptors)
    (distinct : (descriptors.map FieldDescriptor.name).Nodup) :
    ∃ fields, node.fields = .ok fields ∧ fields.values.Perm descriptors ∧
      ∀ descriptor ∈ descriptors, fields.get? descriptor.name = some descriptor := by
  have distinctFields : (node.kind.contributedFields.map FieldDescriptor.name).Nodup :=
    (contributed.map FieldDescriptor.name).nodup_iff.mpr distinct
  have merged : ∃ fields, node.fields = .ok fields ∧
      fields.entries = node.kind.contributedFields.map fun field => (field.name, field) :=
    FieldDescriptor.mergeInto_eq_ok distinctFields
  rcases merged with ⟨fields, merged, entries⟩
  refine ⟨fields, merged, ?_, fun descriptor descriptor_mem => ?_⟩
  · have values : fields.values = node.kind.contributedFields := by
      rw [OrderedMap.values, entries, List.map_map]
      exact List.map_id _
    rwa [values]
  · apply OrderedMap.get?_of_mem_entries
    rw [entries]
    exact List.mem_map.mpr ⟨descriptor, contributed.mem_iff.mpr descriptor_mem, rfl⟩

end TypeNode

end WiredGraph
