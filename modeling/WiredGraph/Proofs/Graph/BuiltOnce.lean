import WiredGraph.Proofs.Graph.Access

/-!
# Resolvers are built once

Which resolver an access to a field runs is settled by the accesses before it. The first one that
gets a resolver decides for all later ones. Until then nothing is kept but the resolver map of the
type, so every access starts afresh with the handlers that are registered by then.
-/

namespace WiredGraph

variable {World : Type}

namespace Access

/-- What handlers are put around to resolve a field, or why there is nothing. -/
inductive Base (bindings : Bindings World) (log : List (Access World)) (node : TypeNode World)
    (field : FieldDescriptor) : Except AssemblyError (FieldResolver World) → Prop
  /-- What the field refers to. -/
  | referred {reference : CallableRef} (own : field.resolver = some reference) :
      Base bindings log node field (bindings.fieldResolver reference)
  /-- What the field has in the resolver map that was made for the node. -/
  | looked {maker : Access World} {map : ResolverMap World} (notOwn : field.resolver = none)
      (maker_mem : maker ∈ log) (forNode : maker.node = node) (made : maker.made = some map) :
      Base bindings log node field (ResolverChain.entry node.name field map)
  /-- Nothing makes a resolver map for the node. -/
  | mapless (notOwn : field.resolver = none) (unproduced : node.producer? = none) :
      Base bindings log node field (ResolverChain.entry node.name field .empty)

/-- How an access comes out after other accesses. -/
structure Follows (bindings : Bindings World) (before : List (Access World))
    (access : Access World) : Prop where
  /-- Nothing of the host runs to build a resolver, unless a resolver map is made. -/
  quiet : access.made = none → access.ready = access.start
  /-- A resolver map is made by the producer of the node, for a field without a reference of its
  own. -/
  produced : ∀ map, access.made = some map → access.field.resolver = none ∧
    ∃ produce, access.node.producer? = some produce ∧ produce access.start = (map, access.ready)
  /-- It is made once. -/
  once : ∀ earlier ∈ before, earlier.node.id = access.node.id → earlier.made = none ∨
    access.made = none
  node : ∀ earlier ∈ before, earlier.node.id = access.node.id → earlier.node = access.node
  field : ∀ earlier ∈ before, earlier.node = access.node →
    earlier.field.name = access.field.name → earlier.field = access.field
  /-- A resolver that was built for the field is used from then on. -/
  kept : ∀ earlier ∈ before, earlier.node = access.node → earlier.field = access.field →
    ∀ resolver, earlier.outcome = .ok resolver → access.outcome = .ok resolver ∧ access.made = none
  /-- Without one a resolver is built with the handlers that are registered now. -/
  built : (∀ earlier ∈ before, earlier.node = access.node → earlier.field = access.field →
      ∀ resolver, earlier.outcome ≠ .ok resolver) →
    ∃ base, Base bindings (before ++ [access]) access.node access.field base ∧
      access.outcome = base.bind (access.registry.wrapAll access.field.directives)
  /-- The resolver gives the answer. -/
  resolved : (access.answer, access.finish) = access.resolved

/-- Accesses each of which comes out as it has to after those before it. -/
inductive Orderly (bindings : Bindings World) : List (Access World) → Prop
  | nil : Orderly bindings []
  | snoc {log : List (Access World)} {access : Access World} (orderly : Orderly bindings log)
      (follows : access.Follows bindings log) : Orderly bindings (log ++ [access])

variable {bindings : Bindings World} {log : List (Access World)}

namespace Base

variable {node : TypeNode World} {field : FieldDescriptor}
  {base : Except AssemblyError (FieldResolver World)}

theorem mono (isBase : Base bindings log node field base) {others : List (Access World)}
    (subset : log ⊆ others) : Base bindings others node field base := by
  cases isBase with
  | referred own => exact .referred own
  | looked notOwn maker_mem forNode made => exact .looked notOwn (subset maker_mem) forNode made
  | mapless notOwn unproduced => exact .mapless notOwn unproduced

/-- Without a base no directive is at fault. -/
theorem ne_unknownDirective {error : AssemblyError}
    (isBase : Base bindings log node field (.error error)) (name : String) :
    error ≠ .unknownDirective name := by
  rintro rfl
  generalize failed : Except.error (AssemblyError.unknownDirective name) = base at isBase
  cases isBase with
  | referred own => exact Bindings.isUnbound_of_fieldResolver failed.symm
  | looked | mapless =>
      rw [ResolverChain.entry] at failed
      split at failed <;> cases failed

end Base

namespace Orderly

/-- Each access comes out as it has to after those before it. -/
theorem follows (orderly : Orderly bindings log) {before after : List (Access World)}
    {access : Access World} (split : log = before ++ access :: after) :
    access.Follows bindings before := by
  induction orderly generalizing after with
  | nil => simp at split
  | @snoc log last orderly follows ih =>
      rcases List.eq_nil_or_concat after with rfl | ⟨rest, final, rfl⟩
      · rcases List.append_inj' split rfl with ⟨rfl, same⟩
        cases same
        exact follows
      · rw [List.concat_eq_append, ← List.cons_append, ← List.append_assoc] at split
        exact ih (List.append_inj_left' split rfl)

theorem exists_follows (orderly : Orderly bindings log) {access : Access World}
    (access_mem : access ∈ log) :
    ∃ before, before ⊆ log ∧ before ++ [access] ⊆ log ∧ access.Follows bindings before := by
  rcases List.append_of_mem access_mem with ⟨before, after, rfl⟩
  refine ⟨before, by simp, by simp, orderly.follows rfl⟩

/-- A node has one resolver map. -/
theorem made_unique (orderly : Orderly bindings log) {access other : Access World}
    (access_mem : access ∈ log) (other_mem : other ∈ log) (forNode : access.node = other.node)
    {map otherMap : ResolverMap World} (made : access.made = some map)
    (otherMade : other.made = some otherMap) : map = otherMap := by
  induction orderly with
  | nil => nomatch access_mem
  | @snoc log last orderly follows ih =>
      rw [List.mem_append, List.mem_singleton] at access_mem other_mem
      rcases access_mem with before | rfl <;> rcases other_mem with otherBefore | rfl
      · exact ih before otherBefore
      · have once := follows.once access before (by rw [forNode])
        simp [made, otherMade] at once
      · have once := follows.once other otherBefore (by rw [forNode])
        simp [made, otherMade] at once
      · exact Option.some.inj (made.symm.trans otherMade)

/-- What handlers are put around does not change. -/
theorem base_unique (orderly : Orderly bindings log) {node : TypeNode World}
    {field : FieldDescriptor} {base other : Except AssemblyError (FieldResolver World)}
    (isBase : Base bindings log node field base) (also : Base bindings log node field other) :
    base = other := by
  have producing {maker : Access World} {map : ResolverMap World} (maker_mem : maker ∈ log)
      (made : maker.made = some map) : maker.node.producer? ≠ none := by
    rcases orderly.exists_follows maker_mem with ⟨before, -, -, follows⟩
    rcases (follows.produced map made).2 with ⟨produce, producer, -⟩
    simp [producer]
  cases isBase with
  | referred own =>
      cases also with
      | referred alsoOwn =>
          rw [own] at alsoOwn
          cases alsoOwn
          rfl
      | looked notOwn | mapless notOwn => simp [own] at notOwn
  | looked notOwn maker_mem forNode made =>
      cases also with
      | referred own => simp [own] at notOwn
      | looked _ otherMaker_mem otherForNode otherMade =>
          rw [orderly.made_unique maker_mem otherMaker_mem (forNode.trans otherForNode.symm) made
            otherMade]
      | mapless _ unproduced => exact absurd (forNode ▸ unproduced) (producing maker_mem made)
  | mapless notOwn unproduced =>
      cases also with
      | referred own => simp [own] at notOwn
      | looked _ maker_mem forNode made =>
          exact absurd (forNode ▸ unproduced) (producing maker_mem made)
      | mapless => rfl

/-- If only handlers were missing, an access gets a resolver once they are registered. The earlier
access had the same base, which was there, since only a directive was at fault. -/
theorem recovers (orderly : Orderly bindings log) {before after : List (Access World)}
    {access : Access World} (split : log = before ++ access :: after) {earlier : Access World}
    (earlier_mem : earlier ∈ before) (forNode : earlier.node = access.node)
    (ofField : earlier.field = access.field) {name : String}
    (unregistered : earlier.outcome = .error (.unknownDirective name))
    (registered : ∀ directive ∈ access.field.directives,
      access.registry.contains directive.name = true) :
    ∃ resolver, access.outcome = .ok resolver := by
  have follows := orderly.follows split
  by_cases already : ∃ other ∈ before, other.node = access.node ∧ other.field = access.field ∧
      ∃ resolver, other.outcome = .ok resolver
  · rcases already with ⟨other, other_mem, otherForNode, otherOfField, resolver, outcome⟩
    exact ⟨resolver, (follows.kept other other_mem otherForNode otherOfField resolver outcome).1⟩
  · have noneBuilt : ∀ other ∈ before, other.node = access.node → other.field = access.field →
        ∀ resolver, other.outcome ≠ .ok resolver := by
      intro other other_mem otherForNode otherOfField resolver outcome
      exact already ⟨other, other_mem, otherForNode, otherOfField, resolver, outcome⟩
    rcases follows.built noneBuilt with ⟨base, isBase, outcome⟩
    rcases List.append_of_mem earlier_mem with ⟨first, rest, rfl⟩
    have earlierSplit : log = first ++ earlier :: (rest ++ access :: after) := by simp [split]
    have earlierFollows := orderly.follows earlierSplit
    have earlierNoneBuilt : ∀ other ∈ first, other.node = earlier.node →
        other.field = earlier.field → ∀ resolver, other.outcome ≠ .ok resolver := by
      intro other other_mem otherForNode otherOfField
      exact noneBuilt other (by simp [other_mem]) (otherForNode.trans forNode)
        (otherOfField.trans ofField)
    rcases earlierFollows.built earlierNoneBuilt with ⟨earlierBase, earlierIsBase, earlierOutcome⟩
    have untilNow : first ++ earlier :: rest ++ [access] ⊆ log := by
      rw [split, List.append_cons _ access after]
      exact List.subset_append_left _ _
    have untilThen : first ++ [earlier] ⊆ log := by simp [split]
    have isBase := isBase.mono untilNow
    have earlierIsBase := earlierIsBase.mono untilThen
    rw [forNode, ofField] at earlierIsBase
    rw [unregistered] at earlierOutcome
    cases base with
    | error error =>
        rw [← orderly.base_unique isBase earlierIsBase] at earlierOutcome
        cases earlierOutcome
        exact absurd rfl (isBase.ne_unknownDirective name)
    | ok inner =>
        rcases HandlerRegistry.exists_wrapAll_iff.mpr registered with ⟨resolver, wrapped⟩
        exact ⟨resolver, outcome.trans wrapped⟩

end Orderly

end Access

namespace ResolverChain

/-- The chain of a node holds what the accesses to the node have come to. -/
structure Holds (chain : ResolverChain World) (log : List (Access World))
    (node : TypeNode World) : Prop where
  producer : chain.producer = node.producer?
  built : ∀ name resolver, chain.built.get? name = some resolver ↔
    ∃ access ∈ log, access.node.id = node.id ∧ access.field.name = name ∧
      access.outcome = .ok resolver
  settled : ∀ map, chain.settled = some map ↔ (node.producer? = none ∧ map = .empty) ∨
    ∃ access ∈ log, access.node.id = node.id ∧ access.made = some map

variable {chain : ResolverChain World} {log : List (Access World)} {node : TypeNode World}

theorem holds_ofProducer (unseen : ∀ access ∈ log, access.node.id ≠ node.id) :
    (ofProducer node.producer?).Holds log node where
  producer := rfl
  built := by
    intro name resolver
    constructor
    · intro found
      cases found
    · rintro ⟨access, access_mem, forNode, -⟩
      exact absurd forNode (unseen access access_mem)
  settled := by
    intro map
    have noneMade : ¬∃ access ∈ log, access.node.id = node.id ∧ access.made = some map := by
      rintro ⟨access, access_mem, forNode, -⟩
      exact unseen access access_mem forNode
    rw [or_iff_left noneMade, ResolverChain.settled, ofProducer]
    cases node.producer? <;> simp [eq_comm]

namespace Holds

/-- An access to another node does not matter. -/
theorem other (holds : chain.Holds log node) {access : Access World}
    (differs : access.node.id ≠ node.id) : chain.Holds (log ++ [access]) node where
  producer := holds.producer
  built := by
    intro name resolver
    rw [holds.built]
    simp [or_and_right, exists_or, differs]
  settled := by
    intro map
    rw [holds.settled]
    simp [or_and_right, exists_or, differs]

/-- After an access the chain holds what has come of that as well. -/
theorem access (holds : chain.Holds log node) {bindings : Bindings World}
    {registry : HandlerRegistry World} {access : Access World} {after : ResolverChain World}
    (forNode : access.node = node)
    (builds : chain.Builds bindings registry node.name access.field access.start access.outcome
      access.made after access.ready) : after.Holds (log ++ [access]) node where
  producer := builds.producer_eq.trans holds.producer
  built := by
    intro name resolver
    rw [builds.built_iff, holds.built]
    simp [or_and_right, exists_or, forNode, eq_comm]
  settled := by
    intro map
    rw [builds.settled_iff, holds.settled]
    simp [or_and_right, exists_or, forNode, or_assoc]

end Holds

end ResolverChain

namespace TypeGraph

attribute [local irreducible] lookUp TypeNode.builtin? Ascii.foldCase

/-- The chains of a graph hold what its accesses have come to. -/
structure Recorded (log : List (Access World)) (graph : TypeGraph World) : Prop where
  memo : ∃ asked, graph.IsMemo asked
  nodes : ∀ access ∈ log, access.node ∈ graph.nodes
  fields : ∀ access ∈ log, fieldOf access.node access.field.name = .ok access.field
  unused : ∀ id, graph.nextId ≤ id → graph.chains.byNode.get? id = none
  holds : ∀ node ∈ graph.nodes, (graph.chains.chainOf node).Holds log node

variable {graph after : TypeGraph World} {log : List (Access World)}

theorem recorded_ofDescriptors (descriptors : DescriptorSet) (bindings : Bindings World)
    (registry : HandlerRegistry World) (roots : RootNames) :
    (ofDescriptors descriptors bindings registry roots).Recorded [] where
  memo := ⟨[], isMemo_ofDescriptors descriptors bindings registry roots⟩
  nodes := by simp
  fields := by simp
  unused := fun _ _ => rfl
  holds := by
    intro node node_mem
    cases node_mem

namespace Recorded

theorem id_lt (recorded : graph.Recorded log) {node : TypeNode World}
    (node_mem : node ∈ graph.nodes) : node.id < graph.nextId := by
  rcases recorded.memo with ⟨asked, memo⟩
  exact memo.id_lt node_mem

theorem eq_of_id_eq (recorded : graph.Recorded log) {node other : TypeNode World}
    (node_mem : node ∈ graph.nodes) (other_mem : other ∈ graph.nodes) (same : node.id = other.id) :
    node = other := by
  rcases recorded.memo with ⟨asked, memo⟩
  exact memo.eq_of_id_eq node_mem other_mem same

theorem node_eq_of_id_eq (recorded : graph.Recorded log) {access : Access World}
    (node_mem : access.node ∈ graph.nodes) :
    ∀ earlier ∈ log, earlier.node.id = access.node.id → earlier.node = access.node := by
  intro earlier earlier_mem same
  exact recorded.eq_of_id_eq (recorded.nodes earlier earlier_mem) node_mem same

theorem field_eq_of_name_eq (recorded : graph.Recorded log) {access : Access World}
    (present : fieldOf access.node access.field.name = .ok access.field) :
    ∀ earlier ∈ log, earlier.node = access.node → earlier.field.name = access.field.name →
      earlier.field = access.field := by
  intro earlier earlier_mem forNode same
  have earlierPresent := recorded.fields earlier earlier_mem
  rw [forNode, same, present] at earlierPresent
  exact (Except.ok.inj earlierPresent).symm

/-- New nodes have chains in which nothing was built. -/
theorem grow (recorded : graph.Recorded log) (grows : graph.Grows after)
    (memo : ∃ asked, after.IsMemo asked) (chains : after.chains = graph.chains) :
    after.Recorded log where
  memo := memo
  nodes := fun access access_mem => grows.nodes (recorded.nodes access access_mem)
  fields := recorded.fields
  unused := by
    intro id unused
    rw [chains]
    exact recorded.unused id (grows.nextId.trans unused)
  holds := by
    intro node node_mem
    rw [chains]
    rcases grows.new node node_mem with before | late
    · exact recorded.holds node before
    · rw [ResolverChains.chainOf, recorded.unused node.id late, Option.getD_none]
      apply ResolverChain.holds_ofProducer
      intro access access_mem same
      have early := recorded.id_lt (recorded.nodes access access_mem)
      omega

theorem lookUp (recorded : graph.Recorded log) (name : String) :
    (graph.lookUp name).2.Recorded log := by
  rcases recorded.memo with ⟨asked, memo⟩
  exact recorded.grow (graph.grows_lookUp name) ⟨_, memo.lookUp name⟩
    (graph.finds_lookUp name).chains_eq

/-- An access changes the chain of its node. -/
theorem access (recorded : graph.Recorded log) {access : Access World} {chain : ResolverChain World}
    (node_mem : access.node ∈ graph.nodes)
    (present : fieldOf access.node access.field.name = .ok access.field)
    (builds : (graph.chains.chainOf access.node).Builds graph.bindings graph.registry
      access.node.name access.field access.start access.outcome access.made chain access.ready) :
    { graph with chains := graph.chains.put access.node chain }.Recorded (log ++ [access]) where
  memo := by
    rcases recorded.memo with ⟨asked, memo⟩
    exact ⟨asked, memo.kept, memo.held, memo.numbered⟩
  nodes := by
    intro other other_mem
    rcases List.mem_append.mp other_mem with before | now
    · exact recorded.nodes other before
    · exact List.mem_singleton.mp now ▸ node_mem
  fields := by
    intro other other_mem
    rcases List.mem_append.mp other_mem with before | now
    · exact recorded.fields other before
    · exact List.mem_singleton.mp now ▸ present
  unused := by
    intro id unused
    have early := recorded.id_lt node_mem
    simp only [ResolverChains.put, OrderedMap.get?_insert]
    rw [if_neg (by simp only [nextId] at unused early; omega)]
    exact recorded.unused id unused
  holds := by
    intro node other_mem
    simp only [ResolverChains.chainOf, ResolverChains.put, OrderedMap.get?_insert]
    by_cases same : access.node.id = node.id
    · obtain rfl := recorded.eq_of_id_eq node_mem other_mem same
      rw [if_pos rfl, Option.getD_some]
      exact (recorded.holds access.node node_mem).access rfl builds
    · rw [if_neg same]
      exact (recorded.holds node other_mem).other same

/-- An access comes out as it has to after those that the graph has recorded. -/
theorem follows (recorded : graph.Recorded log) {access : Access World}
    {chain : ResolverChain World} (node_mem : access.node ∈ graph.nodes)
    (present : fieldOf access.node access.field.name = .ok access.field)
    (registry : access.registry = graph.registry)
    (resolved : (access.answer, access.finish) = access.resolved)
    (builds : (graph.chains.chainOf access.node).Builds graph.bindings graph.registry
      access.node.name access.field access.start access.outcome access.made chain access.ready) :
    access.Follows graph.bindings log := by
  have holds := recorded.holds access.node node_mem
  rw [← registry] at builds
  have sameNode := recorded.node_eq_of_id_eq node_mem
  have sameField := recorded.field_eq_of_name_eq present
  refine ⟨?quiet, ?produced, ?once, sameNode, sameField, ?kept, ?built, resolved⟩
  case quiet =>
    intro notMade
    rw [notMade] at builds
    exact builds.eq_of_not_made
  case produced =>
    intro map made
    rw [made] at builds
    rcases builds.of_made with ⟨notOwn, -, produce, producer, run⟩
    exact ⟨notOwn, produce, holds.producer ▸ producer, run⟩
  case once =>
    intro earlier earlier_mem forNode
    cases made : access.made with
    | none => exact .inr rfl
    | some map =>
        rw [made] at builds
        left
        cases earlierMade : earlier.made with
        | none => rfl
        | some other =>
            have settled :=
              (holds.settled other).mpr (.inr ⟨earlier, earlier_mem, forNode, earlierMade⟩)
            rw [builds.of_made.2.1] at settled
            cases settled
  case kept =>
    intro earlier earlier_mem forNode ofField resolver outcome
    apply builds.of_found
    exact (holds.built _ _).mpr ⟨earlier, earlier_mem, by rw [forNode], by rw [ofField], outcome⟩
  case built =>
    intro noneBuilt
    have new : (graph.chains.chainOf access.node).built.get? access.field.name = none := by
      rw [Option.eq_none_iff_forall_ne_some]
      intro resolver found
      rcases (holds.built _ _).mp found with ⟨earlier, earlier_mem, forNode, named, outcome⟩
      have forNode := sameNode earlier earlier_mem forNode
      exact noneBuilt earlier earlier_mem forNode (sameField earlier earlier_mem forNode named)
        resolver outcome
    rcases builds.of_new new with ⟨reference, own, outcome⟩ | ⟨notOwn, map, settled | made, outcome⟩
    · exact ⟨_, .referred own, outcome⟩
    · rcases (holds.settled map).mp settled with
        ⟨unproduced, rfl⟩ | ⟨maker, maker_mem, forNode, made⟩
      · exact ⟨_, .mapless notOwn unproduced, outcome⟩
      · have forNode := sameNode maker maker_mem forNode
        exact ⟨_, .looked notOwn (List.mem_append_left _ maker_mem) forNode made, outcome⟩
    · exact ⟨_, .looked notOwn (by simp) rfl made, outcome⟩

end Recorded

theorem SameTypes.nodes_eq {other : TypeGraph World} (same : graph.SameTypes other) :
    graph.nodes = other.nodes := by
  rw [nodes, nodes, same.slots]

theorem SameTypes.nextId_eq {other : TypeGraph World} (same : graph.SameTypes other) :
    graph.nextId = other.nextId := by
  rw [nextId, nextId, same.created]

theorem SameTypes.grows {other : TypeGraph World} (same : after.SameTypes other)
    (grows : graph.Grows other) : graph.Grows after := by
  have nodes := same.nodes_eq
  have nextId := same.nextId_eq
  exact ⟨nodes ▸ grows.nodes, nodes ▸ grows.new, nextId ▸ grows.nextId⟩

theorem bindings_step (graph : TypeGraph World) (request : GraphRequest World) (world : World) :
    (graph.step request world).1.bindings = graph.bindings := by
  rw [(graph.step_sameTypes request world).bindings, bindings_lookUpAll]

/-- What a request makes happen at a field comes out as it has to, and is recorded. -/
theorem Recorded.step (recorded : graph.Recorded log) (request : GraphRequest World)
    (world : World) :
    (graph.step request world).1.Recorded (log ++ (graph.access? request world).toList) ∧
      ∀ access, graph.access? request world = some access → access.Follows graph.bindings log := by
  cases isAccess : graph.access? request world with
  | none =>
      have same := graph.step_sameTypes request world
      have memo : ∃ asked, (graph.step request world).1.IsMemo asked := by
        rcases recorded.memo with ⟨asked, memo⟩
        exact ⟨_, same.isMemo (memo.lookUpAll _)⟩
      constructor
      · rw [Option.toList_none, List.append_nil]
        apply recorded.grow (same.grows (graph.grows_lookUpAll _)) memo
        exact chains_step_of_no_access isAccess
      · intro access none
        cases none
  | some access =>
      rcases accesses_of_access? isAccess with ⟨typeName, -, -, accesses, -⟩
      have finds := graph.finds_lookUp typeName
      have known := recorded.lookUp typeName
      have node_mem := mem_nodes_of_fieldOf accesses.found accesses.present
      have registry := accesses.registry
      rcases accesses.builds with ⟨chain, builds, after⟩
      rw [← finds.chains_eq, ← finds.bindings_eq, ← finds.registry_eq] at builds
      rw [← finds.registry_eq] at registry
      rw [← finds.chains_eq] at after
      constructor
      · rw [after]
        exact known.access node_mem accesses.present builds
      · rintro _ ⟨⟩
        rw [← finds.bindings_eq]
        exact known.follows node_mem accesses.present registry accesses.resolved builds

/-- All accesses come out as they have to. -/
theorem Recorded.orderly (recorded : graph.Recorded log)
    (orderly : Access.Orderly graph.bindings log) (requests : List (GraphRequest World))
    (world : World) : Access.Orderly graph.bindings (log ++ graph.accesses requests world) := by
  induction requests generalizing graph log world with
  | nil => rwa [accesses, List.append_nil]
  | cons request rest ih =>
      rcases recorded.step request world with ⟨stepRecorded, follows⟩
      rw [accesses, ← List.append_assoc, ← bindings_step graph request world]
      apply ih stepRecorded
      rw [bindings_step]
      cases isAccess : graph.access? request world with
      | none => rwa [Option.toList_none, List.append_nil]
      | some access => exact .snoc orderly (follows access isAccess)

theorem Recorded.run (recorded : graph.Recorded log) (requests : List (GraphRequest World))
    (world : World) :
    (graph.run requests world).1.Recorded (log ++ graph.accesses requests world) := by
  induction requests generalizing graph log world with
  | nil => rwa [accesses, List.append_nil, TypeGraph.run]
  | cons request rest ih =>
      rw [accesses, ← List.append_assoc, TypeGraph.run]
      exact ih (recorded.step request world).1 _

end TypeGraph

end WiredGraph
