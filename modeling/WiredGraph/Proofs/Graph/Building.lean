import WiredGraph.Graph.Chain
import WiredGraph.Proofs.Graph.Merging

/-!
# Building the resolver of a field

A chain that is asked for the resolver of a field gives the one it has built, or takes what resolves
the field from the field's own reference or from the resolver map, and puts handlers around it.
`Builds` lists what can happen. Two chains that differ only in whether an empty map has been written
down are alike: nothing that is asked for later tells them apart.
-/

namespace WiredGraph

variable {World : Type}

namespace HandlerRegistry

variable {registry : HandlerRegistry World}

theorem exists_handler_iff {name : String} :
    (∃ handler, registry.handler name = .ok handler) ↔ registry.contains name = true := by
  rw [handler, contains, OrderedMap.contains]
  cases registry.handlers.get? name <;> simp

/-- Handlers can be put around a resolver exactly if all of them are registered. -/
theorem exists_wrapAll_iff {directives : List DirectiveInvocation} {base : FieldResolver World} :
    (∃ resolver, registry.wrapAll directives base = .ok resolver) ↔
      ∀ directive ∈ directives, registry.contains directive.name = true := by
  simp only [wrapAll, Success.exists_bind_pure_eq_ok_iff, Success.mapM_eq_ok_iff,
    Success.exists_forall₂_iff, exists_handler_iff]

end HandlerRegistry

namespace ResolverChain

variable (chain : ResolverChain World) (bindings : Bindings World)
  (registry : HandlerRegistry World) (typeName : String) (field : FieldDescriptor)

/-- The resolver map, if no producer has to run for it any more. -/
def settled : Option (ResolverMap World) :=
  match chain.base, chain.producer with
  | some map, _ => some map
  | none, none => some .empty
  | none, some _ => none

/-- What a resolver map has for a field. -/
def entry (map : ResolverMap World) : Except AssemblyError (FieldResolver World) :=
  match map.get? field.name with
  | some resolver => .ok resolver
  | none => .error (.missingFieldResolver typeName field.name)

/-- The chain with its resolver map. -/
def withBase (map : ResolverMap World) : ResolverChain World := { chain with base := some map }

/-- The chain that keeps what was built for a field, if anything was. -/
def keep (outcome : Except AssemblyError (FieldResolver World)) : ResolverChain World :=
  match outcome with
  | .ok resolver => { chain with built := chain.built.insert field.name resolver }
  | .error _ => chain

/-- What is run while a resolver is built, if anything. -/
def runs : Option (ResolverMapProducer World) :=
  if (chain.built.get? field.name).isNone ∧ field.resolver = none ∧ chain.settled.isNone then
    chain.producer
  else none

/-- What can happen when a chain is asked for the resolver of a field: what comes of it, the
resolver map that is made, and the chain and the host's state afterwards. -/
inductive Builds (world : World) : Except AssemblyError (FieldResolver World) →
    Option (ResolverMap World) → ResolverChain World → World → Prop
  | kept {resolver : FieldResolver World} (found : chain.built.get? field.name = some resolver) :
      Builds world (.ok resolver) none chain world
  | referred {reference : CallableRef} {outcome : Except AssemblyError (FieldResolver World)}
      (new : chain.built.get? field.name = none) (own : field.resolver = some reference)
      (result : (bindings.fieldResolver reference).bind (registry.wrapAll field.directives) =
        outcome) :
      Builds world outcome none (chain.keep field outcome) world
  | looked {map : ResolverMap World} {outcome : Except AssemblyError (FieldResolver World)}
      (new : chain.built.get? field.name = none) (notOwn : field.resolver = none)
      (settled : chain.settled = some map)
      (result : (entry typeName field map).bind (registry.wrapAll field.directives) = outcome) :
      Builds world outcome none ((chain.withBase map).keep field outcome) world
  | produced {produce : ResolverMapProducer World} {map : ResolverMap World} {after : World}
      {outcome : Except AssemblyError (FieldResolver World)}
      (new : chain.built.get? field.name = none) (notOwn : field.resolver = none)
      (unsettled : chain.settled = none) (producer : chain.producer = some produce)
      (run : produce world = (map, after))
      (result : (entry typeName field map).bind (registry.wrapAll field.directives) = outcome) :
      Builds world outcome (some map) ((chain.withBase map).keep field outcome) after

variable {chain bindings registry typeName field}

theorem settled_eq_none_iff : chain.settled = none ↔ chain.base = none ∧ chain.producer ≠ none := by
  rw [settled]
  split <;> simp_all

theorem baseMap_of_settled {map : ResolverMap World} (settled : chain.settled = some map)
    (world : World) : chain.baseMap world = ((map, chain.withBase map), world) := by
  rcases chain with ⟨producer, base, built⟩
  cases base with
  | some held =>
      obtain rfl : held = map := Option.some.inj settled
      rfl
  | none =>
      cases producer with
      | none =>
          obtain rfl : .empty = map := Option.some.inj settled
          rfl
      | some produce => cases settled

theorem baseMap_of_producer {produce : ResolverMapProducer World} (unsettled : chain.settled = none)
    (producer : chain.producer = some produce) (world : World) :
    chain.baseMap world =
      (((produce world).1, chain.withBase (produce world).1), (produce world).2) := by
  have unset := (settled_eq_none_iff.mp unsettled).1
  rcases chain with ⟨other, base, built⟩
  obtain rfl : base = none := unset
  obtain rfl : other = some produce := producer
  rfl

theorem innermost_of_baseMap {map : ResolverMap World} {after : ResolverChain World}
    {world there : World} (notOwn : field.resolver = none)
    (based : chain.baseMap world = ((map, after), there)) :
    chain.innermost bindings typeName field world = ((entry typeName field map, after), there) := by
  simp only [innermost, notOwn, bind, StateT.bind, based, entry]
  cases map.get? field.name <;> rfl

theorem resolver_of_innermost {inner : Except AssemblyError (FieldResolver World)}
    {after : ResolverChain World} {world there : World}
    (new : chain.built.get? field.name = none)
    (found : chain.innermost bindings typeName field world = ((inner, after), there)) :
    chain.resolver bindings registry typeName field world =
      ((inner.bind (registry.wrapAll field.directives),
        after.keep field (inner.bind (registry.wrapAll field.directives))), there) := by
  simp only [resolver, new, bind, StateT.bind, found]
  cases inner.bind (registry.wrapAll field.directives) <;> rfl

section Keep

variable (chain : ResolverChain World) (map : ResolverMap World) (field : FieldDescriptor)
  (outcome : Except AssemblyError (FieldResolver World))

@[simp]
theorem producer_withBase : (chain.withBase map).producer = chain.producer := rfl

@[simp]
theorem built_withBase : (chain.withBase map).built = chain.built := rfl

@[simp]
theorem settled_withBase : (chain.withBase map).settled = some map := rfl

@[simp]
theorem producer_keep : (chain.keep field outcome).producer = chain.producer := by
  cases outcome <;> rfl

@[simp]
theorem settled_keep : (chain.keep field outcome).settled = chain.settled := by
  cases outcome <;> rfl

variable {chain field outcome}

theorem built_keep_iff (new : chain.built.get? field.name = none) {name : String}
    {resolver : FieldResolver World} :
    (chain.keep field outcome).built.get? name = some resolver ↔
      chain.built.get? name = some resolver ∨ name = field.name ∧ outcome = .ok resolver := by
  cases outcome with
  | error error => simp [keep]
  | ok kept =>
      rw [keep, OrderedMap.get?_insert]
      by_cases same : field.name = name
      · subst same
        simp [new]
      · simp [same, Ne.symm same]

end Keep

namespace Builds

variable {world there : World} {outcome : Except AssemblyError (FieldResolver World)}
  {made : Option (ResolverMap World)} {after : ResolverChain World}

/-- The chain does what the cases say. -/
theorem resolver_eq
    (builds : chain.Builds bindings registry typeName field world outcome made after there) :
    chain.resolver bindings registry typeName field world = ((outcome, after), there) := by
  cases builds with
  | kept found =>
      simp only [resolver, found]
      rfl
  | referred new own result =>
      subst result
      apply resolver_of_innermost new
      simp only [innermost, own]
      rfl
  | looked new notOwn settled result =>
      subst result
      apply resolver_of_innermost new
      exact innermost_of_baseMap notOwn (baseMap_of_settled settled world)
  | produced new notOwn unsettled producer run result =>
      subst result
      apply resolver_of_innermost new
      have based := baseMap_of_producer unsettled producer world
      rw [run] at based
      exact innermost_of_baseMap notOwn based

theorem made_eq
    (builds : chain.Builds bindings registry typeName field world outcome made after there) :
    made = (chain.runs field).map fun produce => (produce world).1 := by
  cases builds with
  | kept found => simp [runs, found]
  | referred new own result => simp [runs, own]
  | looked new notOwn settled result => simp [runs, settled]
  | produced new notOwn unsettled producer run result =>
      simp [runs, new, notOwn, unsettled, producer, run]

theorem producer_eq
    (builds : chain.Builds bindings registry typeName field world outcome made after there) :
    after.producer = chain.producer := by
  cases builds <;> simp

/-- What is built stays, and is joined by the resolver of the field. -/
theorem built_iff
    (builds : chain.Builds bindings registry typeName field world outcome made after there)
    {name : String} {resolver : FieldResolver World} :
    after.built.get? name = some resolver ↔
      chain.built.get? name = some resolver ∨ name = field.name ∧ outcome = .ok resolver := by
  cases builds with
  | kept found =>
      rw [iff_self_or]
      rintro ⟨rfl, same⟩
      cases same
      exact found
  | referred new => exact built_keep_iff new
  | looked new => exact built_keep_iff (by exact new)
  | produced new => exact built_keep_iff (by exact new)

/-- The resolver map stays, and is there once it has been made. -/
theorem settled_iff
    (builds : chain.Builds bindings registry typeName field world outcome made after there)
    {map : ResolverMap World} :
    after.settled = some map ↔ chain.settled = some map ∨ made = some map := by
  cases builds with
  | kept | referred => simp
  | looked new notOwn settled => simp [settled]
  | produced new notOwn unsettled => simp [unsettled]

theorem eq_of_not_made
    (builds : chain.Builds bindings registry typeName field world outcome none after there) :
    there = world := by
  cases builds <;> rfl

theorem of_made {map : ResolverMap World}
    (builds : chain.Builds bindings registry typeName field world outcome (some map) after there) :
    field.resolver = none ∧ chain.settled = none ∧
      ∃ produce, chain.producer = some produce ∧ produce world = (map, there) := by
  cases builds with
  | produced new notOwn unsettled producer run => exact ⟨notOwn, unsettled, _, producer, run⟩

theorem of_found
    (builds : chain.Builds bindings registry typeName field world outcome made after there)
    {resolver : FieldResolver World} (found : chain.built.get? field.name = some resolver) :
    outcome = .ok resolver ∧ made = none := by
  cases builds with
  | kept also =>
      rw [found] at also
      cases also
      exact ⟨rfl, rfl⟩
  | referred new | looked new | produced new =>
      rw [found] at new
      cases new

/-- What is not there yet is built, from the field's reference or from the resolver map. -/
theorem of_new
    (builds : chain.Builds bindings registry typeName field world outcome made after there)
    (new : chain.built.get? field.name = none) :
    (∃ reference, field.resolver = some reference ∧
        outcome = (bindings.fieldResolver reference).bind (registry.wrapAll field.directives)) ∨
      field.resolver = none ∧ ∃ map, (chain.settled = some map ∨ made = some map) ∧
        outcome = (entry typeName field map).bind (registry.wrapAll field.directives) := by
  cases builds with
  | kept found =>
      rw [new] at found
      cases found
  | referred _ own result => exact .inl ⟨_, own, result.symm⟩
  | looked _ notOwn settled result => exact .inr ⟨notOwn, _, .inl settled, result.symm⟩
  | produced _ notOwn unsettled producer run result =>
      exact .inr ⟨notOwn, _, .inr rfl, result.symm⟩

end Builds

/-- Two chains that cannot be told apart. -/
structure Alike (chain other : ResolverChain World) : Prop where
  producer : chain.producer = other.producer
  built : chain.built = other.built
  settled : chain.settled = other.settled

namespace Alike

variable {other : ResolverChain World}

@[refl]
theorem refl (chain : ResolverChain World) : chain.Alike chain := ⟨rfl, rfl, rfl⟩

theorem keep (alike : chain.Alike other) (outcome : Except AssemblyError (FieldResolver World)) :
    (chain.keep field outcome).Alike (other.keep field outcome) where
  producer := by simp [alike.producer]
  built := by cases outcome <;> simp [ResolverChain.keep, alike.built]
  settled := by simp [alike.settled]

theorem withBase (alike : chain.Alike other) (map : ResolverMap World) :
    (chain.withBase map).Alike (other.withBase map) :=
  ⟨alike.producer, alike.built, rfl⟩

/-- What happens in a chain happens in one that is alike. -/
theorem exists_builds (alike : chain.Alike other) {world there : World}
    {outcome : Except AssemblyError (FieldResolver World)} {made : Option (ResolverMap World)}
    {after : ResolverChain World}
    (builds : chain.Builds bindings registry typeName field world outcome made after there) :
    ∃ otherAfter,
      other.Builds bindings registry typeName field world outcome made otherAfter there ∧
        after.Alike otherAfter := by
  cases builds with
  | kept found =>
      rw [alike.built] at found
      exact ⟨_, .kept found, alike⟩
  | referred new own result =>
      rw [alike.built] at new
      exact ⟨_, .referred new own result, alike.keep outcome⟩
  | looked new notOwn settled result =>
      rw [alike.built] at new
      rw [alike.settled] at settled
      exact ⟨_, .looked new notOwn settled result, (alike.withBase _).keep outcome⟩
  | produced new notOwn unsettled producer run result =>
      rw [alike.built] at new
      rw [alike.settled] at unsettled
      rw [alike.producer] at producer
      exact ⟨_, .produced new notOwn unsettled producer run result, (alike.withBase _).keep outcome⟩

end Alike

/-- The chain with a resolver map, if one is given. -/
def settle (chain : ResolverChain World) : Option (ResolverMap World) → ResolverChain World
  | none => chain
  | some map => chain.withBase map

/-- Where nothing could be built, nothing but a resolver map is kept. -/
theorem Builds.alike_of_error {world there : World} {error : AssemblyError}
    {made : Option (ResolverMap World)} {after : ResolverChain World}
    (builds : chain.Builds bindings registry typeName field world (.error error) made after there) :
    after.Alike (chain.settle made) := by
  generalize failed : (Except.error error : Except AssemblyError (FieldResolver World)) = outcome
    at builds
  cases builds with
  | kept => cases failed
  | referred =>
      subst failed
      exact .refl chain
  | looked new notOwn settled =>
      subst failed
      exact ⟨rfl, rfl, settled.symm⟩
  | produced =>
      subst failed
      exact .refl _

/-- One of the cases applies. -/
theorem exists_builds (chain : ResolverChain World) (bindings : Bindings World)
    (registry : HandlerRegistry World) (typeName : String) (field : FieldDescriptor)
    (world : World) : ∃ outcome made after there,
      chain.Builds bindings registry typeName field world outcome made after there := by
  cases built : chain.built.get? field.name with
  | some resolver => exact ⟨_, _, _, _, .kept built⟩
  | none =>
      cases own : field.resolver with
      | some reference => exact ⟨_, _, _, _, .referred built own rfl⟩
      | none =>
          cases settled : chain.settled with
          | some map => exact ⟨_, _, _, _, .looked built own settled rfl⟩
          | none =>
              have unsettled := (settled_eq_none_iff.mp settled).2
              rcases Option.ne_none_iff_exists'.mp unsettled with ⟨produce, producer⟩
              exact ⟨_, _, _, _, .produced built own settled producer rfl rfl⟩

end ResolverChain

end WiredGraph
