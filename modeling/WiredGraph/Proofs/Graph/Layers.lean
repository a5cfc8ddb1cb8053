import WiredGraph.Host.Script
import WiredGraph.Proofs.Graph.Building

/-!
# Layers around a resolver

The handlers of several directives are put around a resolver one after another, so each of them
surrounds the run of those behind it. What this means for a run is told by a log that the handlers
and the resolver write: a handler is a program that answers, changes the state of the host or runs
what it surrounds, and a watched one writes down when it is entered and left and when it runs what
it surrounds. Every such run stands in the log as one whole run of the layers behind, and watching
changes nothing else.
-/

namespace WiredGraph

variable {World : Type}

/-- What a handler does: it answers, changes the state of the host, or runs what it surrounds, and
goes on with what it has found there. -/
inductive HandlerProgram (World : Type) where
  | answer (outcome : Except ResolveError Json)
  | act (change : World → World) (rest : World → HandlerProgram World)
  | next (rest : Except ResolveError Json → HandlerProgram World)

/-- The run of a program around a computation. -/
def HandlerProgram.around (inner : Attempt World Json) : HandlerProgram World → Attempt World Json
  | .answer outcome => ExceptT.mk (pure outcome)
  | .act change rest => ExceptT.mk do
      let world ← get
      set (change world)
      ((rest world).around inner).run
  | .next rest => ExceptT.mk do
      let outcome ← inner.run
      ((rest outcome).around inner).run

/-- The program of a handler depends on the arguments of the directive and on the request. -/
abbrev HandlerCode (World : Type) :=
  OrderedMap String SortedJson → RequestContext → HandlerProgram World

/-- The handler that runs a program. -/
def HandlerCode.handler (code : HandlerCode World) : Handler World :=
  fun arguments context next => (code arguments context).around next

/-- What a log says about layers. -/
inductive LayerEvent where
  | entered (directive : String) (arguments : OrderedMap String SortedJson)
      (context : RequestContext)
  /-- A handler runs what it surrounds. -/
  | called (directive : String)
  | returned (directive : String)
  | left (directive : String)
  /-- The resolver inside all layers runs. -/
  | resolved (parent : Json) (arguments : FieldArguments) (context : RequestContext)
      (info : ResolveInfo)

/-- The state of a host and a log. -/
abbrev Logged (World : Type) := World × List LayerEvent

/-- The state with one more event in the log. -/
def LayerEvent.record (event : LayerEvent) (state : Logged World) : Logged World :=
  (state.1, state.2 ++ [event])

/-- A program that writes down when it runs what it surrounds, and when it answers. -/
def HandlerProgram.watched (directive : String) :
    HandlerProgram World → HandlerProgram (Logged World)
  | .answer outcome => .act (LayerEvent.left directive).record fun _ => .answer outcome
  | .act change rest => .act (Prod.map change id) fun state => (rest state.1).watched directive
  | .next rest => .act (LayerEvent.called directive).record fun _ =>
      .next fun outcome => .act (LayerEvent.returned directive).record fun _ =>
        (rest outcome).watched directive

/-- The code of a handler that also writes down what it is entered with. -/
def HandlerCode.watched (code : HandlerCode World) (directive : String) :
    HandlerCode (Logged World) :=
  fun arguments context =>
    .act (LayerEvent.entered directive arguments context).record fun _ =>
      (code arguments context).watched directive

/-- A resolver that writes down what it runs with. -/
def FieldResolver.watched (resolver : FieldResolver World) : FieldResolver (Logged World) :=
  fun parent arguments context info => ExceptT.mk fun state =>
    Prod.map id
      (fun world => (LayerEvent.resolved parent arguments context info).record (world, state.2))
      ((resolver parent arguments context info).run state.1)

/-- What one run of layers around a resolver writes: the first layer is entered and left, and
between that each of its runs of what it surrounds is one run of the layers behind it. -/
inductive LayerRun (parent : Json) (arguments : FieldArguments) (context : RequestContext)
    (info : ResolveInfo) : List DirectiveInvocation → List LayerEvent → Prop
  | base : LayerRun parent arguments context info [] [.resolved parent arguments context info]
  | layer {directive : DirectiveInvocation} {rest : List DirectiveInvocation}
      {runs : List (List LayerEvent)}
      (each : ∀ run ∈ runs, LayerRun parent arguments context info rest run) :
      LayerRun parent arguments context info (directive :: rest)
        (.entered directive.name directive.arguments context ::
          (runs.flatMap fun run =>
            .called directive.name :: run ++ [.returned directive.name]) ++
              [.left directive.name])

namespace HandlerRegistry

variable {registry : HandlerRegistry World}

/-- The first directive that no handler is registered for. -/
def FirstUnregistered (registry : HandlerRegistry World) (directives : List DirectiveInvocation)
    (name : String) : Prop :=
  ∃ before directive after, directives = before ++ directive :: after ∧ directive.name = name ∧
    registry.contains name = false ∧ ∀ earlier ∈ before, registry.contains earlier.name = true

theorem wrapAll_nil (base : FieldResolver World) : registry.wrapAll [] base = .ok base := rfl

/-- The handler of the first directive is looked up first and put around all others. -/
theorem wrapAll_cons (directive : DirectiveInvocation) (rest : List DirectiveInvocation)
    (base : FieldResolver World) :
    registry.wrapAll (directive :: rest) base = do
      let handler ← registry.handler directive.name
      let inner ← registry.wrapAll rest base
      return layer handler directive.arguments inner := by
  rw [wrapAll, wrapAll, List.mapM_cons]
  cases registry.handler directive.name with
  | error error => rfl
  | ok handler =>
      cases rest.mapM fun directive => do
        return (← registry.handler directive.name, directive.arguments) <;> rfl

theorem handler_eq_error_iff {name : String} {error : AssemblyError} :
    registry.handler name = .error error ↔
      registry.contains name = false ∧ error = .unknownDirective name := by
  rw [handler, contains, OrderedMap.contains]
  cases registry.handlers.get? name <;> simp [eq_comm]

theorem firstUnregistered_cons_iff {directive : DirectiveInvocation}
    {rest : List DirectiveInvocation} {name : String} :
    registry.FirstUnregistered (directive :: rest) name ↔
      registry.contains directive.name = false ∧ directive.name = name ∨
        registry.contains directive.name = true ∧ registry.FirstUnregistered rest name := by
  constructor
  · rintro ⟨before, missing, after, split, named, unregistered, registered⟩
    cases before with
    | nil =>
        cases split
        exact .inl ⟨named ▸ unregistered, named⟩
    | cons first before =>
        cases split
        rcases List.forall_mem_cons.mp registered with ⟨here, later⟩
        exact .inr ⟨here, before, missing, after, rfl, named, unregistered, later⟩
  · rintro (⟨unregistered, rfl⟩ | ⟨here, before, missing, after, rfl, named, unregistered, later⟩)
    · exact ⟨[], directive, rest, rfl, rfl, unregistered, by simp⟩
    · exact ⟨directive :: before, missing, after, rfl, named, unregistered,
        List.forall_mem_cons.mpr ⟨here, later⟩⟩

/-- Putting handlers around a resolver fails with the first directive that has none. -/
theorem wrapAll_eq_error_iff {directives : List DirectiveInvocation} {base : FieldResolver World}
    {error : AssemblyError} :
    registry.wrapAll directives base = .error error ↔
      ∃ name, registry.FirstUnregistered directives name ∧ error = .unknownDirective name := by
  induction directives with
  | nil => simp [wrapAll_nil, FirstUnregistered]
  | cons directive rest ih =>
      rw [wrapAll_cons]
      cases found : registry.handler directive.name with
      | error fault =>
          rcases handler_eq_error_iff.mp found with ⟨unregistered, rfl⟩
          simp [firstUnregistered_cons_iff, unregistered, bind, Except.bind, eq_comm]
      | ok handler =>
          have registered := exists_handler_iff.mp ⟨handler, found⟩
          simp only [firstUnregistered_cons_iff, registered, Bool.true_eq_false, false_and,
            true_and, false_or, ← ih]
          exact Success.bind_pure_eq_error

section Registered

variable {directives : List DirectiveInvocation}

/-- The handler of the first directive is put around what those of the others make. -/
theorem wrapAll_cons_of_handler {directive : DirectiveInvocation} {handler : Handler World}
    (found : registry.handler directive.name = .ok handler) (rest : List DirectiveInvocation)
    (base : FieldResolver World) :
    registry.wrapAll (directive :: rest) base =
      (registry.wrapAll rest base).map (layer handler directive.arguments) := by
  rw [wrapAll_cons, found]
  cases registry.wrapAll rest base <;> rfl

/-- Several handlers are put around a resolver one by one, from the last one to the first one. -/
theorem wrapAll_eq_foldr
    (registered : ∀ directive ∈ directives, registry.contains directive.name = true)
    (base : FieldResolver World) :
    registry.wrapAll directives base =
      directives.foldr (fun directive inner => inner >>= registry.wrapSingle directive)
        (.ok base) := by
  induction directives with
  | nil => rfl
  | cons directive rest ih =>
      rcases List.forall_mem_cons.mp registered with ⟨here, later⟩
      rcases exists_handler_iff.mpr here with ⟨handler, found⟩
      have single : ∀ inner, registry.wrapSingle directive inner =
          .ok (layer handler directive.arguments inner) := by
        intro inner
        rw [wrapSingle, found]
        rfl
      rw [wrapAll_cons_of_handler found, List.foldr_cons, ← ih later]
      cases registry.wrapAll rest base with
      | error error => rfl
      | ok inner => exact (single inner).symm

/-- The handlers of a list in two parts are put around a resolver part by part. -/
theorem wrapAll_append
    (registered : ∀ directive ∈ directives, registry.contains directive.name = true)
    (more : List DirectiveInvocation) (base : FieldResolver World) :
    registry.wrapAll (directives ++ more) base =
      registry.wrapAll more base >>= registry.wrapAll directives := by
  induction directives with
  | nil =>
      rw [List.nil_append]
      cases registry.wrapAll more base <;> rfl
  | cons directive rest ih =>
      rcases List.forall_mem_cons.mp registered with ⟨here, later⟩
      rcases exists_handler_iff.mpr here with ⟨handler, found⟩
      rw [List.cons_append, wrapAll_cons_of_handler found, ih later]
      cases registry.wrapAll more base with
      | error error => rfl
      | ok inner => exact (wrapAll_cons_of_handler found rest inner).symm

/-- In a run each handler is given the arguments of its directive, the request and the run of the
handlers behind it, the last one that of the resolver. -/
theorem exists_wrapAll_run
    (registered : ∀ directive ∈ directives, registry.contains directive.name = true)
    (base : FieldResolver World) :
    ∃ handlers wrapped,
      List.Forall₂ (fun directive handler => registry.handler directive.name = .ok handler)
        directives handlers ∧
      registry.wrapAll directives base = .ok wrapped ∧
      ∀ parent arguments context info, wrapped parent arguments context info =
        (directives.zip handlers).foldr
          (fun (directive, handler) inner => handler directive.arguments context inner)
          (base parent arguments context info) := by
  induction directives with
  | nil => exact ⟨[], base, .nil, rfl, fun _ _ _ _ => rfl⟩
  | cons directive rest ih =>
      rcases List.forall_mem_cons.mp registered with ⟨here, later⟩
      rcases exists_handler_iff.mpr here with ⟨handler, found⟩
      rcases ih later with ⟨handlers, inner, eachFound, wrapped, runs⟩
      refine ⟨handler :: handlers, layer handler directive.arguments inner, .cons found eachFound,
        ?_, fun parent arguments context info => ?_⟩
      · rw [wrapAll_cons_of_handler found, wrapped]
        rfl
      · rw [layer, runs, List.zip_cons_cons, List.foldr_cons]

end Registered

end HandlerRegistry

/-- A computation writes events of some form to the log, and does the same as another one that
writes nothing. -/
def Writes (form : List LayerEvent → Prop) (plain : Attempt World Json)
    (watched : Attempt (Logged World) Json) : Prop :=
  ∀ world log, ∃ events, form events ∧
    watched.run (world, log) = Prod.map id (fun after => (after, log ++ events)) (plain.run world)

section Writes

variable {plain : Attempt World Json} {watched : Attempt (Logged World) Json}

theorem FieldResolver.writes_watched (resolver : FieldResolver World) (parent : Json)
    (arguments : FieldArguments) (context : RequestContext) (info : ResolveInfo) :
    Writes (· = [.resolved parent arguments context info])
      (resolver parent arguments context info)
      (resolver.watched parent arguments context info) :=
  fun _ _ => ⟨_, rfl, rfl⟩

/-- A watched program writes one run of what it surrounds for each of its calls, between two events,
and that it is left. The call comes first, and what is run after it starts where it has ended. -/
theorem HandlerProgram.writes_watched (directive : String) {form : List LayerEvent → Prop}
    (inner : Writes form plain watched) (program : HandlerProgram World) :
    Writes
      (fun events => ∃ runs : List (List LayerEvent), (∀ run ∈ runs, form run) ∧
        events = (runs.flatMap fun run => .called directive :: run ++ [.returned directive]) ++
          [.left directive])
      (program.around plain) ((program.watched directive).around watched) := by
  induction program with
  | answer outcome => exact fun world log => ⟨_, ⟨[], by simp, rfl⟩, rfl⟩
  | act change rest ih => exact fun world log => ih world (change world) log
  | next rest ih =>
      intro world log
      rcases inner world (log ++ [.called directive]) with ⟨events, ofForm, ran⟩
      rcases ih (plain.run world).1 (plain.run world).2
        (log ++ [.called directive] ++ events ++ [.returned directive]) with
        ⟨later, ⟨runs, ofForms, rfl⟩, ranOn⟩
      refine ⟨_, ⟨events :: runs, List.forall_mem_cons.mpr ⟨ofForm, ofForms⟩, rfl⟩, ?_⟩
      have goesOn :
          (((HandlerProgram.next rest).watched directive).around watched).run (world, log) =
          (fun ended => (((rest ended.1).watched directive).around watched).run
            ((LayerEvent.returned directive).record ended.2))
            (watched.run (world, log ++ [.called directive])) := rfl
      rw [goesOn, ran]
      refine ranOn.trans ?_
      simp only [List.flatMap_cons, List.append_assoc, List.cons_append, List.nil_append]
      rfl

/-- A watched handler around a watched computation writes one run of its layer. -/
theorem HandlerCode.writes_watched (code : HandlerCode World) {parent : Json}
    {arguments : FieldArguments} {context : RequestContext} {info : ResolveInfo}
    {rest : List DirectiveInvocation}
    (inner : Writes (LayerRun parent arguments context info rest) plain watched)
    (directive : DirectiveInvocation) :
    Writes (LayerRun parent arguments context info (directive :: rest))
      (code.handler directive.arguments context plain)
      ((code.watched directive.name).handler directive.arguments context watched) := by
  intro world log
  have entered := (code directive.arguments context).writes_watched directive.name inner world
    (log ++ [.entered directive.name directive.arguments context])
  rcases entered with ⟨_, ⟨runs, each, rfl⟩, ran⟩
  refine ⟨_, .layer each, ran.trans ?_⟩
  simp only [List.append_assoc, List.cons_append, List.nil_append]
  rfl

end Writes

namespace HandlerRegistry

variable {registry : HandlerRegistry World} {watching : HandlerRegistry (Logged World)}

/-- What is registered under a name in two registries is the same program, watched in the
second. -/
def IsWatched (registry : HandlerRegistry World) (watching : HandlerRegistry (Logged World))
    (name : String) : Prop :=
  ∃ code : HandlerCode World, registry.handler name = .ok code.handler ∧
    watching.handler name = .ok (code.watched name).handler

/-- Watched handlers around a watched resolver write one run of all layers. -/
theorem exists_wrapAll_writes {directives : List DirectiveInvocation}
    (watched : ∀ directive ∈ directives, registry.IsWatched watching directive.name)
    (base : FieldResolver World) :
    ∃ resolver watchedResolver, registry.wrapAll directives base = .ok resolver ∧
      watching.wrapAll directives base.watched = .ok watchedResolver ∧
      ∀ parent arguments context info,
        Writes (LayerRun parent arguments context info directives)
          (resolver parent arguments context info)
          (watchedResolver parent arguments context info) := by
  induction directives with
  | nil =>
      refine ⟨base, base.watched, rfl, rfl, fun parent arguments context info world log => ?_⟩
      rcases base.writes_watched parent arguments context info world log with ⟨_, rfl, ran⟩
      exact ⟨_, .base, ran⟩
  | cons directive rest ih =>
      rcases List.forall_mem_cons.mp watched with ⟨⟨code, found, watchedFound⟩, later⟩
      rcases ih later with ⟨inner, watchedInner, wrapped, watchedWrapped, writes⟩
      refine ⟨layer code.handler directive.arguments inner,
        layer (code.watched directive.name).handler directive.arguments watchedInner, ?_, ?_,
        fun parent arguments context info =>
          code.writes_watched (writes parent arguments context info) directive⟩
      · rw [wrapAll_cons_of_handler found, wrapped]
        rfl
      · rw [wrapAll_cons_of_handler watchedFound, watchedWrapped]
        rfl

/-- How handlers surround a resolver. -/
structure Surrounds (registry : HandlerRegistry World) (directives : List DirectiveInvocation)
    (base : FieldResolver World) : Prop where
  /-- They are put around it one by one, from the last one to the first one. -/
  folded : registry.wrapAll directives base =
    directives.foldr (fun directive inner => inner >>= registry.wrapSingle directive) (.ok base)
  /-- Putting more behind them is putting them around what those make of the resolver. -/
  appended : ∀ more, registry.wrapAll (directives ++ more) base =
    registry.wrapAll more base >>= registry.wrapAll directives
  /-- Each handler is given the arguments of its directive, the request, and the run of the rest,
  which for the last one is that of the resolver with all it was given. -/
  runs : ∃ handlers wrapped,
    List.Forall₂ (fun directive handler => registry.handler directive.name = .ok handler)
      directives handlers ∧
    registry.wrapAll directives base = .ok wrapped ∧
    ∀ parent arguments context info, wrapped parent arguments context info =
      (directives.zip handlers).foldr
        (fun (directive, handler) inner => handler directive.arguments context inner)
        (base parent arguments context info)
  /-- If they are programs, watching them and the resolver changes nothing in what they do, and
  shows that whenever one of them calls what it surrounds the rest runs once. -/
  logged : ∀ watching : HandlerRegistry (Logged World),
    (∀ directive ∈ directives, registry.IsWatched watching directive.name) →
      ∃ resolver watchedResolver, registry.wrapAll directives base = .ok resolver ∧
        watching.wrapAll directives base.watched = .ok watchedResolver ∧
        ∀ parent arguments context info,
          Writes (LayerRun parent arguments context info directives)
            (resolver parent arguments context info)
            (watchedResolver parent arguments context info)

/-- Handlers can be put around a resolver unless a directive has none, and the first such directive
is the one at fault. They then surround the resolver in the order of the directives, so that no
directives leave it as it is. -/
theorem wrapAll_surrounds (registry : HandlerRegistry World) (base : FieldResolver World) :
    (∀ directives error, registry.wrapAll directives base = .error error ↔
        ∃ name, registry.FirstUnregistered directives name ∧ error = .unknownDirective name) ∧
      registry.wrapAll [] base = .ok base ∧
      ∀ directives, (∀ directive ∈ directives, registry.contains directive.name = true) →
        registry.Surrounds directives base := by
  refine ⟨fun _ _ => wrapAll_eq_error_iff, wrapAll_nil base, fun directives registered => ?_⟩
  exact {
    folded := wrapAll_eq_foldr registered base
    appended := fun more => wrapAll_append registered more base
    runs := exists_wrapAll_run registered base
    logged := fun watching watched => exists_wrapAll_writes watched base }

end HandlerRegistry

namespace HandlerScript

/-- The program of a task. -/
def codeOf : HandlerTask → HandlerCode HostLog
  | .pass => fun _ _ => .next .answer
  | .deny => fun arguments _ =>
      .answer (.ok (((arguments.get? "value").map SortedJson.tree).getD .null))
  | .fail => fun arguments _ =>
      .answer (.error (.custom ((textArgument? arguments "message").getD "failed")))
  | .upper => fun _ _ => .next fun outcome => .answer (outcome.map fun
      | .string text => .string (Ascii.capitalize text)
      | other => other)
  | .append => fun arguments _ => .next fun outcome => .answer (outcome.map fun value =>
      .string (value.asString?.getD "" ++ (textArgument? arguments "suffix").getD ""))
  | .wrap => fun arguments _ => .next fun outcome => .answer (outcome.map fun value =>
      let given := arguments.entries.map fun (name, argument) =>
        Json.array [.string name, argument.tree]
      .object [("args", .array given), ("value", value)])
  | .twice => fun _ _ => .next fun
      | .ok first => .next fun outcome => .answer (outcome.map fun second => .array [first, second])
      | .error error => .answer (.error error)
  | .recover => fun _ _ => .next fun
      | .ok value => .answer (.ok value)
      | .error error => .answer (.ok (.object [("recovered", error.toJson)]))
  | .gate => fun arguments context =>
      match context.data.get? ((textArgument? arguments "key").getD "viewer") with
      | some (.bool true) => .next .answer
      | _ => .answer (.error (.custom "denied"))

/-- The program of a script. -/
def code (script : HandlerScript) : HandlerCode HostLog := fun arguments context =>
  .act (· ++ script.label.toList) fun _ => codeOf script.task arguments context

/-- A task is performed by its program. A task that first runs what it surrounds is settled by what
it makes of the outcome. -/
theorem perform_eq_handler (task : HandlerTask) : perform task = (codeOf task).handler := by
  funext arguments context next
  refine funext fun world => ?_
  have called : ∀ (finish : Json → Attempt HostLog Json) rest (world : HostLog),
      (∀ outcome after, ExceptT.bindCont finish outcome after = (rest outcome).around next after) →
        (next >>= finish) world = (HandlerProgram.next rest).around next world :=
    fun finish rest world same => same (next world).1 (next world).2
  cases task with
  | pass | deny | fail => rfl
  | append | wrap => exact called _ _ world fun outcome after => by cases outcome <;> rfl
  | upper =>
      refine called _ _ world fun outcome after => ?_
      rcases outcome with - | value
      · rfl
      · cases value <;> rfl
  | twice =>
      refine called _ _ world fun outcome after => ?_
      rcases outcome with - | first
      · rfl
      · exact called _ _ after fun outcome after => by cases outcome <;> rfl
  | recover =>
      simp only [perform, tryCatch, tryCatchThe, MonadExceptOf.tryCatch, ExceptT.tryCatch,
        ExceptT.mk, ExceptT.run, bind, StateT.bind, HandlerCode.handler, codeOf,
        HandlerProgram.around]
      rcases next world with ⟨- | -, after⟩ <;> rfl
  | gate =>
      simp only [HandlerCode.handler, codeOf, perform]
      generalize context.data.get? _ = given
      cases given with
      | none => rfl
      | some value =>
          cases value with
          | bool granted => cases granted <;> rfl
          | _ => rfl

/-- A script is run by its program. -/
theorem run_eq_handler (script : HandlerScript) : script.run = script.code.handler := by
  funext arguments context next
  rw [run, perform_eq_handler]
  rfl

end HandlerScript

namespace HandlerRegistry

/-- A directive whose handler runs twice what it surrounds. -/
def twice : DirectiveInvocation := ⟨"twice", .empty⟩

/-- The registry of that handler, which notes in the state of the host that it has run. -/
def ofTwice : HandlerRegistry HostLog :=
  ⟨.insert .empty "twice" (HandlerScript.mk .twice (some "twice")).run, .empty⟩

/-- The registry of the same handler, watched. -/
def ofTwiceWatched : HandlerRegistry (Logged HostLog) :=
  ⟨.insert .empty "twice" ((HandlerScript.mk .twice (some "twice")).code.watched "twice").handler,
    .empty⟩

theorem wrapAll_surrounds_twice :
    (∀ directive ∈ [twice, twice], ofTwice.contains directive.name = true ∧
      ofTwice.IsWatched ofTwiceWatched directive.name) ∧
    ofTwice.Surrounds [twice, twice] (.constant .null) ∧
    ∃ wrapped watched events, ofTwice.wrapAll [twice, twice] (.constant .null) = .ok wrapped ∧
      ofTwiceWatched.wrapAll [twice, twice] (FieldResolver.constant .null).watched = .ok watched ∧
      LayerRun .null .empty .empty ⟨"f", "T", "Int", []⟩ [twice, twice] events ∧
      (watched .null .empty .empty ⟨"f", "T", "Int", []⟩).run ([], []) =
        (.ok (.array [.array [.null, .null], .array [.null, .null]]),
          (["twice", "twice", "twice"], events)) := by
  have found : ofTwice.handler "twice" = .ok (HandlerScript.mk .twice (some "twice")).run := by
    simp [ofTwice, handler]
  have watchedFound : ofTwiceWatched.handler "twice" =
      .ok ((HandlerScript.mk .twice (some "twice")).code.watched "twice").handler := by
    simp [ofTwiceWatched, handler]
  have watched : ∀ directive ∈ [twice, twice],
      ofTwice.IsWatched ofTwiceWatched directive.name := by
    simpa [twice, IsWatched] using
      ⟨_, HandlerScript.run_eq_handler _ ▸ found, watchedFound⟩
  have registered : ∀ directive ∈ [twice, twice], ofTwice.contains directive.name = true := by
    simpa [twice] using exists_handler_iff.mp ⟨_, found⟩
  have surrounds := (wrapAll_surrounds ofTwice (.constant .null)).2.2 _ registered
  refine ⟨fun directive directive_mem => ⟨registered directive directive_mem,
    watched directive directive_mem⟩, surrounds, ?_⟩
  rcases surrounds.logged ofTwiceWatched watched with
    ⟨wrapped, watchedResolver, isWrapped, isWatched, writes⟩
  rcases writes .null .empty .empty ⟨"f", "T", "Int", []⟩ [] [] with ⟨events, run, ran⟩
  refine ⟨wrapped, watchedResolver, events, isWrapped, isWatched, run, ran.trans ?_⟩
  have plain : ofTwice.wrapAll [twice, twice] (.constant .null) =
      .ok (layer (HandlerScript.mk .twice (some "twice")).run .empty
        (layer (HandlerScript.mk .twice (some "twice")).run .empty (.constant .null))) := by
    rw [wrapAll_cons_of_handler found, wrapAll_cons_of_handler found]
    rfl
  cases isWrapped.symm.trans plain
  rfl

end HandlerRegistry

end WiredGraph
