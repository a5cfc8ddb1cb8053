import Mathlib.Data.List.Nodup
import WiredGraph.CommandLine.Run
import WiredGraph.Proofs.CommandLine.FileMap
import WiredGraph.Proofs.OrderedMap

/-!
# What runs do to files

A run goes through steps that only read, up to the one that writes artifacts. Steps that only read
leave the files as they are, whatever they come to. When artifacts have been written, each place has
the text of the last artifact that was written to it.
-/

namespace WiredGraph

namespace CommandLine

variable {State Item Result : Type}

/-- What a run comes to, and the lines and the files that it leaves. -/
def carryOut (run : CommandRun (StateM State) Item) (transcript : Transcript) (state : State) :
    (Except RunFailure Item × Transcript) × State :=
  ((run.run).run transcript).run state

theorem carryOut_bind (first : CommandRun (StateM State) Item)
    (next : Item → CommandRun (StateM State) Result) (transcript : Transcript) (state : State) :
    carryOut (first >>= next) transcript state =
      match carryOut first transcript state with
      | ((.ok item, lines), after) => carryOut (next item) lines after
      | ((.error failure, lines), after) => ((.error failure, lines), after) := by
  rw [carryOut, carryOut, ExceptT.run_bind, StateT.run_bind, StateT.run_bind]
  rcases (first.run.run transcript).run state with ⟨⟨outcome, lines⟩, after⟩
  cases outcome <;> rfl

theorem carryOut_perform (operation : StateM State (Except FileFault Item))
    (transcript : Transcript) (state : State) :
    carryOut (perform operation) transcript state =
      (((operation.run state).1.mapError .file, transcript), (operation.run state).2) := by
  rw [perform, carryOut_bind]
  have lifted : carryOut (liftM operation : CommandRun (StateM State) (Except FileFault Item))
      transcript state = ((.ok (operation.run state).1, transcript), (operation.run state).2) := rfl
  rw [lifted]
  rcases operation.run state with ⟨_ | _, after⟩ <;> rfl

/-- A run comes to an outcome without changing the files; what it prints does not matter. -/
def OnlyReads (run : CommandRun (StateM State) Item) (state : State)
    (outcome : Except RunFailure Item) : Prop :=
  ∀ transcript, ∃ lines, carryOut run transcript state = ((outcome, lines), state)

namespace OnlyReads

variable {state : State} {first : CommandRun (StateM State) Item}
  {next : Item → CommandRun (StateM State) Result}

theorem pure (item : Item) : OnlyReads (pure item) state (.ok item) :=
  fun transcript => ⟨transcript, rfl⟩

theorem throw (failure : RunFailure) :
    OnlyReads (throw failure : CommandRun (StateM State) Item) state (.error failure) :=
  fun transcript => ⟨transcript, rfl⟩

theorem say (line : String) : OnlyReads (say line) state (.ok ()) :=
  fun _ => ⟨_, rfl⟩

theorem warn (line : String) : OnlyReads (warn line) state (.ok ()) :=
  fun _ => ⟨_, rfl⟩

theorem sayIf (occasion : Bool) (line : String) : OnlyReads (sayIf occasion line) state (.ok ()) := by
  cases occasion
  · exact pure ()
  · exact say line

theorem bind {outcome : Except RunFailure Item} (further : Item → Except RunFailure Result)
    (here : OnlyReads first state outcome)
    (later : ∀ item, outcome = .ok item → OnlyReads (next item) state (further item)) :
    OnlyReads (first >>= next) state (outcome >>= further) := by
  intro transcript
  rcases here transcript with ⟨lines, ran⟩
  rw [carryOut_bind, ran]
  cases outcome with
  | ok item => exact later item rfl lines
  | error failure => exact ⟨lines, rfl⟩

/-- A step that only reads and gives an item, before what is done with the item. -/
theorem bind_ok {item : Item} {outcome : Except RunFailure Result}
    (here : OnlyReads first state (.ok item)) (later : OnlyReads (next item) state outcome) :
    OnlyReads (first >>= next) state outcome :=
  here.bind (fun _ => outcome) fun _ same => Except.ok.inj same ▸ later

theorem mapM {Given : Type} {step : Given → CommandRun (StateM State) Item}
    {outcome : Given → Except RunFailure Item} {items : List Given}
    (each : ∀ item ∈ items, OnlyReads (step item) state (outcome item)) :
    OnlyReads (items.mapM step) state (items.mapM outcome) := by
  induction items with
  | nil => exact pure []
  | cons item rest ih =>
      rw [List.mapM_cons, List.mapM_cons]
      refine (each item List.mem_cons_self).bind _ fun result _ => ?_
      refine (ih fun other other_mem => each other (List.mem_cons_of_mem item other_mem)).bind _ ?_
      exact fun results _ => pure (result :: results)

/-- A file that can be read is read without a change. -/
theorem perform (files : FileMap State) {path text : String}
    (readable : ((files.access.read path).run state).1 = .ok text) :
    OnlyReads (perform (files.access.read path)) state (.ok text) := by
  intro transcript
  rw [carryOut_perform, readable, files.state_of_read]
  exact ⟨transcript, rfl⟩

end OnlyReads

/-- A run can succeed with an item and leave the files in a state. -/
def Leads (run : CommandRun (StateM State) Item) (state : State) (item : Item)
    (after : State) : Prop :=
  ∃ transcript lines, carryOut run transcript state = ((.ok item, lines), after)

namespace Leads

variable {state after : State} {first : CommandRun (StateM State) Item}
  {next : Item → CommandRun (StateM State) Result}

theorem bind {result : Result} (leads : Leads (first >>= next) state result after) :
    ∃ item between, Leads first state item between ∧ Leads (next item) between result after := by
  rcases leads with ⟨transcript, lines, ran⟩
  rw [carryOut_bind] at ran
  split at ran
  · next item between after here =>
      exact ⟨item, after, ⟨transcript, between, here⟩, ⟨between, lines, ran⟩⟩
  · nomatch ran

theorem of_onlyReads {item : Item} {outcome : Except RunFailure Item}
    (leads : Leads first state item after) (onlyReads : OnlyReads first state outcome) :
    outcome = .ok item ∧ after = state := by
  rcases leads with ⟨transcript, lines, ran⟩
  rcases onlyReads transcript with ⟨others, same⟩
  rw [same] at ran
  cases ran
  exact ⟨rfl, rfl⟩

/-- A step that only reads and gives an item is followed by what is done with the item. -/
theorem of_bind_onlyReads {item : Item} {result : Result}
    (leads : Leads (first >>= next) state result after)
    (onlyReads : OnlyReads first state (.ok item)) : Leads (next item) state result after := by
  rcases leads.bind with ⟨found, between, here, later⟩
  rcases here.of_onlyReads onlyReads with ⟨same, rfl⟩
  rwa [Except.ok.inj same]

theorem perform {operation : StateM State (Except FileFault Item)} {item : Item}
    (leads : Leads (perform operation) state item after) :
    operation.run state = (.ok item, after) := by
  rcases leads with ⟨transcript, lines, ran⟩
  rw [carryOut_perform] at ran
  rcases whole : operation.run state with ⟨_ | found, between⟩
  · rw [whole] at ran
    nomatch ran
  · rw [whole] at ran
    cases ran
    rfl

end Leads

/-- The place of the file of an artifact. -/
def artifactPlace (output name : String) : List String :=
  FilePath.place (FilePath.join output (name ++ ".json"))

/-- The texts by place after artifacts have been written into a directory, one after another. -/
def written (output : String) (artifacts : List (String × String))
    (texts : List String → Option String) : List String → Option String :=
  artifacts.foldl (fun texts artifact =>
    Function.update texts (artifactPlace output artifact.1) (some artifact.2)) texts

section Written

variable {output : String} {artifacts : List (String × String)}
  {texts : List String → Option String}

/-- Each place has the text of the last artifact that was written to it. -/
theorem written_eq (place : List String) :
    written output artifacts texts place =
      ((artifacts.reverse.find? (artifactPlace output ·.1 = place)).map Prod.snd).or
        (texts place) := by
  induction artifacts using List.reverseRecOn with
  | nil => rfl
  | append_singleton artifacts artifact ih =>
      rw [written, List.foldl_concat, ← written, Function.update_apply, List.reverse_concat,
        List.find?_cons, ih]
      by_cases here : artifactPlace output artifact.1 = place
      · simp [here]
      · simp [here, Ne.symm here]

theorem artifactPlace_eq {name : String} (noSlash : '/' ∉ name.toList) :
    artifactPlace output name = FilePath.place output ++ [name ++ ".json"] :=
  FilePath.place_join (FilePath.isFileName_json noSlash)

/-- Artifacts have files of their own, right in a directory, and nothing else has changed. -/
structure HoldsEach (output : String) (artifacts : List (String × String))
    (before after : List String → Option String) : Prop where
  /-- No two artifacts share a place. -/
  apart : (artifacts.map fun artifact => FilePath.place output ++ [artifact.1 ++ ".json"]).Nodup
  each : ∀ artifact ∈ artifacts,
    after (FilePath.place output ++ [artifact.1 ++ ".json"]) = some artifact.2
  others : ∀ place, (∀ artifact ∈ artifacts,
    place ≠ FilePath.place output ++ [artifact.1 ++ ".json"]) → after place = before place

theorem holdsEach_written (distinct : (artifacts.map Prod.fst).Nodup)
    (noSlash : ∀ artifact ∈ artifacts, '/' ∉ artifact.1.toList) :
    HoldsEach output artifacts texts (written output artifacts texts) := by
  have places : artifacts.map (fun artifact => FilePath.place output ++ [artifact.1 ++ ".json"]) =
      artifacts.map (artifactPlace output ·.1) :=
    List.map_congr_left fun artifact artifact_mem =>
      (artifactPlace_eq (noSlash artifact artifact_mem)).symm
  have apart : (artifacts.map (artifactPlace output ·.1)).Nodup := by
    rw [← places]
    refine (List.Nodup.of_map _ distinct).map_on ?_
    intro artifact artifact_mem other other_mem same
    refine List.inj_on_of_nodup_map distinct artifact_mem other_mem ?_
    simpa using same
  refine ⟨places ▸ apart, fun artifact artifact_mem => ?_, fun place free => ?_⟩
  · have reversed : (artifacts.reverse.map (artifactPlace output ·.1)).Nodup := by
      rwa [List.map_reverse, List.nodup_reverse]
    have found := Distinct.find?_key_eq_some reversed (List.mem_reverse.mpr artifact_mem)
    rw [written_eq, ← artifactPlace_eq (noSlash artifact artifact_mem), found]
    rfl
  · have none : artifacts.reverse.find? (artifactPlace output ·.1 = place) = none := by
      rw [List.find?_eq_none]
      intro artifact artifact_mem
      have artifact_mem := List.mem_reverse.mp artifact_mem
      rw [artifactPlace_eq (noSlash artifact artifact_mem), decide_eq_true_eq]
      exact Ne.symm (free artifact artifact_mem)
    rw [written_eq, none]
    rfl

end Written

variable (files : FileMap State) {state after : State}

theorem text_of_writeArtifacts {verbose : Bool} {output : String}
    {artifacts : List (String × String)}
    (leads : Leads (writeArtifacts files.access verbose output artifacts) state () after) :
    files.text? after = written output artifacts (files.text? state) := by
  rcases leads.bind with ⟨_, prepared, made, looped⟩
  have unchanged := files.text_of_makeDirectories output state
  rw [made.perform] at unchanged
  rw [← unchanged]
  clear leads made unchanged
  induction artifacts generalizing prepared with
  | nil =>
      rw [(looped.of_onlyReads (OnlyReads.pure ())).2]
      rfl
  | cons artifact rest ih =>
      rcases looped.bind with ⟨_, between, once, later⟩
      rcases once.bind with ⟨_, extended, wrote, said⟩
      rw [(said.of_onlyReads (OnlyReads.sayIf verbose _)).2] at later
      have text := files.text_of_write (congrArg Prod.fst wrote.perform)
      rw [wrote.perform] at text
      rw [ih extended later, text]
      rfl

end CommandLine

end WiredGraph
