import WiredGraph.Proofs.CommandLine.Paths
import WiredGraph.Proofs.Success

/-!
# Files as a map

Commands only need that files are a map from places to texts: what is read from a path is the text
at its place, what is written to it stands there afterwards, and nothing else changes. A tree of
files is such a map.
-/

namespace WiredGraph

/-- Files that are a map from places to texts, and the operations on them. -/
structure FileMap (State : Type) where
  access : FileAccess (StateM State)
  text? : State → List String → Option String
  /-- Reading changes nothing. -/
  state_of_read (path : String) (state : State) : ((access.read path).run state).2 = state
  text_of_read {path text : String} {state : State} :
    ((access.read path).run state).1 = .ok text → text? state (FilePath.place path) = some text
  /-- Making directories changes no text. -/
  text_of_makeDirectories (path : String) (state : State) :
    text? ((access.makeDirectories path).run state).2 = text? state
  /-- What is written to a path stands at its place, and no other text changes. -/
  text_of_write {path text : String} {state : State} :
    ((access.write path text).run state).1 = .ok () →
      text? ((access.write path text).run state).2 =
        Function.update (text? state) (FilePath.place path) (some text)

namespace FileTree

variable {tree grown : FileTree}

/-- Steps through a tree lead where the path says, since there are no links in it. -/
theorem walk_eq {place steps found : List String} (inside : ".." ∉ place)
    (walks : tree.walk place steps = .ok found) : steps.foldl FilePath.enter place = found := by
  fun_induction walk tree place steps with
  | case1 place =>
      cases walks
      rfl
  | case2 => nomatch walks
  | case3 place rest below ih =>
      rw [List.foldl_cons, FilePath.enter_up below inside]
      exact ih (fun up => inside (List.dropLast_subset place up)) walks
  | case4 place name rest notUp _ ih =>
      rw [List.foldl_cons, FilePath.enter_of_ne place notUp]
      refine ih ?_ walks
      rw [List.mem_append, List.mem_singleton, not_or]
      exact ⟨inside, Ne.symm notUp⟩
  | case5 => nomatch walks
  | case6 => nomatch walks

theorem placeOf_eq {steps found : List String} (leads : tree.placeOf steps = .ok found) :
    steps.foldl FilePath.enter [] = found := by
  rw [placeOf] at leads
  split at leads
  case h_1 none =>
    rw [List.getLast?_eq_none_iff] at none
    cases none
    exact Except.ok.inj leads
  case h_2 => exact walk_eq List.not_mem_nil leads
  case h_3 name notUp last =>
    rcases Success.bind_eq_ok.mp leads with ⟨before, walks, same⟩
    rcases List.getLast?_eq_some_iff.mp last with ⟨others, rfl⟩
    rw [List.dropLast_concat] at walks
    rw [List.foldl_concat, walk_eq List.not_mem_nil walks,
      FilePath.enter_of_ne _ fun up => notUp (up ▸ rfl)]
    exact Except.ok.inj same

theorem filePlace_eq {path : String} {place : List String}
    (found : tree.filePlace path = .ok place) :
    FilePath.place path = place ∧ tree.node? place ≠ some .directory := by
  rw [filePlace, FilePath.steps?_eq] at found
  by_cases absolute : path.toList.head? = some '/'
  · simp only [if_pos absolute] at found
    cases found
  · simp only [if_neg absolute] at found
    rcases Success.bind_eq_ok.mp found with ⟨reached, leads, found⟩
    rw [FilePath.place, if_neg absolute, placeOf_eq leads]
    split at found
    · cases found
    all_goals
      next stands =>
        split at found
        · cases found
        · cases found
          exact ⟨rfl, by simp [stands]⟩

theorem text?_put_file {place : List String} (below : place ≠ []) (text : String) :
    (tree.put place (.file text)).text? = Function.update tree.text? place (some text) := by
  funext other
  rw [Function.update_apply, text?, text?]
  cases other with
  | nil => simp [node?, Ne.symm below]
  | cons name rest =>
      simp only [node?, put, OrderedMap.get?_insert]
      by_cases same : place = name :: rest
      · simp [same]
      · simp [same, Ne.symm same]

/-- A directory that is put where nothing stands hides no text. -/
theorem text?_put_directory {place : List String} (free : tree.node? place = none) :
    (tree.put place .directory).text? = tree.text? := by
  funext other
  rw [text?, text?]
  cases other with
  | nil => rfl
  | cons name rest =>
      simp only [node?, put, OrderedMap.get?_insert]
      by_cases same : place = name :: rest
      · subst same
        rw [node?] at free
        · simp [free]
        · nofun
      · simp [same]

theorem text?_makeDirectory {steps : List String} (made : tree.makeDirectory steps = .ok grown) :
    grown.text? = tree.text? := by
  rcases Success.bind_eq_ok.mp made with ⟨place, leads, made⟩
  cases stands : tree.node? place with
  | none =>
      simp [stands] at made
      cases made
      exact text?_put_directory stands
  | some node => simp [stands] at made

theorem text?_ensureDirectory {steps : List String}
    (made : tree.ensureDirectory steps = .ok grown) : grown.text? = tree.text? := by
  rw [ensureDirectory] at made
  split at made
  · next grown made' =>
      cases made
      exact text?_makeDirectory made'
  · split at made
    · cases made
      rfl
    · nomatch made

theorem text?_makeDirectoriesUp (tree : FileTree) (upward : List String) :
    (tree.makeDirectoriesUp upward).2.text? = tree.text? := by
  induction upward with
  | nil => rfl
  | cons last before ih =>
      rw [makeDirectoriesUp]
      split
      · next made => exact text?_makeDirectory made
      · split
        · next failed =>
            rw [failed] at ih
            exact ih
        · next between =>
            rw [between] at ih
            split
            · next made => exact (text?_ensureDirectory made).trans ih
            · exact ih
      · split <;> rfl

theorem text?_of_read {path text : String} (found : tree.read path = .ok text) :
    tree.text? (FilePath.place path) = some text := by
  rcases Success.bind_eq_ok.mp found with ⟨place, named, found⟩
  rw [(filePlace_eq named).1]
  split at found
  · next stands =>
      cases found
      exact stands
  · nomatch found

theorem text?_of_write {path text : String} (written : tree.write path text = .ok grown) :
    grown.text? = Function.update tree.text? (FilePath.place path) (some text) := by
  rcases Success.bind_eq_ok.mp written with ⟨place, named, put⟩
  rcases filePlace_eq named with ⟨rfl, notDirectory⟩
  cases put
  refine text?_put_file ?_ text
  intro top
  rw [top] at notDirectory
  exact notDirectory rfl

/-- A tree of files is a map from places to texts. -/
def fileMap : FileMap FileTree where
  access := access
  text? := text?
  state_of_read _ _ := rfl
  text_of_read := text?_of_read
  text_of_makeDirectories := by
    intro path tree
    simp only [access, StateT.run]
    split
    · exact text?_makeDirectoriesUp tree _
    · rfl
  text_of_write := by
    intro path text tree
    simp only [access, StateT.run]
    split
    · next grown made => exact fun _ => text?_of_write made
    · exact nofun

end FileTree

end WiredGraph
