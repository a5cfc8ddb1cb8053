import WiredGraph.CommandLine.Files
import WiredGraph.Module.Layout
import WiredGraph.Proofs.Text.Cutting

/-!
# The places of paths

Different paths may lead to one place: empty steps and points are passed over, and two points take
back the step before them. A path below a directory leads to a place right in the directory if its
name has no slash. Names of modules have none.
-/

namespace WiredGraph

namespace Text

variable {wanted text before after : List Char}

theorem append_of_splitAround? (found : splitAround? wanted text = some (before, after)) :
    text = before ++ wanted ++ after := by
  induction text generalizing before with
  | nil =>
      rw [splitAround?] at found
      split at found
      · next none =>
          cases found
          rw [List.isEmpty_iff.mp none]
          rfl
      · nomatch found
  | cons char rest ih =>
      rw [splitAround?] at found
      split at found
      · next whole =>
          cases found
          exact dropStart?_eq_some.mp whole
      · rcases Option.map_eq_some_iff.mp found with ⟨⟨earlier, later⟩, further, same⟩
        cases same
        rw [ih further]
        rfl

theorem append_of_splitAroundLast? (found : splitAroundLast? wanted text = some (before, after)) :
    text = before ++ wanted ++ after := by
  rcases Option.map_eq_some_iff.mp found with ⟨⟨last, first⟩, around, same⟩
  cases same
  have whole := congrArg List.reverse (append_of_splitAround? around)
  simpa using whole

end Text

namespace ModulePath

theorem not_mem_fileName? {path name : List Char} (found : fileName? path = some name) :
    '/' ∉ name := by
  suffices piece_mem : name ∈ Text.splitOn '/' path from Text.not_mem_of_mem_splitOn piece_mem
  rw [fileName?] at found
  split at found
  · nomatch found
  · next last =>
      cases found
      exact List.mem_of_mem_drop (List.mem_filter.mp (List.mem_of_getLast? last)).1
  · split at found
    · nomatch found
    · next whole =>
        split at found
        · nomatch found
        · cases found
          rw [whole]
          exact List.mem_cons_self

theorem not_mem_stem {name : List Char} (free : '/' ∉ name) : '/' ∉ stem name := by
  rw [stem]
  split
  · exact free
  · exact free
  · next around =>
      rw [Text.append_of_splitAroundLast? around, List.append_assoc, List.mem_append,
        not_or] at free
      exact free.1

theorem not_mem_nestedModule? {rest module : List Char}
    (found : nestedModule? rest = some module) : '/' ∉ module := by
  rw [nestedModule?] at found
  split at found
  · next directory file pieces =>
      split at found
      · cases found
        apply Text.not_mem_of_mem_splitOn
        rw [pieces]
        exact List.mem_cons_self
      · nomatch found
  · nomatch found

end ModulePath

namespace ModuleLayout

/-- The name of a module has no slash. -/
theorem not_mem_moduleFor {layout : ModuleLayout} {path module : String}
    (found : layout.moduleFor path = .ok module) : '/' ∉ module.toList := by
  cases layout <;> simp only [moduleFor] at found
  case fileStem =>
    split at found
    · next named =>
        cases found
        rw [String.toList_ofList]
        exact ModulePath.not_mem_stem (ModulePath.not_mem_fileName? named)
    · nomatch found
  case nested =>
    split at found
    · nomatch found
    · split at found
      · next nested =>
          cases found
          rw [String.toList_ofList]
          exact ModulePath.not_mem_nestedModule? nested
      · nomatch found

end ModuleLayout

namespace FilePath

/-- The steps of a path that lead somewhere. -/
def steps (path : String) : List String :=
  ((Text.splitOn '/' path.toList).filter fun step => step != [] && step != ['.']).map String.ofList

/-- The place that a step from a place leads to. Two points take back the step before them; where
there is none they lead out of the working directory. -/
def enter (place : List String) (step : String) : List String :=
  if step = ".." then
    match place.getLast? with
    | none | some ".." => place ++ [".."]
    | some _ => place.dropLast
  else
    place ++ [step]

/-- The place that a step leads to on the way from the root; nothing is above it. -/
def enterBelowRoot (place : List String) (step : String) : List String :=
  if step = ".." then place.dropLast else place ++ [step]

/-- The place of a path. Places below the root start with a slash, other places do not. -/
def place (path : String) : List String :=
  if path.toList.head? = some '/' then "/" :: (steps path).foldl enterBelowRoot []
  else (steps path).foldl enter []

/-- A name of a file, which is one step. -/
structure IsFileName (name : String) : Prop where
  noSlash : '/' ∉ name.toList
  ne_empty : name ≠ ""
  ne_point : name ≠ "."
  ne_points : name ≠ ".."

variable {path name directory : String}

theorem steps?_eq (path : String) :
    steps? path = if path.toList.head? = some '/' then none else some (steps path) := by
  rw [steps?, steps]
  rcases path.toList with - | ⟨first, rest⟩
  · rfl
  · by_cases slash : first = '/'
    · subst slash
      rfl
    · rw [if_neg (by simpa using slash)]
      split
      · next same => exact absurd (List.cons.inj same).1 slash
      · rfl

theorem steps_of_isFileName (isName : IsFileName name) : steps name = [name] := by
  have notEmpty : name.toList ≠ [] := fun empty => isName.ne_empty (String.toList_inj.mp empty)
  have notPoint : name.toList ≠ ['.'] := fun point => isName.ne_point (String.toList_inj.mp point)
  rw [steps, Text.splitOn_of_not_mem isName.noSlash]
  simp [notEmpty, notPoint]

theorem steps_append_slash (front back : String) :
    steps (front ++ "/" ++ back) = steps front ++ steps back := by
  have whole : (front ++ "/" ++ back).toList = front.toList ++ '/' :: back.toList := by simp
  rw [steps, whole, Text.splitOn_append, List.filter_append, List.map_append]
  rfl

/-- A file name is put after the directory, with a slash between them if there is none yet. -/
theorem join_cases (directory : String) (isName : IsFileName name) :
    (directory = "" ∧ join directory name = name) ∨
      (∃ front, directory = front ++ "/" ∧ join directory name = front ++ "/" ++ name) ∨
        directory ≠ "" ∧ join directory name = directory ++ "/" ++ name := by
  have relative : name.toList.head? ≠ some '/' := fun slash =>
    isName.noSlash (List.mem_of_head? slash)
  rw [join]
  split
  case h_1 _ _ slash => exact absurd slash relative
  case h_2 empty _ =>
    rw [List.getLast?_eq_none_iff, String.toList_eq_nil_iff] at empty
    exact .inl ⟨empty, rfl⟩
  case h_3 slash _ =>
    rcases List.getLast?_eq_some_iff.mp slash with ⟨front, whole⟩
    refine .inr (.inl ⟨String.ofList front, ?_, ?_⟩) <;>
      · apply String.toList_inj.mp
        simp [whole]
  case h_4 last _ =>
    refine .inr (.inr ⟨?_, rfl⟩)
    rintro rfl
    simp at last

theorem steps_join (isName : IsFileName name) :
    steps (join directory name) = steps directory ++ [name] := by
  rcases join_cases directory isName with
    ⟨rfl, joined⟩ | ⟨front, rfl, joined⟩ | ⟨-, joined⟩
  · rw [joined, steps_of_isFileName isName]
    rfl
  · have ended : steps (front ++ "/") = steps front := by
      have whole := steps_append_slash front ""
      rwa [String.append_empty, show steps "" = [] from rfl, List.append_nil] at whole
    rw [joined, steps_append_slash, steps_of_isFileName isName, ended]
  · rw [joined, steps_append_slash, steps_of_isFileName isName]

theorem head?_join (isName : IsFileName name) :
    (join directory name).toList.head? = some '/' ↔ directory.toList.head? = some '/' := by
  have relative : name.toList.head? ≠ some '/' := fun slash =>
    isName.noSlash (List.mem_of_head? slash)
  rcases join_cases directory isName with
    ⟨rfl, joined⟩ | ⟨front, rfl, joined⟩ | ⟨notEmpty, joined⟩
  · rw [joined]
    exact iff_of_false relative nofun
  · rw [joined]
    simp only [String.toList_append, List.append_assoc, List.head?_append]
    cases front.toList.head? <;> simp
  · have notEmpty : directory.toList ≠ [] := fun empty => notEmpty (String.toList_inj.mp empty)
    rw [joined, String.toList_append, String.toList_append, List.append_assoc, List.head?_append]
    cases first : directory.toList.head? with
    | none => exact absurd (List.head?_eq_none_iff.mp first) notEmpty
    | some char => rfl

theorem enter_of_ne (place : List String) (differs : name ≠ "..") :
    enter place name = place ++ [name] := if_neg differs

theorem enter_up {place : List String} (below : place ≠ []) (inside : ".." ∉ place) :
    enter place ".." = place.dropLast := by
  rw [enter, if_pos rfl]
  split
  · next outside => exact absurd (List.getLast?_eq_none_iff.mp outside) below
  · next up => exact absurd (List.mem_of_getLast? up) inside
  · rfl

theorem enterBelowRoot_of_ne (place : List String) (differs : name ≠ "..") :
    enterBelowRoot place name = place ++ [name] := if_neg differs

/-- A file name below a directory leads to a place right in it. -/
theorem place_join (isName : IsFileName name) :
    place (join directory name) = place directory ++ [name] := by
  simp only [place, head?_join isName, steps_join isName, List.foldl_append, List.foldl_cons,
    List.foldl_nil, enter_of_ne _ isName.ne_points, enterBelowRoot_of_ne _ isName.ne_points]
  split <;> rfl

theorem isFileName_json (noSlash : '/' ∉ name.toList) : IsFileName (name ++ ".json") := by
  have long : ∀ other : String, other.toList.length < 5 → name ++ ".json" ≠ other := by
    rintro other short rfl
    have ending : ".json".toList.length = 5 := by decide
    rw [String.toList_append, List.length_append] at short
    omega
  exact ⟨by simpa using noSlash, long _ (by decide), long _ (by decide), long _ (by decide)⟩

end FilePath

end WiredGraph
