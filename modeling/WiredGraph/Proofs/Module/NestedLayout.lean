import WiredGraph.Module.Layout
import WiredGraph.Proofs.Text.Cutting

/-!
# Modules of nested layouts

In a nested layout the first directory of a path that has the name of the root decides: what stands
below it has to be a module's directory and in it a file with the module's name, which may have the
extension of schema documents or none at all. So a path that ends in
`<root>/<module>/<module>.graphql` gives that module unless an earlier directory has the root's
name, too.
-/

namespace WiredGraph

namespace Text

variable {mark : Char} {wanted front rest : List Char}

theorem splitAround?_cons_of_none {char : Char} (absent : dropStart? wanted (char :: rest) = none) :
    (splitAround? wanted (char :: rest)).map Prod.snd =
      (splitAround? wanted rest).map Prod.snd := by
  rw [splitAround?, absent, Option.map_map]
  rfl

/-- A text that starts with a mark is not found before the first mark. -/
theorem splitAround?_of_not_mem (free : mark ∉ front) :
    (splitAround? (mark :: wanted) (front ++ rest)).map Prod.snd =
      (splitAround? (mark :: wanted) rest).map Prod.snd := by
  induction front with
  | nil => rfl
  | cons char front ih =>
      rw [List.mem_cons, not_or] at free
      have absent : dropStart? (mark :: wanted) (char :: (front ++ rest)) = none := if_neg free.1
      rw [List.cons_append, splitAround?_cons_of_none absent, ih free.2]

end Text

namespace ModulePath

open Text (splitOn join dropStart? dropEnd? splitAround?)

variable {root part module file rest path before : List Char} {parts directories : List (List Char)}

section Root

/-- The parts of a path below its first directory with a name. The last part is no directory. -/
def below? (root : List Char) : List (List Char) → Option (List (List Char))
  | [] => none
  | [_] => none
  | part :: next :: parts =>
      if part = root then some (next :: parts) else below? root (next :: parts)

theorem below?_eq_some_iff {inside : List (List Char)} :
    below? root parts = some inside ↔
      ∃ directories, parts = directories ++ root :: inside ∧ root ∉ directories ∧ inside ≠ [] := by
  induction parts using below?.induct root with
  | case1 => simp [below?]
  | case2 part =>
      refine iff_of_false (Option.some_ne_none _).symm ?_
      rintro ⟨directories, whole, -, some⟩
      rcases List.append_eq_cons_iff.mp whole.symm with ⟨-, same⟩ | ⟨later, -, none⟩
      · exact some (List.cons.inj same).2
      · simp at none
  | case3 next parts =>
      rw [below?, if_pos rfl, Option.some.injEq]
      constructor
      · rintro rfl
        exact ⟨[], rfl, List.not_mem_nil, List.cons_ne_nil _ _⟩
      · rintro ⟨directories, whole, first, -⟩
        cases directories with
        | nil => exact (List.cons.inj whole).2
        | cons directory directories =>
            obtain ⟨rfl, -⟩ := List.cons.inj whole
            exact absurd List.mem_cons_self first
  | case4 part next parts differs ih =>
      rw [below?, if_neg differs, ih]
      constructor
      · rintro ⟨directories, whole, first, some⟩
        refine ⟨part :: directories, by rw [whole, List.cons_append], ?_, some⟩
        rw [List.mem_cons, not_or]
        exact ⟨Ne.symm differs, first⟩
      · rintro ⟨directories, whole, first, some⟩
        cases directories with
        | nil => exact absurd (List.cons.inj whole).1 differs
        | cons directory directories =>
            rw [List.mem_cons, not_or] at first
            exact ⟨directories, (List.cons.inj whole).2, first.2, some⟩

/-- The root is looked for between slashes, of which one is put before the path. -/
theorem afterRoot?_eq (root path : List Char) :
    afterRoot? root path = (splitAround? ('/' :: root ++ ['/']) ('/' :: path)).map Prod.snd := by
  have first : dropStart? ('/' :: root ++ ['/']) ('/' :: path) = dropStart? (root ++ ['/']) path :=
    if_pos rfl
  rw [afterRoot?, splitAround?, first]
  cases dropStart? (root ++ ['/']) path with
  | some rest => rfl
  | none => rw [Option.map_map]; rfl

theorem flatten_slashed (part next : List Char) (parts : List (List Char)) :
    ((part :: next :: parts).map ('/' :: ·)).flatten =
      '/' :: (part ++ '/' :: join ['/'] (next :: parts)) := by
  rw [List.map_cons, List.flatten_cons,
    ← Text.cons_join_eq_flatten '/' (List.cons_ne_nil next parts)]
  rfl

theorem dropStart?_root_iff (noSlash : '/' ∉ root) (free : '/' ∉ part) {rest after : List Char} :
    dropStart? ('/' :: root ++ ['/']) ('/' :: (part ++ '/' :: rest)) = some after ↔
      part = root ∧ rest = after := by
  rw [Text.dropStart?_eq_some]
  constructor
  · intro whole
    simp only [List.cons_append, List.append_assoc, List.nil_append, List.cons.injEq,
      true_and] at whole
    exact Text.cut_unique free noSlash whole
  · rintro ⟨rfl, rfl⟩
    simp

theorem splitAround?_parts (noSlash : '/' ∉ root) (free : ∀ part ∈ parts, '/' ∉ part) :
    (splitAround? ('/' :: root ++ ['/']) (parts.map ('/' :: ·)).flatten).map Prod.snd =
      (below? root parts).map (join ['/']) := by
  induction parts using below?.induct root with
  | case1 => rfl
  | case2 part =>
      rw [List.forall_mem_singleton] at free
      have absent : dropStart? ('/' :: root ++ ['/']) ('/' :: (part ++ [])) = none := by
        rw [Option.eq_none_iff_forall_ne_some]
        intro after found
        have whole := (List.cons.inj (Text.dropStart?_eq_some.mp found)).2
        rw [List.append_nil] at whole
        exact free (by simp [whole])
      rw [List.map_singleton, List.flatten_singleton, ← List.append_nil part,
        Text.splitAround?_cons_of_none absent]
      exact Text.splitAround?_of_not_mem free
  | case3 next parts =>
      rw [flatten_slashed, below?, if_pos rfl, splitAround?,
        (dropStart?_root_iff noSlash noSlash).mpr ⟨rfl, rfl⟩]
      rfl
  | case4 part next parts differs ih =>
      rw [List.forall_mem_cons] at free
      have absent : dropStart? ('/' :: root ++ ['/'])
          ('/' :: (part ++ '/' :: join ['/'] (next :: parts))) = none := by
        rw [Option.eq_none_iff_forall_ne_some]
        exact fun after found => differs ((dropStart?_root_iff noSlash free.1).mp found).1
      rw [flatten_slashed, Text.splitAround?_cons_of_none absent, below?, if_neg differs,
        ← ih free.2, ← Text.cons_join_eq_flatten '/' (List.cons_ne_nil next parts)]
      exact Text.splitAround?_of_not_mem free.1

theorem afterRoot?_eq_below? (noSlash : '/' ∉ root) (path : List Char) :
    afterRoot? root path = (below? root (splitOn '/' path)).map (join ['/']) := by
  have free : ∀ part ∈ splitOn '/' path, '/' ∉ part := fun _ => Text.not_mem_of_mem_splitOn
  rw [afterRoot?_eq, ← splitAround?_parts noSlash free,
    ← Text.cons_join_eq_flatten '/' (Text.splitOn_ne_nil '/' path), Text.join_splitOn]

/-- What stands below the root stands below the first directory with its name. -/
theorem afterRoot?_eq_some_iff (noSlash : '/' ∉ root) :
    afterRoot? root path = some rest ↔
      ∃ directories inside, splitOn '/' path = directories ++ root :: inside ∧
        root ∉ directories ∧ inside ≠ [] ∧ join ['/'] inside = rest := by
  rw [afterRoot?_eq_below? noSlash, Option.map_eq_some_iff]
  constructor
  · rintro ⟨inside, found, same⟩
    rcases below?_eq_some_iff.mp found with ⟨directories, parts, first, some⟩
    exact ⟨directories, inside, parts, first, some, same⟩
  · rintro ⟨directories, inside, parts, first, some, same⟩
    exact ⟨inside, below?_eq_some_iff.mpr ⟨directories, parts, first, some⟩, same⟩

/-- The names of the directories that a path, or the beginning of one, passes through. -/
def directoriesOf (path : List Char) : List (List Char) := (splitOn '/' path).dropLast

theorem afterRoot?_eq_none_iff (noSlash : '/' ∉ root) :
    afterRoot? root path = none ↔ root ∉ directoriesOf path := by
  rw [Option.eq_none_iff_forall_ne_some]
  constructor
  · intro none among
    obtain ⟨front, back, directories, first⟩ := List.eq_append_cons_of_mem among
    have parts := List.dropLast_concat_getLast (Text.splitOn_ne_nil '/' path)
    rw [directoriesOf] at directories
    rw [directories, List.append_assoc, List.cons_append] at parts
    refine none _ ((afterRoot?_eq_some_iff noSlash).mpr ⟨front, _, parts.symm, first, ?_, rfl⟩)
    exact List.append_ne_nil_of_right_ne_nil _ (List.cons_ne_nil _ _)
  · intro absent rest found
    rcases (afterRoot?_eq_some_iff noSlash).mp found with ⟨directories, inside, parts, -, some, -⟩
    refine absent ?_
    rw [directoriesOf, parts, List.dropLast_append_of_ne_nil (List.cons_ne_nil _ _),
      List.dropLast_cons_of_ne_nil some]
    exact List.mem_append_right _ List.mem_cons_self

end Root

section Document

/-- The end of the names of schema documents. -/
def extension : List Char := ".graphql".toList

/-- A path leads through directories, of which there may be none, to a file in the directory of a
module right below the root. -/
structure LeadsTo (before root module file path : List Char) : Prop where
  boundary : before = [] ∨ ∃ front, before = front ++ ['/']
  path_eq : path = before ++ (root ++ '/' :: (module ++ '/' :: file))

theorem splitOn_threeParts (noSlash : '/' ∉ root) (free : '/' ∉ module) (also : '/' ∉ file) :
    splitOn '/' (root ++ '/' :: (module ++ '/' :: file)) = [root, module, file] := by
  rw [Text.splitOn_append, Text.splitOn_append, Text.splitOn_of_not_mem noSlash,
    Text.splitOn_of_not_mem free, Text.splitOn_of_not_mem also]
  rfl

theorem LeadsTo.splitOn_eq (leads : LeadsTo before root module file path) (noSlash : '/' ∉ root)
    (free : '/' ∉ module) (also : '/' ∉ file) :
    splitOn '/' path = directoriesOf before ++ [root, module, file] := by
  obtain ⟨rfl | ⟨front, rfl⟩, rfl⟩ := leads
  · exact splitOn_threeParts noSlash free also
  · rw [List.append_assoc, List.singleton_append, Text.splitOn_append,
      splitOn_threeParts noSlash free also, directoriesOf, Text.splitOn_append]
    simp [splitOn]

theorem LeadsTo.directoriesOf_eq (leads : LeadsTo before root module file path)
    (noSlash : '/' ∉ root) (free : '/' ∉ module) (also : '/' ∉ file) :
    directoriesOf path = directoriesOf before ++ [root, module] := by
  rw [directoriesOf, leads.splitOn_eq noSlash free also,
    List.dropLast_append_of_ne_nil (List.cons_ne_nil _ _)]
  rfl

theorem exists_leadsTo (parts : splitOn '/' path = directories ++ [root, module, file]) :
    ∃ before, LeadsTo before root module file path ∧ directoriesOf before = directories := by
  obtain ⟨rfl, -, free⟩ := Text.splitOn_eq_iff.mp parts
  by_cases direct : directories = []
  · subst direct
    exact ⟨[], ⟨.inl rfl, by simp [join]⟩, rfl⟩
  · refine ⟨join ['/'] directories ++ ['/'], ⟨.inr ⟨_, rfl⟩, ?_⟩, ?_⟩
    · rw [Text.join_append _ direct (List.cons_ne_nil _ _)]
      simp [join]
    · rw [directoriesOf, Text.splitOn_append, Text.splitOn_join direct]
      · simp [splitOn]
      · exact fun part part_mem => free part (List.mem_append_left _ part_mem)

/-- The extension is taken off a text that has it. -/
theorem withoutExtension_eq_iff {place : List Char} :
    (dropEnd? extension rest).getD rest = place ↔
      rest = place ++ extension ∨ rest = place ∧ ¬extension <:+ rest := by
  by_cases ends : extension <:+ rest
  · obtain ⟨front, rfl⟩ := ends
    rw [Text.dropEnd?_eq_some.mpr rfl, Option.getD_some, List.append_left_inj]
    simp
  · have absent : dropEnd? extension rest = none := by
      rw [Option.eq_none_iff_forall_ne_some]
      exact fun front found => ends ⟨front, (Text.dropEnd?_eq_some.mp found).symm⟩
    rw [absent, Option.getD_none]
    constructor
    · exact fun same => .inr ⟨same, ends⟩
    · rintro (rfl | ⟨same, -⟩)
      · exact absurd (List.suffix_append place extension) ends
      · exact same

/-- The file of a module has its name, with the extension or without it. -/
def IsFileOf (module file : List Char) : Prop :=
  file = module ++ extension ∨ file = module ∧ ¬extension <:+ module

theorem IsFileOf.not_mem (isFile : IsFileOf module file) (free : '/' ∉ module) : '/' ∉ file := by
  rcases isFile with rfl | ⟨rfl, -⟩
  · rw [List.mem_append, not_or]
    exact ⟨free, by decide⟩
  · exact free

theorem nestedModule?_eq_place :
    nestedModule? rest = some module ↔ module ≠ [] ∧ '/' ∉ module ∧
      (dropEnd? extension rest).getD rest = module ++ '/' :: module := by
  have pair : splitOn '/' ((dropEnd? extension rest).getD rest) = [module, module] ↔
      '/' ∉ module ∧ (dropEnd? extension rest).getD rest = module ++ '/' :: module := by
    rw [Text.splitOn_eq_iff]
    simp [join, and_comm]
  rw [← pair, nestedModule?]
  split
  · next directory file found =>
      have parts : splitOn '/' ((dropEnd? extension rest).getD rest) = [directory, file] := found
      rw [parts, Option.ite_none_right_eq_some, Option.some.injEq]
      constructor
      · rintro ⟨⟨some, rfl⟩, rfl⟩
        exact ⟨some, rfl⟩
      · rintro ⟨some, same⟩
        obtain ⟨rfl, rfl⟩ : directory = module ∧ file = module := by simpa using same
        exact ⟨⟨some, rfl⟩, rfl⟩
  · next other =>
      refine iff_of_false (Option.some_ne_none _).symm ?_
      rintro ⟨-, parts⟩
      exact other module module parts

theorem nestedModule?_eq_some_iff :
    nestedModule? rest = some module ↔ module ≠ [] ∧ '/' ∉ module ∧
      ∃ file, IsFileOf module file ∧ rest = module ++ '/' :: file := by
  rw [nestedModule?_eq_place, withoutExtension_eq_iff]
  refine and_congr_right fun _ => and_congr_right fun free => ?_
  constructor
  · rintro (rfl | ⟨rfl, plain⟩)
    · exact ⟨_, .inl rfl, by simp⟩
    · exact ⟨module, .inr ⟨rfl, mt (Text.suffix_append_cons_iff (by decide)).mpr plain⟩, rfl⟩
  · rintro ⟨file, rfl | ⟨rfl, plain⟩, rfl⟩
    · exact .inl (by simp)
    · exact .inr ⟨rfl, mt (Text.suffix_append_cons_iff (by decide)).mp plain⟩

/-- A path leads to a file of a module in the first directory that has the name of the root. -/
def LeadsBelowFirst (root module path : List Char) : Prop :=
  module ≠ [] ∧ '/' ∉ module ∧ ∃ before file, IsFileOf module file ∧
    LeadsTo before root module file path ∧ root ∉ directoriesOf before

/-- A path is or ends, at the boundary of a directory, in `<root>/<module>/<module>.graphql`. -/
def Documented (root module path : List Char) : Prop :=
  module ≠ [] ∧ '/' ∉ module ∧ ∃ before, LeadsTo before root module (module ++ extension) path

theorem exists_afterRoot?_iff (noSlash : '/' ∉ root) :
    (∃ rest, afterRoot? root path = some rest ∧ nestedModule? rest = some module) ↔
      LeadsBelowFirst root module path := by
  constructor
  · rintro ⟨rest, found, isModule⟩
    rcases nestedModule?_eq_some_iff.mp isModule with ⟨some, free, file, isFile, rfl⟩
    rcases (afterRoot?_eq_some_iff noSlash).mp found with
      ⟨directories, inside, parts, first, more, same⟩
    have pair : inside = [module, file] := by
      have freeInside : ∀ part ∈ inside, '/' ∉ part := by
        intro part part_mem
        have among : part ∈ splitOn '/' path := by simp [parts, part_mem]
        exact Text.not_mem_of_mem_splitOn among
      rw [← Text.splitOn_join more freeInside, same, Text.splitOn_append,
        Text.splitOn_of_not_mem free, Text.splitOn_of_not_mem (isFile.not_mem free)]
      rfl
    rw [pair] at parts
    rcases exists_leadsTo parts with ⟨before, leads, rfl⟩
    exact ⟨some, free, before, file, isFile, leads, first⟩
  · rintro ⟨some, free, before, file, isFile, leads, first⟩
    have parts := leads.splitOn_eq noSlash free (isFile.not_mem free)
    refine ⟨module ++ '/' :: file, (afterRoot?_eq_some_iff noSlash).mpr
      ⟨_, _, parts, first, List.cons_ne_nil _ _, by simp [join]⟩, ?_⟩
    exact nestedModule?_eq_some_iff.mpr ⟨some, free, file, isFile, rfl⟩

/-- Where only one directory has the root's name, and the file has the extension, the documented
paths are those that lead below the root. -/
theorem leadsBelowFirst_iff_documented (noSlash : '/' ∉ root) (ends : extension <:+ path)
    (once : (directoriesOf path).count root ≤ 1) :
    LeadsBelowFirst root module path ↔ Documented root module path := by
  refine and_congr_right fun _ => and_congr_right fun free => ?_
  constructor
  · rintro ⟨before, file, rfl | ⟨rfl, plain⟩, leads, -⟩
    · exact ⟨before, leads⟩
    · have parts : path = (before ++ (root ++ '/' :: file)) ++ '/' :: file := by
        simp [leads.path_eq]
      rw [parts] at ends
      exact absurd ((Text.suffix_append_cons_iff (by decide)).mp ends) plain
  · rintro ⟨before, leads⟩
    refine ⟨before, _, .inl rfl, leads, fun among => ?_⟩
    have isFile : IsFileOf module (module ++ extension) := .inl rfl
    rw [leads.directoriesOf_eq noSlash free (isFile.not_mem free), List.count_append,
      List.count_cons_self] at once
    have earlier := List.count_pos_iff.mpr among
    omega

end Document

end ModulePath

namespace ModuleLayout

open ModulePath

variable {root : String}

theorem moduleFor_nested_eq_ok_iff (noSlash : '/' ∉ root.toList) (path module : String) :
    moduleFor (.nested root) path = .ok module ↔
      LeadsBelowFirst root.toList module.toList (withSlashes path.toList) := by
  rw [← exists_afterRoot?_iff noSlash]
  simp only [moduleFor]
  cases below : afterRoot? root.toList (withSlashes path.toList) with
  | none => simp
  | some rest =>
      cases found : nestedModule? rest with
      | none => simp [found]
      | some name =>
          simp only [found, Except.ok.injEq, Option.some.injEq, exists_eq_left']
          rw [← String.toList_inj, String.toList_ofList]

/-- A nested layout gives a path the module to whose file it leads in the first directory with the
root's name, and refuses every other path with a reason that depends on whether there is such a
directory. These are the documented modules where that directory is the only one with the name and
the file has the extension of schema documents. -/
theorem moduleFor_nested (noSlash : '/' ∉ root.toList) (path : String) :
    (∀ module : String, moduleFor (.nested root) path = .ok module ↔
      LeadsBelowFirst root.toList module.toList (withSlashes path.toList)) ∧
    ((∀ module, ¬LeadsBelowFirst root.toList module (withSlashes path.toList)) →
      moduleFor (.nested root) path = .error ⟨String.ofList (withSlashes path.toList),
        if root.toList ∈ directoriesOf (withSlashes path.toList) then .notNested root
        else .noRoot root⟩) ∧
    (extension <:+ withSlashes path.toList →
      (directoriesOf (withSlashes path.toList)).count root.toList ≤ 1 →
      ∀ module : String, moduleFor (.nested root) path = .ok module ↔
        Documented root.toList module.toList (withSlashes path.toList)) := by
  have accepted := moduleFor_nested_eq_ok_iff noSlash path
  refine ⟨accepted, fun refused => ?_, fun ends once module => ?_⟩
  · simp only [moduleFor]
    cases below : afterRoot? root.toList (withSlashes path.toList) with
    | none => rw [if_neg ((afterRoot?_eq_none_iff noSlash).mp below)]
    | some rest =>
        have some_root : root.toList ∈ directoriesOf (withSlashes path.toList) := by
          refine Decidable.byContradiction fun absent => ?_
          rw [(afterRoot?_eq_none_iff noSlash).mpr absent] at below
          cases below
        have noModule : nestedModule? rest = none := by
          rw [Option.eq_none_iff_forall_ne_some]
          exact fun module found =>
            refused module ((exists_afterRoot?_iff noSlash).mp ⟨rest, below, found⟩)
        simp only [noModule, if_pos some_root]
  · rw [accepted, leadsBelowFirst_iff_documented noSlash ends once]

/-- A document below a root directory, a file there without an extension, and a document below two
directories with the root's name. -/
theorem moduleFor_nested_users :
    '/' ∉ "application".toList ∧
      moduleFor (.nested "application") "\\srv\\application\\users\\users.graphql" =
        .ok "users" ∧
      moduleFor (.nested "application") "application/users/users" = .ok "users" ∧
      (∀ module, moduleFor (.nested "application")
        "application/old/application/users/users.graphql" ≠ .ok module) ∧
      Documented "application".toList "users".toList
        "application/old/application/users/users.graphql".toList := by
  have noSlash : '/' ∉ "application".toList := by decide
  refine ⟨noSlash, ?_, ?_, ?_, ?_⟩
  · refine ((moduleFor_nested noSlash _).2.2 ⟨"/srv/application/users/users".toList, by decide⟩
      (by decide) "users").mpr ⟨by decide, by decide, "/srv/".toList, ?_, by decide⟩
    exact .inr ⟨"/srv".toList, by decide⟩
  · refine ((moduleFor_nested noSlash _).1 "users").mpr
      ⟨by decide, by decide, [], "users".toList, .inr ⟨rfl, by decide⟩, ?_, by decide⟩
    exact ⟨.inl rfl, by decide⟩
  · intro module accepted
    rcases ((moduleFor_nested noSlash _).1 module).mp accepted with
      ⟨-, free, before, file, isFile, leads, first⟩
    have parts := leads.directoriesOf_eq noSlash free (isFile.not_mem free)
    have named : directoriesOf
        (withSlashes "application/old/application/users/users.graphql".toList) =
          ["application".toList, "old".toList] ++ ["application".toList, "users".toList] := by
      decide
    obtain ⟨earlier, -⟩ := List.append_inj' (named.symm.trans parts) rfl
    rw [← earlier] at first
    exact first List.mem_cons_self
  · exact ⟨by decide, by decide, "application/old/".toList,
      .inr ⟨"application/old".toList, by decide⟩, by decide⟩

end ModuleLayout

end WiredGraph
