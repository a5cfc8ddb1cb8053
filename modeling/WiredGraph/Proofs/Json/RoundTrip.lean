import Mathlib.Data.List.Forall2
import WiredGraph.Proofs.Json.String

/-!
# JSON is read back

A value that is written with one item on a line is read back as itself, member by member and in
the same order, if it nests no deeper than reading allows; a deeper one is refused. Floating point
numbers are read quickly rather than exactly, so it is asked of each one in the value that its own
text is read back.
-/

namespace WiredGraph

/-- The floating point number that a JSON value is. -/
def Json.floating? : Json → Option Binary64
  | .number (.floating value) => some value
  | _ => none

/-- Reading the text of a number gives the number. -/
def Binary64.IsReadBack (number : Binary64) : Prop :=
  JsonReading.number number.text = some (.number (.floating number), [])

theorem Binary64.isReadBack_iff (number : Binary64) :
    number.IsReadBack ↔ ((JsonReading.number number.text).map fun (value, rest) =>
      (value.floating?, rest)) = some (some number, []) := by
  rw [Binary64.IsReadBack]
  constructor
  · intro read
    rw [read]
    rfl
  · intro read
    rcases Option.map_eq_some_iff.mp read with ⟨⟨value, rest⟩, found, same⟩
    cases value with
    | number value => cases value <;> simp_all [Json.floating?]
    | _ => simp [Json.floating?] at same

instance (number : Binary64) : Decidable number.IsReadBack :=
  decidable_of_iff _ number.isReadBack_iff.symm

namespace Json

mutual

/-- How deep lists and objects nest. -/
def depth : Json → Nat
  | .array items => depthOfItems items + 1
  | .object members => depthOfMembers members + 1
  | _ => 0

/-- How deep the deepest of some items nests. -/
def depthOfItems : List Json → Nat
  | [] => 0
  | item :: rest => max item.depth (depthOfItems rest)

/-- How deep the deepest of some members nests. -/
def depthOfMembers : List (String × Json) → Nat
  | [] => 0
  | (_, value) :: rest => max value.depth (depthOfMembers rest)

end

mutual

/-- The floating point numbers in a value. -/
def floats : Json → List Binary64
  | .number (.floating value) => [value]
  | .array items => floatsOfItems items
  | .object members => floatsOfMembers members
  | _ => []

/-- The floats in items. -/
def floatsOfItems : List Json → List Binary64
  | [] => []
  | item :: rest => item.floats ++ floatsOfItems rest

/-- The floats in members. -/
def floatsOfMembers : List (String × Json) → List Binary64
  | [] => []
  | (_, value) :: rest => value.floats ++ floatsOfMembers rest

end

section Lists

theorem depthOfItems_le_iff {items : List Json} {bound : Nat} :
    depthOfItems items ≤ bound ↔ ∀ item ∈ items, item.depth ≤ bound := by
  induction items with
  | nil => simp [depthOfItems]
  | cons item rest ih => rw [depthOfItems, Nat.max_le, ih, List.forall_mem_cons]

theorem depthOfMembers_le_iff {members : List (String × Json)} {bound : Nat} :
    depthOfMembers members ≤ bound ↔ ∀ member ∈ members, member.2.depth ≤ bound := by
  induction members with
  | nil => simp [depthOfMembers]
  | cons member rest ih => rw [depthOfMembers, Nat.max_le, ih, List.forall_mem_cons]

@[simp]
theorem floatsOfItems_eq_flatMap (items : List Json) :
    floatsOfItems items = items.flatMap floats := by
  induction items with
  | nil => rfl
  | cons item rest ih => rw [floatsOfItems, ih, List.flatMap_cons]

@[simp]
theorem floatsOfMembers_eq_flatMap (members : List (String × Json)) :
    floatsOfMembers members = members.flatMap fun member => member.2.floats := by
  induction members with
  | nil => rfl
  | cons member rest ih => rw [floatsOfMembers, ih, List.flatMap_cons]

@[simp]
theorem prettyItems_eq_map (level : Nat) (items : List Json) :
    prettyItems level items = items.map (prettyAt level) := by
  induction items with
  | nil => rfl
  | cons item rest ih => rw [prettyItems, ih, List.map_cons]

@[simp]
theorem prettyMembers_eq_map (level : Nat) (members : List (String × Json)) :
    prettyMembers level members =
      members.map fun member => writeString member.1 ++ ':' :: ' ' :: member.2.prettyAt level := by
  induction members with
  | nil => rfl
  | cons member rest ih => rw [prettyMembers, ih, List.map_cons]

theorem mapM_guard {Item : Type} (holds : Item → Bool) (items : List Item) :
    items.mapM (Option.guard holds) = Option.guard (·.all holds) items := by
  induction items with
  | nil => rfl
  | cons item rest ih =>
      rw [List.mapM_cons, ih]
      cases here : holds item <;> cases later : rest.all holds <;> simp [Option.guard, here, later]

/-- A list nests one deeper than its items. -/
theorem guard_depth_array (depth : Nat) (items : List Json) :
    Option.guard (·.depth ≤ depth + 1) (array items) =
      (items.mapM (Option.guard (·.depth ≤ depth))).map .array := by
  have same : decide ((array items).depth ≤ depth + 1) =
      items.all fun item => decide (item.depth ≤ depth) := by
    rw [Bool.eq_iff_iff, decide_eq_true_iff, Json.depth, Nat.add_le_add_iff_right,
      depthOfItems_le_iff, List.all_eq_true]
    simp only [decide_eq_true_iff]
  rw [mapM_guard]
  simp only [Option.guard, same]
  split <;> rfl

/-- An object nests one deeper than its values. -/
theorem guard_depth_object (depth : Nat) (members : List (String × Json)) :
    Option.guard (·.depth ≤ depth + 1) (object members) =
      (members.mapM fun member =>
        (Option.guard (·.depth ≤ depth) member.2).map (member.1, ·)).map .object := by
  have same : decide ((object members).depth ≤ depth + 1) =
      members.all fun member => decide (member.2.depth ≤ depth) := by
    rw [Bool.eq_iff_iff, decide_eq_true_iff, Json.depth, Nat.add_le_add_iff_right,
      depthOfMembers_le_iff, List.all_eq_true]
    simp only [decide_eq_true_iff]
  have each : (fun member : String × Json =>
      (Option.guard (·.depth ≤ depth) member.2).map (member.1, ·)) =
        Option.guard fun member => decide (member.2.depth ≤ depth) := by
    funext member
    by_cases shallow : member.2.depth ≤ depth <;> simp [Option.guard, shallow]
  rw [each, mapM_guard]
  simp only [Option.guard, same]
  split <;> rfl

end Lists

end Json

namespace JsonReading

open Json (writeString newline spread)

variable {Item : Type} {more : List Char}

section Layout

/-- The characters that are passed between the parts of a text. -/
def blankChars : List Char := [' ', '\n', '\t', '\r']

/-- A text starts with a character that is no blank and closes no list or object. -/
def StartsItem (text : List Char) : Prop :=
  ∃ first rest, text = first :: rest ∧ first ∉ blankChars ∧ first ∉ [']', '}']

/-- What may follow an item: nothing, a comma or a new line. -/
def EndsItem (text : List Char) : Prop := ∀ first ∈ text.head?, first = ',' ∨ first = '\n'

/-- Whatever follows in a list or an object, a text is read as an item, or else is refused. -/
def ReadAs (read : JsonReading Item) (result : Option Item) (text : List Char) : Prop :=
  ∀ more, EndsItem more → read (text ++ more) = result.map (·, more)

theorem endsNumber_of_endsItem (ends : EndsItem more) : EndsNumber more := by
  intro first first_mem
  rcases ends first first_mem with rfl | rfl <;> decide

theorem blanks_append {before : List Char} (blank : ∀ char ∈ before, char ∈ blankChars)
    {first : Char} (visible : first ∉ blankChars) (rest : List Char) :
    blanks (before ++ first :: rest) = some ((), first :: rest) := by
  have isBlank : ∀ char, (char == ' ' || char == '\n' || char == '\t' || char == '\r') =
      decide (char ∈ blankChars) := by
    intro char
    simp [blankChars, Bool.or_assoc, Bool.beq_eq_decide_eq]
  have stops : (first :: rest).dropWhile (fun char => decide (char ∈ blankChars)) =
      first :: rest := List.dropWhile_cons_of_neg (by simpa using visible)
  simp only [blanks, isBlank]
  rw [List.dropWhile_append_of_pos (by simpa using blank), stops]

theorem blanks_of_visible {first : Char} (visible : first ∉ blankChars) (rest : List Char) :
    blanks (first :: rest) = some ((), first :: rest) := by
  have none : ∀ char ∈ [], char ∈ blankChars := nofun
  exact blanks_append none visible rest

theorem mem_blankChars_of_mem_newline {level : Nat} :
    ∀ char ∈ newline level, char ∈ blankChars := by
  intro char char_mem
  rcases List.mem_cons.mp char_mem with rfl | indentation
  · decide
  · rw [List.eq_of_mem_replicate indentation]
    decide

theorem eat_same (mark : Char) (rest : List Char) :
    eat mark (mark :: rest) = some (true, rest) := by
  rw [eat, if_pos rfl]

theorem eat_other {mark first : Char} (differs : first ≠ mark) (rest : List Char) :
    eat mark (first :: rest) = some (false, first :: rest) := by
  rw [eat, if_neg differs]

end Layout

section Items

variable {read : JsonReading Item} {close : Char} {level : Nat}

/-- What stands after the first item: the other ones, each on a line of its own, the closing mark
and the rest of the text. -/
def afterItem (level : Nat) (close : Char) (more : List Char) : List (List Char) → List Char
  | [] => newline level ++ close :: more
  | text :: texts =>
      ',' :: (newline (level + 1) ++ (text ++ afterItem level close more texts))

theorem spread_append (openMark : Char) (text : List Char) (texts : List (List Char)) :
    spread level openMark close (text :: texts) ++ more =
      openMark :: (newline (level + 1) ++ (text ++ afterItem level close more texts)) := by
  have joined : ∀ text : List Char,
      Text.join [','] ((text :: texts).map (newline (level + 1) ++ ·)) ++
          (newline level ++ close :: more) =
        newline (level + 1) ++ (text ++ afterItem level close more texts) := by
    induction texts with
    | nil => simp [Text.join, afterItem]
    | cons next texts ih =>
        intro text
        simp only [List.map_cons, Text.join, List.append_assoc] at ih ⊢
        simp [ih next, afterItem]
  have whole := joined text
  simp only [List.map_cons] at whole
  simp [spread, ← whole]

theorem length_lt_afterItem (texts : List (List Char)) :
    texts.length < (afterItem level close more texts).length := by
  induction texts with
  | nil =>
      rw [afterItem, List.length_append, List.length_cons, List.length_nil]
      omega
  | cons text texts ih =>
      simp only [afterItem, List.length_cons, List.length_append]
      omega

theorem endsItem_afterItem (level : Nat) (close : Char) (more : List Char)
    (texts : List (List Char)) : EndsItem (afterItem level close more texts) := by
  rcases texts with - | ⟨text, texts⟩
  · rintro first ⟨⟩
    exact .inr rfl
  · rintro first ⟨⟩
    exact .inl rfl

variable {results : List (Option Item)} {texts : List (List Char)}

/-- The items after the first one are read one by one. -/
theorem restUpTo_afterItem (isClose : close = ']' ∨ close = '}')
    (each : List.Forall₂ (fun result text => ReadAs read result text ∧ StartsItem text)
      results texts) {bound : Nat} (enough : texts.length < bound) :
    restUpTo close read bound (afterItem level close more texts) =
      (results.mapM id).map (·, more) := by
  have visible : close ∉ blankChars ∧ ',' ≠ close := by
    rcases isClose with rfl | rfl <;> decide
  induction each generalizing bound with
  | nil =>
      rcases bound with - | bound
      · exact absurd enough (Nat.not_lt_zero _)
      · rw [restUpTo, afterItem,
          bind_of_eq (blanks_append mem_blankChars_of_mem_newline visible.1 more),
          bind_of_eq (eat_same close more)]
        rfl
  | @cons result text results texts here _ ih =>
      rcases here with ⟨reads, first, others, rfl, firstVisible, -⟩
      rcases bound with - | bound
      · exact absurd enough (Nat.not_lt_zero _)
      · have here := reads _ (endsItem_afterItem level close more texts)
        have later := ih (Nat.lt_of_succ_lt_succ enough)
        rw [List.cons_append] at here
        rw [restUpTo, afterItem, bind_of_eq (blanks_of_visible (by decide) _),
          bind_of_eq (eat_other visible.2 _), if_neg Bool.false_ne_true,
          bind_of_eq (token_single ',' _), List.cons_append,
          bind_of_eq (blanks_append mem_blankChars_of_mem_newline firstVisible _),
          List.mapM_cons]
        cases result with
        | none => exact bind_of_eq_none here
        | some item =>
            rw [bind_of_eq here]
            cases read : results.mapM id with
            | none => exact bind_of_eq_none (by rw [later, read, Option.map_none])
            | some items => exact bind_of_eq (by rw [later, read, Option.map_some])

theorem exists_spread (level : Nat) (openMark close : Char) (texts : List (List Char)) :
    ∃ inside, spread level openMark close texts = openMark :: inside := by
  cases texts <;> exact ⟨_, rfl⟩

/-- Items are read from between their marks, each from a line of its own. -/
theorem readAs_spread (isClose : close = ']' ∨ close = '}') (level : Nat) (openMark : Char)
    (wrap : List Item → Json)
    (each : List.Forall₂ (fun result text => ReadAs read result text ∧ StartsItem text)
      results texts) :
    ReadAs (token [openMark] >>= fun _ => items close read >>= fun items => pure (wrap items))
      ((results.mapM id).map wrap) (spread level openMark close texts) := by
  intro more _
  cases each with
  | nil =>
      have visible : close ∉ blankChars := by rcases isClose with rfl | rfl <;> decide
      have nothing : items close read (close :: more) = some ([], more) := by
        rw [items, bind_of_eq (blanks_of_visible visible more), bind_of_eq (eat_same close more)]
        rfl
      exact (bind_of_eq (token_single openMark _)).trans (bind_of_eq nothing)
  | @cons result text results texts here later =>
      rcases here with ⟨reads, first, others, rfl, firstVisible, noClose⟩
      have notClose : first ≠ close := by
        rintro rfl
        rcases isClose with rfl | rfl <;> exact noClose (by decide)
      have here := reads _ (endsItem_afterItem level close more texts)
      have rest : bounded (restUpTo close read) (afterItem level close more texts) =
          (results.mapM id).map (·, more) :=
        restUpTo_afterItem isClose later (length_lt_afterItem texts)
      rw [List.cons_append] at here
      rw [spread_append, bind_of_eq (token_single openMark _), List.mapM_cons]
      have start : items close read (newline (level + 1) ++ (first :: others ++
          afterItem level close more texts)) =
            (read >>= fun first => bounded (restUpTo close read) >>= fun rest =>
              pure (first :: rest)) (first :: (others ++ afterItem level close more texts)) := by
        rw [items, List.cons_append,
          bind_of_eq (blanks_append mem_blankChars_of_mem_newline firstVisible _),
          bind_of_eq (eat_other notClose _), if_neg Bool.false_ne_true]
      cases result with
      | none => exact bind_of_eq_none (start.trans (bind_of_eq_none here))
      | some item =>
          rw [bind_of_eq here] at start
          cases found : results.mapM id with
          | none =>
              rw [found] at rest
              exact bind_of_eq_none (start.trans (bind_of_eq_none rest))
          | some items =>
              rw [found] at rest
              exact bind_of_eq (start.trans (bind_of_eq rest))

/-- A member is read from its key and its value. -/
theorem readAs_member {read : JsonReading Json} {result : Option Json} {text : List Char}
    (reads : ReadAs read result text) (starts : StartsItem text) (key : String) :
    ReadAs (member read) (result.map (key, ·)) (writeString key ++ ':' :: ' ' :: text) := by
  intro more ends
  rcases starts with ⟨first, others, rfl, firstVisible, -⟩
  have here := reads more ends
  rw [List.cons_append] at here
  have isBlank : ∀ char ∈ [' '], char ∈ blankChars := by simp [blankChars]
  have blank : blanks (' ' :: first :: (others ++ more)) =
      some ((), first :: (others ++ more)) := blanks_append isBlank firstVisible _
  simp only [List.append_assoc, List.cons_append]
  rw [member, bind_of_eq (string_writeString key _), bind_of_eq (blanks_of_visible (by decide) _),
    bind_of_eq (token_single ':' _), bind_of_eq blank]
  cases result with
  | none => exact bind_of_eq_none here
  | some value => exact bind_of_eq here

theorem startsItem_member (key : String) (text : List Char) :
    StartsItem (writeString key ++ ':' :: ' ' :: text) :=
  ⟨'"', _, rfl, by decide, by decide⟩

end Items

section Values

open Json (writeBool)

/-- A text that is read as a number starts with a sign or a digit. -/
theorem starts_of_number {text rest : List Char} {value : Json}
    (read : number text = some (value, rest)) :
    ∃ first others, text = first :: others ∧ (first = '-' ∨ first.isDigit = true) := by
  rcases text with - | ⟨first, others⟩
  · cases read
  · refine ⟨first, others, rfl, ?_⟩
    by_contra neither
    rw [not_or] at neither
    have noSign : eat '-' (first :: others) = some (false, first :: others) :=
      eat_other neither.1 others
    have noDigits : digits (first :: others) = some ([], first :: others) := by
      simp [digits, neither.2]
    rw [number_eq, bind_of_eq noSign, bind_of_eq noDigits] at read
    cases read

/-- A number is read where a value is wanted. -/
theorem valueWith_of_number (array object : JsonReading Json) {text rest : List Char} {value : Json}
    (read : number text = some (value, rest)) :
    valueWith array object text = some (value, rest) := by
  rcases starts_of_number read with ⟨first, others, rfl, starts⟩
  have inView : view (first :: others) = some (some first, first :: others) := rfl
  rw [valueWith, bind_of_eq inView]
  refine (congrFun ?_ (first :: others)).trans read
  split
  iterate 6 next same => cases same; exact absurd starts (by decide)
  rfl

theorem number_writeNumber {value : JsonNumber}
    (exact : ∀ number ∈ (Json.number value).floats, number.IsReadBack) :
    number (Json.writeNumber value) = some (.number value, []) := by
  cases value with
  | integer value fits => exact number_writeInt value fits
  | floating value => exact exact value (List.mem_singleton_self value)

/-- No written value starts with a blank or with a mark that ends or parts items. -/
theorem startsItem_prettyAt {json : Json} (exact : ∀ number ∈ json.floats, number.IsReadBack)
    (level : Nat) : StartsItem (json.prettyAt level) := by
  cases json with
  | null => exact ⟨'n', _, rfl, by decide, by decide⟩
  | bool value => cases value <;> exact ⟨_, _, rfl, by decide, by decide⟩
  | number value =>
      rcases starts_of_number (number_writeNumber exact) with ⟨first, others, written, starts⟩
      have noMark : ∀ mark ∈ blankChars ++ [']', '}'], ¬ (mark = '-' ∨ mark.isDigit = true) := by
        simp [blankChars]
      exact ⟨first, others, written,
        fun blank => noMark first (List.mem_append_left _ blank) starts,
        fun closing => noMark first (List.mem_append_right _ closing) starts⟩
  | string value => exact ⟨'"', _, rfl, by decide, by decide⟩
  | array items => cases items <;> exact ⟨'[', _, rfl, by decide, by decide⟩
  | object members =>
      rcases members with - | ⟨⟨key, value⟩, members⟩ <;> exact ⟨'{', _, rfl, by decide, by decide⟩

/-- A value that is neither a list nor an object is read back. -/
theorem readAs_flat (array object : JsonReading Json) {json : Json} (flat : json.depth = 0)
    (exact : ∀ number ∈ json.floats, number.IsReadBack) (level : Nat) :
    ReadAs (valueWith array object) (some json) (json.prettyAt level) := by
  intro more ends
  cases json with
  | null => rfl
  | bool value => cases value <;> rfl
  | number value =>
      have read := local_number (endsNumber_of_endsItem ends) _ _ _ (number_writeNumber exact)
      exact valueWith_of_number array object read
  | string value =>
      change (string >>= fun text => pure (Json.string text)) (writeString value ++ more) = _
      exact bind_of_eq (string_writeString value more)
  | array items => cases flat
  | object members => cases flat

theorem readAs_array {array object : JsonReading Json} {result : Option Json} {text : List Char}
    (reads : ReadAs array result text) (starts : ∃ inside, text = '[' :: inside) :
    ReadAs (valueWith array object) result text := by
  rcases starts with ⟨inside, rfl⟩
  exact reads

theorem readAs_object {array object : JsonReading Json} {result : Option Json} {text : List Char}
    (reads : ReadAs object result text) (starts : ∃ inside, text = '{' :: inside) :
    ReadAs (valueWith array object) result text := by
  rcases starts with ⟨inside, rfl⟩
  exact reads

/-- A written value is read back if it does not nest too deep, and otherwise it is refused. The
induction is on the depth that is allowed, which bounds the items of a list or an object. -/
theorem readAs_prettyAt {json : Json} (exact : ∀ number ∈ json.floats, number.IsReadBack)
    (depth level : Nat) :
    ReadAs (valueIn depth) (Option.guard (·.depth ≤ depth) json) (json.prettyAt level) := by
  induction depth generalizing json level with
  | zero =>
      cases json with
      | array items => exact readAs_array (fun _ _ => rfl) (exists_spread level '[' ']' _)
      | object members => exact readAs_object (fun _ _ => rfl) (exists_spread level '{' '}' _)
      | _ => exact readAs_flat _ _ rfl exact level
  | succ depth ih =>
      cases json with
      | array items =>
          rw [Json.floats, Json.floatsOfItems_eq_flatMap, List.forall_mem_flatMap] at exact
          have each : List.Forall₂ (fun result text => ReadAs (valueIn depth) result text ∧
                StartsItem text)
              (items.map (Option.guard (·.depth ≤ depth)))
              (items.map (Json.prettyAt (level + 1))) := by
            rw [List.forall₂_map_right_iff, List.forall₂_map_left_iff, List.forall₂_same]
            intro item item_mem
            exact ⟨ih (exact item item_mem) _, startsItem_prettyAt (exact item item_mem) _⟩
          have reads := readAs_spread (.inl rfl) level '[' .array each
          rw [List.mapM_map, Function.id_comp] at reads
          rw [Json.prettyAt, Json.prettyItems_eq_map, Json.guard_depth_array]
          exact readAs_array reads (exists_spread level '[' ']' _)
      | object members =>
          rw [Json.floats, Json.floatsOfMembers_eq_flatMap, List.forall_mem_flatMap] at exact
          have each : List.Forall₂ (fun result text => ReadAs (member (valueIn depth)) result text ∧
                StartsItem text)
              (members.map fun member =>
                (Option.guard (·.depth ≤ depth) member.2).map (member.1, ·))
              (members.map fun member =>
                writeString member.1 ++ ':' :: ' ' :: member.2.prettyAt (level + 1)) := by
            rw [List.forall₂_map_right_iff, List.forall₂_map_left_iff, List.forall₂_same]
            intro member member_mem
            exact ⟨readAs_member (ih (exact member member_mem) _)
              (startsItem_prettyAt (exact member member_mem) _) _, startsItem_member _ _⟩
          have reads := readAs_spread (.inr rfl) level '{' .object each
          rw [List.mapM_map, Function.id_comp] at reads
          rw [Json.prettyAt, Json.prettyMembers_eq_map, Json.guard_depth_object]
          exact readAs_object reads (exists_spread level '{' '}' _)
      | _ => exact readAs_flat _ _ rfl exact level

end Values

end JsonReading

namespace Json

/-- A written value is read back exactly if it does not nest too deep, given that its floating point
numbers are read back. -/
theorem ofText?_prettyText {json : Json} (exact : ∀ number ∈ json.floats, number.IsReadBack) :
    ofText? json.prettyText = Option.guard (·.depth ≤ JsonReading.depthLimit) json := by
  have read := JsonReading.readAs_prettyAt exact JsonReading.depthLimit 0 [] nofun
  rw [List.append_nil] at read
  rcases JsonReading.startsItem_prettyAt exact 0 with ⟨first, others, written, visible, -⟩
  rw [written] at read
  rw [ofText?, prettyText, String.toList_ofList, parse?, written]
  simp only [JsonReading.bind_of_eq (JsonReading.blanks_of_visible visible others)]
  cases found : Option.guard (·.depth ≤ JsonReading.depthLimit) json with
  | none =>
      rw [found] at read
      rw [JsonReading.bind_of_eq_none read]
      rfl
  | some value =>
      rw [found] at read
      simp only [JsonReading.bind_of_eq read]
      rfl

end Json

end WiredGraph
