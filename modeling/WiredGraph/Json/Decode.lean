import WiredGraph.Json.Basic
import WiredGraph.OrderedMap

/-!
# Decoding JSON

Data is read from JSON strictly: a value of the wrong kind is refused and nothing is converted,
except that an integer is taken where a floating point number is asked for. A record is an object,
or a list of its fields in the declared order. In an object unknown keys are ignored and a declared
key may stand only once; in a list fields may be missing at the end, but there may be none too
many. Whether a missing field has a default is decided by who reads it.

A variant of a tagged type is a record that has one more field, `kind`, with the variant's name; in
a list the name stands first.
-/

namespace WiredGraph

namespace Json

variable {Item : Type}

/-- The text of a string. -/
def asString? : Json → Option String
  | .string text => some text
  | _ => none

/-- The value of a truth value. -/
def asBool? : Json → Option Bool
  | .bool value => some value
  | _ => none

/-- The value of an integer. -/
def asInt? : Json → Option Int
  | .number (.integer value _) => some value
  | _ => none

/-- The value of an integer that fits into a signed word of 64 bits. -/
def asInt64? (value : Json) : Option Int64 := do
  let integer ← value.asInt?
  if -0x8000000000000000 ≤ integer ∧ integer ≤ 0x7fffffffffffffff then
    some (Int64.ofInt integer)
  else
    none

/-- The value of an integer that fits into an unsigned word of 32 bits. -/
def asUInt32? (value : Json) : Option UInt32 := do
  let integer ← value.asInt?
  if 0 ≤ integer ∧ integer ≤ 0xffffffff then some (UInt32.ofNat integer.toNat) else none

/-- The value of a number as a floating point number; integers are rounded. -/
def asBinary64? : Json → Option Binary64
  | .number (.integer value _) => Binary64.ofRatio? (value < 0) value.natAbs 1
  | .number (.floating value) => some value
  | _ => none

/-- The items of a list, each decoded. -/
def asList? (item? : Json → Option Item) : Json → Option (List Item)
  | .array items => items.mapM item?
  | _ => none

/-- The entries of an object, each decoded; of several with one key the first gives the place and
the last the value. -/
def asMap? (item? : Json → Option Item) : Json → Option (OrderedMap String Item)
  | .object members => do
      let entries ← members.mapM fun (key, value) => (item? value).map (key, ·)
      some (.ofList entries)
  | _ => none

/-- Nothing for null, and otherwise the decoded value. -/
def asOption? (item? : Json → Option Item) : Json → Option (Option Item)
  | .null => some none
  | value => (item? value).map some

/-- The value that members give a key, if they give it at most one. -/
def uniqueMember? (members : List (String × Json)) (key : String) : Option (Option Json) :=
  match members.filter (·.1 == key) with
  | [] => some none
  | [(_, value)] => some (some value)
  | _ => none

/-- The fields of a record with their values as far as they are given. -/
def fields? (names : List String) : Json → Option (List (Option Json))
  | .object members => names.mapM (uniqueMember? members)
  | .array items =>
      if items.length ≤ names.length then
        some (items.map some ++ List.replicate (names.length - items.length) none)
      else
        none
  | _ => none

/-- A field that must be given. -/
def required? (item? : Json → Option Item) (field : Option Json) : Option Item := field.bind item?

/-- A field that has a default. -/
def defaulted? (item? : Json → Option Item) (default : Item) : Option Json → Option Item
  | some value => item? value
  | none => some default

/-- A field that may be missing. -/
def optional? (item? : Json → Option Item) : Option Json → Option (Option Item) :=
  defaulted? (asOption? item?) none

/-- The name of the variant of a tagged value, and the record of its fields. -/
def variant? : Json → Option (String × Json)
  | .object members => do
      let tag ← (← uniqueMember? members "kind").bind asString?
      some (tag, .object (members.filter (·.1 != "kind")))
  | .array (tag :: fields) => do some (← tag.asString?, .array fields)
  | _ => none

/-- The name of a variant without fields: a string, or an object whose only member has that name and
no value. -/
def variantName? : Json → Option String
  | .string name => some name
  | .object [(name, .null)] => some name
  | _ => none

end Json

end WiredGraph
