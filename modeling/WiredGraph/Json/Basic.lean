import WiredGraph.Decimal.Binary64

/-!
# JSON values

Artifacts and free-form data are JSON. A number is an integer that fits into 64 bits, signed or
unsigned, or a floating point number; the two never compare equal. The members of an object keep
the order of the text they were read from, and a key may stand in it twice. Free-form data is kept
in the canonical form instead, where the keys of every object are strictly sorted.
-/

namespace WiredGraph

/-- A JSON number. -/
inductive JsonNumber where
  | integer (value : Int) (fits : -0x8000000000000000 ≤ value ∧ value ≤ 0xffffffffffffffff)
  | floating (value : Binary64)
deriving DecidableEq, Repr

/-- A JSON value. -/
inductive Json where
  | null
  | bool (value : Bool)
  | number (value : JsonNumber)
  | string (value : String)
  | array (items : List Json)
  | object (members : List (String × Json))
deriving Inhabited, Repr

namespace Json

/-- The integer as a JSON number, if it fits. -/
def ofInt? (value : Int) : Option Json :=
  if fits : -0x8000000000000000 ≤ value ∧ value ≤ 0xffffffffffffffff then
    some (.number (.integer value fits))
  else
    none

/-- The JSON number of a count; one that does not fit into 64 bits is cut down to the largest. -/
def ofNat (value : Nat) : Json :=
  .number (.integer (min value 0xffffffffffffffff : Nat) (by omega))

/-- A list of strings. -/
def ofStrings (items : List String) : Json := .array (items.map .string)

/-- The written form of something that may be missing; null stands for nothing. -/
def ofOption {Item : Type} (encode : Item → Json) : Option Item → Json
  | some item => encode item
  | none => .null

/-- The JSON number of an unsigned word. -/
def ofUInt32 (value : UInt32) : Json :=
  .number (.integer value.toNat (by have := value.toNat_lt; omega))

/-- The JSON number of a signed word. -/
def ofInt64 (value : Int64) : Json :=
  .number (.integer value.toInt (by have := value.toInt_lt; have := value.le_toInt; omega))

/-- The value that a list of members gives a key last. -/
def lastMember? (members : List (String × Json)) (key : String) : Option Json :=
  (members.reverse.find? (·.1 == key)).map (·.2)

/-- The value of a member of an object. -/
def member? (key : String) : Json → Option Json
  | .object members => lastMember? members key
  | _ => none

/-- Puts a member among members with sorted keys; an equal key is overwritten. -/
def insertSorted (key : String) (value : Json) : List (String × Json) → List (String × Json)
  | [] => [(key, value)]
  | (other, held) :: rest =>
      if key < other then (key, value) :: (other, held) :: rest
      else if key = other then (key, value) :: rest
      else (other, held) :: insertSorted key value rest

/-- Members sorted by key; of several with one key the last one stays. -/
def sortMembers (members : List (String × Json)) : List (String × Json) :=
  members.foldl (fun sorted member => insertSorted member.1 member.2 sorted) []

mutual

/-- The canonical form of a value: the keys of all objects are sorted and distinct. -/
def canonical : Json → Json
  | .null => .null
  | .bool value => .bool value
  | .number value => .number value
  | .string value => .string value
  | .array items => .array (canonicalItems items)
  | .object members => .object (sortMembers (canonicalMembers members))

/-- The canonical forms of values. -/
def canonicalItems : List Json → List Json
  | [] => []
  | item :: rest => item.canonical :: canonicalItems rest

/-- Members with the canonical forms of their values. -/
def canonicalMembers : List (String × Json) → List (String × Json)
  | [] => []
  | (key, value) :: rest => (key, value.canonical) :: canonicalMembers rest

end

end Json

end WiredGraph
