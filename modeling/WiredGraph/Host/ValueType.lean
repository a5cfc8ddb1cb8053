import WiredGraph.Json.Decode

/-!
# Types of asked-for values

Data, variables and arguments are free-form until somebody asks for a value of a certain type. A
value of another type is refused and never converted.
-/

namespace WiredGraph

/-- The types that can be asked for. -/
inductive ValueType where
  | u32
  | i64
  | bool
  | string
  | strings
  /-- Null or an integer. -/
  | option
  | json
deriving DecidableEq, Repr

namespace ValueType

/-- The type of a name. -/
def ofText? : String → Option ValueType
  | "u32" => some .u32
  | "i64" => some .i64
  | "bool" => some .bool
  | "string" => some .string
  | "strings" => some .strings
  | "option" => some .option
  | "json" => some .json
  | _ => none

/-- The written form of a value that has the type. -/
def decode? (type : ValueType) (value : Json) : Option Json :=
  match type with
  | .u32 => value.asUInt32?.map .ofUInt32
  | .i64 => value.asInt64?.map .ofInt64
  | .bool => value.asBool?.map .bool
  | .string => value.asString?.map .string
  | .strings => (Json.asList? Json.asString? value).map .ofStrings
  | .option =>
      (Json.asOption? Json.asInt64? value).map fun held =>
        .object [("some", .ofOption .ofInt64 held)]
  | .json => some value

end ValueType

end WiredGraph
