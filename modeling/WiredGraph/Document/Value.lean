import WiredGraph.Source.Span

/-!
# Names, types and values of documents

These are the parts that all definitions share. Every node knows the span it was read from;
numbers keep the digits they were written with, and strings are kept decoded.
-/

namespace WiredGraph

/-- A name and where it stands. -/
structure Name where
  text : String
  span : Span
deriving DecidableEq, Repr

/-- A type as it is written. -/
inductive TypeExpr where
  | named (name : Name)
  | list (item : TypeExpr) (span : Span)
  | nonNull (inner : TypeExpr) (span : Span)
deriving DecidableEq, Repr

namespace TypeExpr

/-- Where the type stands. -/
def span : TypeExpr → Span
  | .named name => name.span
  | .list _ span => span
  | .nonNull _ span => span

/-- The name inside all lists. -/
def innermost : TypeExpr → Name
  | .named name => name
  | .list item _ => item.innermost
  | .nonNull inner _ => inner.innermost

end TypeExpr

mutual

/-- A literal or a variable. -/
inductive Value where
  | var (name : Name)
  | int (digits : String) (span : Span)
  | float (digits : String) (span : Span)
  | string (text : String) (block : Bool) (span : Span)
  | boolean (value : Bool) (span : Span)
  | null (span : Span)
  | enum (name : Name)
  | list (items : List Value) (span : Span)
  | object (fields : List ObjectField) (span : Span)

/-- A named value inside an object. -/
inductive ObjectField where
  | mk (name : Name) (value : Value) (span : Span)

end

namespace Value

/-- Where the value stands; the span of a variable is that of its name. -/
def span : Value → Span
  | .var name => name.span
  | .int _ span => span
  | .float _ span => span
  | .string _ _ span => span
  | .boolean _ span => span
  | .null span => span
  | .enum name => name.span
  | .list _ span => span
  | .object _ span => span

/-- The text of a string. -/
def string? : Value → Option String
  | .string text _ _ => some text
  | _ => none

end Value

/-- A named value given to a field or a directive. -/
structure Argument where
  name : Name
  value : Value
  span : Span

/-- The use of a directive. -/
structure Directive where
  name : Name
  arguments : List Argument
  span : Span

/-- The text in front of a definition that says what it is for. -/
structure Description where
  text : String
  /-- Whether it was written as a block string. -/
  block : Bool
  span : Span
deriving DecidableEq, Repr

end WiredGraph
