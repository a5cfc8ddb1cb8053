import WiredGraph.Compile.Error
import WiredGraph.Decimal.Literal
import WiredGraph.Descriptor.Basic

/-!
# Literals in descriptors

Two things in a schema document carry literals that outlive its compilation. Default values keep
their kind: integers have to fit into a signed word of 64 bits, and objects and variables are
refused. Arguments of directives become free-form data instead, where everything has a form: names
turn into strings, and so do numbers that have no exact or finite value.
-/

namespace WiredGraph

namespace NumberLiteral

/-- The value of an integer literal, if it fits into a signed word of 64 bits. -/
def int64? (digits : String) : Option Int64 := do
  let value ← integer? digits.toList
  if -0x8000000000000000 ≤ value ∧ value ≤ 0x7fffffffffffffff then
    some (Int64.ofInt value)
  else
    none

end NumberLiteral

namespace DefaultValue

mutual

/-- The default value that a literal stands for. -/
def ofValue : Value → Except DefaultFault DefaultValue
  | .var _ => .error .var
  | .int digits _ =>
      match NumberLiteral.int64? digits with
      | some value => .ok (.int value)
      | none => .error .integerRange
  | .float digits _ =>
      match NumberLiteral.float? digits.toList with
      | some value => .ok (.float value)
      | none => .error .badFloat
  | .string text _ _ => .ok (.string text)
  | .boolean value _ => .ok (.boolean value)
  | .null _ => .ok .null
  | .enum name => .ok (.enum name.text)
  | .list items _ => do return .list (← ofValues items)
  | .object _ _ => .error .object

/-- The default values that literals stand for. -/
def ofValues : List Value → Except DefaultFault (List DefaultValue)
  | [] => .ok []
  | value :: rest => do
      let first ← ofValue value
      return first :: (← ofValues rest)

end

end DefaultValue

mutual

/-- A literal as free-form data. -/
def Value.freeForm : Value → Json
  | .var name => .string ("$" ++ name.text)
  | .int digits _ => ((NumberLiteral.int64? digits).map .ofInt64).getD (.string digits)
  | .float digits _ =>
      let number := (NumberLiteral.float? digits.toList).bind ExtendedBinary64.finite?
      (number.map fun number => .number (.floating number)).getD (.string digits)
  | .string text _ _ => .string text
  | .boolean value _ => .bool value
  | .null _ => .null
  | .enum name => .string name.text
  | .list items _ => .array (Value.freeFormEach items)
  | .object fields _ => .object (ObjectField.freeFormEach fields)

/-- Literals as free-form data. -/
def Value.freeFormEach : List Value → List Json
  | [] => []
  | value :: rest => value.freeForm :: Value.freeFormEach rest

/-- Fields of an object as members of free-form data. -/
def ObjectField.freeFormEach : List ObjectField → List (String × Json)
  | [] => []
  | .mk name value _ :: rest => (name.text, value.freeForm) :: ObjectField.freeFormEach rest

end

namespace DirectiveInvocation

/-- The invocation that a directive in a document stands for. -/
def ofDirective (directive : Directive) : DirectiveInvocation where
  name := directive.name.text
  arguments := .ofList (directive.arguments.map fun argument =>
    (argument.name.text, .ofJson argument.value.freeForm))

end DirectiveInvocation

end WiredGraph
