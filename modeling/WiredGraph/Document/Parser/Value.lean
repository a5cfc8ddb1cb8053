import WiredGraph.Document.Parser.Cursor

/-!
# Reading types, values and directives

Types nest in lists, and values in lists and objects. Both are read by recursion on a bound for
the number of tokens ahead.
-/

namespace WiredGraph

namespace Reading

/-- Reads a type, with at most so many tokens ahead. -/
def typeUpTo : Nat → Reading TypeExpr
  | 0 => expected "name"
  | bound + 1 => do
      let start ← startOffset
      let base ←
        if ← eat (.punctuator .bracketOpen) then
          let item ← typeUpTo bound
          expect (.punctuator .bracketClose)
          pure (TypeExpr.list item (← spanFrom start))
        else
          pure (TypeExpr.named (← name))
      if ← eat (.punctuator .bang) then
        return .nonNull base (← spanFrom start)
      else
        return base

/-- Reads a type. -/
def type : Reading TypeExpr := bounded typeUpTo

/-- Reads a field of an object value, given how to read its value. -/
def objectField (value : Reading Value) : Reading ObjectField := do
  let start ← startOffset
  let name ← name
  expect (.punctuator .colon)
  let value ← value
  return .mk name value (← spanFrom start)

/-- Reads a value, with at most so many tokens ahead. -/
def valueUpTo : Nat → Reading Value
  | 0 => expected "value"
  | bound + 1 => do
      let token ← current
      match token.kind with
      | .punctuator .dollar =>
          advance
          return .var (← name)
      | .int =>
          advance
          return .int token.text token.span
      | .float =>
          advance
          return .float token.text token.span
      | .string =>
          let text ← quotedText token
          advance
          return .string text false token.span
      | .blockString =>
          let text ← blockText token
          advance
          return .string text true token.span
      | .keyword .true =>
          advance
          return .boolean true token.span
      | .keyword .false =>
          advance
          return .boolean false token.span
      | .keyword .null =>
          advance
          return .null token.span
      | .punctuator .bracketOpen =>
          advance
          spannedItems .bracketClose (valueUpTo bound) .list token.span.start
      | .punctuator .braceOpen =>
          advance
          spannedItems .braceClose (objectField (valueUpTo bound)) .object token.span.start
      | kind => if kind.isName then return .enum (← name) else expected "value"

/-- Reads a value. -/
def value : Reading Value := bounded valueUpTo

/-- Reads an argument of a field or a directive. -/
def argument : Reading Argument := do
  let start ← startOffset
  let name ← name
  expect (.punctuator .colon)
  let value ← value
  return ⟨name, value, ← spanFrom start⟩

/-- Reads arguments if there are any. -/
def arguments : Reading (List Argument) := enclosedItems .parenOpen .parenClose argument

/-- Reads directives for as long as one is in view. -/
def directivesUpTo : Nat → Reading (List Directive)
  | 0 => return []
  | bound + 1 => do
      let start ← startOffset
      if ← eat (.punctuator .at) then
        let name ← name
        let arguments ← arguments
        let directive : Directive := ⟨name, arguments, ← spanFrom start⟩
        let rest ← directivesUpTo bound
        return directive :: rest
      else
        return []

/-- Reads the directives that stand here. -/
def directives : Reading (List Directive) := bounded directivesUpTo

end Reading

end WiredGraph
