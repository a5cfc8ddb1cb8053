import WiredGraph.Document.Definition
import WiredGraph.Document.Parser.Selection

/-!
# Reading definitions and documents

A document is read definition by definition. The first fault ends it, and the definitions completed
before the fault are kept; a definition is complete when the token after it is a valid one.
-/

namespace WiredGraph

namespace Reading

/-- Reads one root operation of a schema. -/
def rootOperation : Reading RootOperation := do
  let start ← startOffset
  let operation ←
    match ← kind with
    | .keyword .query => pure OperationType.query
    | .keyword .mutation => pure .mutation
    | .keyword .subscription => pure .subscription
    | _ => malformed "expected `query`, `mutation` or `subscription`"
  advance
  expect (.punctuator .colon)
  let typeName ← name
  return ⟨operation, typeName, ← spanFrom start⟩

/-- Reads a schema definition. -/
def schemaDefinition (description : Option Description) : Reading SchemaDefinition := do
  let start ← startAfter description
  expect (.keyword .schema)
  let directives ← directives
  expect (.punctuator .braceOpen)
  spannedItems .braceClose rootOperation (.mk description directives) start

/-- Reads an argument definition or a field of an input type. -/
def inputValue : Reading InputValueDefinition := do
  let description ← description
  let start ← startAfter description
  let name ← name
  expect (.punctuator .colon)
  let type ← type
  let default ← if ← eat (.punctuator .equals) then some <$> value else pure none
  let directives ← directives
  return ⟨description, name, type, default, directives, ← spanFrom start⟩

/-- Reads a field of an object type or an interface. -/
def fieldDefinition : Reading FieldDefinition := do
  let description ← description
  let start ← startAfter description
  let name ← name
  let arguments ← enclosedItems .parenOpen .parenClose inputValue
  expect (.punctuator .colon)
  let type ← type
  let directives ← directives
  return ⟨description, name, arguments, type, directives, ← spanFrom start⟩

/-- Reads a value of an enum. -/
def enumValue : Reading EnumValueDefinition := do
  let description ← description
  let start ← startAfter description
  let name ← name
  let directives ← directives
  return ⟨description, name, directives, ← spanFrom start⟩

/-- Reads the interfaces a type implements, if it says so. -/
def interfaces : Reading (List Name) := do
  if ← eat (.keyword .implements) then separated .ampersand name else return []

/-- Reads the members of a union, if there are any. -/
def members : Reading (List Name) := do
  if ← eat (.punctuator .equals) then separated .pipe name else return []

/-- The kind of type that a keyword starts a definition of. -/
def typeKind? : TokenKind → Option TypeKind
  | .keyword .type => some .object
  | .keyword .interface => some .interface
  | .keyword .union => some .union
  | .keyword .enum => some .enum
  | .keyword .input => some .input
  | .keyword .scalar => some .scalar
  | _ => none

/-- Reads what stands after the name in a definition of a kind: its directives and its body. -/
def typeBody : TypeKind → Reading (List Directive × TypeDefinition.Body)
  | .object => do
      let interfaces ← interfaces
      let directives ← directives
      let fields ← enclosedItems .braceOpen .braceClose fieldDefinition
      return (directives, .object interfaces fields)
  | .interface => do
      let interfaces ← interfaces
      let directives ← directives
      let fields ← enclosedItems .braceOpen .braceClose fieldDefinition
      return (directives, .interface interfaces fields)
  | .union => do
      let directives ← directives
      let members ← members
      return (directives, .union members)
  | .enum => do
      let directives ← directives
      let values ← enclosedItems .braceOpen .braceClose enumValue
      return (directives, .enum values)
  | .input => do
      let directives ← directives
      let fields ← enclosedItems .braceOpen .braceClose inputValue
      return (directives, .input fields)
  | .scalar => do
      let directives ← directives
      return (directives, .scalar)

/-- Reads the definition of a type or an extension, from its keyword on. -/
def typeDefinition (description : Option Description) : Reading TypeDefinition := do
  let start ← startAfter description
  match typeKind? (← kind) with
  | none => malformed "expected a type definition after `extend`"
  | some kind =>
      advance
      let name ← name
      let (directives, body) ← typeBody kind
      return ⟨description, name, directives, body, ← spanFrom start⟩

/-- Reads a directive location; only a word that is no keyword can be one. -/
def directiveLocation : Reading DirectiveLocation := do
  let token ← current
  match token.kind, DirectiveLocation.ofText? token.text with
  | .name, some location =>
      advance
      return location
  | _, _ => expected "directive location"

/-- Reads a directive definition. -/
def directiveDefinition (description : Option Description) : Reading DirectiveDefinition := do
  let start ← startAfter description
  expect (.keyword .directive)
  expect (.punctuator .at)
  let name ← name
  let arguments ← enclosedItems .parenOpen .parenClose inputValue
  let repeatable ← eat (.keyword .repeatable)
  expect (.keyword .on)
  let locations ← separated .pipe directiveLocation
  return ⟨description, name, arguments, repeatable, locations, ← spanFrom start⟩

/-- Reads a variable of an operation. -/
def variableDefinition : Reading VariableDefinition := do
  let start ← startOffset
  expect (.punctuator .dollar)
  let name ← name
  expect (.punctuator .colon)
  let type ← type
  let default ← if ← eat (.punctuator .equals) then some <$> value else pure none
  let directives ← directives
  return ⟨name, type, default, directives, ← spanFrom start⟩

/-- Reads an operation that starts with its keyword. -/
def namedOperation (operation : OperationType) : Reading OperationDefinition := do
  let start ← startOffset
  advance
  let name ← if (← kind).isName then some <$> name else pure none
  let variableDefinitions ← enclosedItems .parenOpen .parenClose variableDefinition
  let directives ← directives
  let set ← selectionSet
  return ⟨operation, name, variableDefinitions, directives, set, ← spanFrom start⟩

/-- Reads a query that is a selection set only. -/
def shorthandQuery : Reading OperationDefinition := do
  let start ← startOffset
  let set ← selectionSet
  return ⟨.query, none, [], [], set, ← spanFrom start⟩

/-- Reads a fragment definition. -/
def fragmentDefinition : Reading FragmentDefinition := do
  let start ← startOffset
  expect (.keyword .fragment)
  if (← kind) = .keyword .on then malformed "fragment name cannot be `on`"
  let name ← name
  expect (.keyword .on)
  let condition ← Reading.name
  let directives ← directives
  let set ← selectionSet
  return ⟨name, condition, directives, set, ← spanFrom start⟩

/-- Reads a definition. Any definition may have a description, but only type-system definitions
keep it. -/
def definition : Reading Definition := do
  let description ← description
  match ← kind with
  | .keyword .schema => .schema <$> schemaDefinition description
  | .keyword .extend =>
      advance
      .extension <$> typeDefinition none
  | .keyword .directive => .directive <$> directiveDefinition description
  | .keyword .query => .operation <$> namedOperation .query
  | .keyword .mutation => .operation <$> namedOperation .mutation
  | .keyword .subscription => .operation <$> namedOperation .subscription
  | .punctuator .braceOpen => .operation <$> shorthandQuery
  | .keyword .fragment => .fragment <$> fragmentDefinition
  | kind =>
      if (typeKind? kind).isSome then .type <$> typeDefinition description
      else malformed "expected a definition"

/-- Reads definitions to the end of the document, with at most so many tokens ahead: the ones
completed, and how reading ended. -/
def definitionsUpTo : Nat → Cursor → List Definition × Except Halt Cursor
  | 0, cursor => ([], .ok cursor)
  | bound + 1, cursor =>
      if cursor.current.kind = .endOfInput then
        ([], .ok cursor)
      else
        match definition cursor with
        | .error halt => ([], .error halt)
        | .ok (first, next) =>
            let (rest, outcome) := definitionsUpTo bound next
            (first :: rest, outcome)

end Reading

/-- The definitions completed before the first fault, and the fault if there is one. -/
structure ParsedDocument where
  document : Document
  fault : Option Diagnostic

namespace ParsedDocument

/-- The findings about the document. -/
def report (parsed : ParsedDocument) : Report := ⟨parsed.fault.toList⟩

end ParsedDocument

/-- A block string that has no value stands at a span. -/
structure MisalignedBlock where
  span : Span
deriving DecidableEq, Repr

namespace Document

/-- The cursor at the start of a source. -/
def startCursor (source : List Char) : Cursor :=
  ⟨0, Scan.tokens source, Utf8.length source⟩

/-- Reads the definitions of a source: the ones completed, and how reading ended. -/
def readDefinitions (source : List Char) : List Definition × Except Halt Cursor :=
  match (startCursor source).check with
  | .error halt => ([], .error halt)
  | .ok cursor => Reading.definitionsUpTo cursor.ahead.length cursor

/-- The document of a source, which starts at the first token and ends at the last one passed. -/
def parse (source : List Char) : Except MisalignedBlock ParsedDocument :=
  let start := (startCursor source).current.span.start
  match readDefinitions source with
  | (definitions, .ok cursor) => .ok ⟨⟨definitions, ⟨start, max cursor.passed start⟩⟩, none⟩
  | (definitions, .error (.fault diagnostic passed)) =>
      .ok ⟨⟨definitions, ⟨start, max passed start⟩⟩, some diagnostic⟩
  | (_, .error (.misalignedBlock span)) => .error ⟨span⟩

end Document

end WiredGraph
