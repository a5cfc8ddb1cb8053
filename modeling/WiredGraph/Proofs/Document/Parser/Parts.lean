import WiredGraph.Document.Parser.Definition

/-!
# The parts of readings

Some readings choose between two ways and go on in the same manner after both. Here the choices
have names of their own, so that each can be treated by itself; the equations say that the readings
are made of these parts.
-/

namespace WiredGraph

namespace Reading

/-- What follows a choice follows each of its branches. -/
theorem ite_bind {Part Whole : Type} {condition : Prop} [Decidable condition]
    (first second : Reading Part)
    (next : Part → Reading Whole) :
    (if condition then first else second) >>= next =
      if condition then first >>= next else second >>= next := by
  split <;> rfl

theorem malformed_bind {Part Whole : Type} (message : String) (next : Part → Reading Whole) :
    malformed message >>= next = malformed message := rfl

/-- A sequence of two readings that succeeds has a cursor between them. -/
theorem bind_eq_ok {Part Whole : Type} {read : Reading Part} {next : Part → Reading Whole}
    {cursor last : Cursor} {whole : Whole} (found : (read >>= next) cursor = .ok (whole, last)) :
    ∃ part between, read cursor = .ok (part, between) ∧ next part between = .ok (whole, last) := by
  change (read cursor >>= fun result => next result.1 result.2) = _ at found
  cases firstRead : read cursor with
  | error halt =>
      rw [firstRead] at found
      cases found
  | ok result =>
      rw [firstRead] at found
      exact ⟨result.1, result.2, rfl, found⟩

/-- Reads an item and those that stand behind separators. -/
def itemAndSeparated {Part : Type} (separator : Punctuator) (item : Reading Part) :
    Reading (List Part) := do
  let first ← item
  let rest ← bounded (separatedUpTo separator item)
  return first :: rest

theorem separated_eq {Part : Type} (separator : Punctuator) (item : Reading Part) :
    separated separator item = (do
      discard (eat (.punctuator separator))
      itemAndSeparated separator item) := rfl

/-- Reads a type up to the exclamation mark that may follow it. -/
def typeBase (bound start : Nat) : Reading TypeExpr := do
  if ← eat (.punctuator .bracketOpen) then
    let item ← typeUpTo bound
    expect (.punctuator .bracketClose)
    return .list item (← spanFrom start)
  else
    return .named (← name)

theorem typeUpTo_succ (bound : Nat) :
    typeUpTo (bound + 1) = do
      let start ← startOffset
      let base ← typeBase bound start
      if ← eat (.punctuator .bang) then
        return .nonNull base (← spanFrom start)
      else
        return base := by
  simp only [typeUpTo, typeBase, bind_assoc, ite_bind, pure_bind]

/-- Reads the selection set of a field if a brace opens one. -/
def optionalSet (set : Reading SelectionSet) : Reading (Option SelectionSet) := do
  if (← kind) = .punctuator .braceOpen then some <$> set else pure none

/-- Reads what stands after the name of a field. -/
def fieldRest (set : Reading SelectionSet) (start : Nat) (aliasName : Option Name) (name : Name) :
    Reading Selection := do
  let arguments ← arguments
  let directives ← directives
  let set ← optionalSet set
  return .field aliasName name arguments directives set (← spanFrom start)

theorem fieldSelection_eq (set : Reading SelectionSet) :
    fieldSelection set = (do
      let start ← startOffset
      let first ← name
      if ← eat (.punctuator .colon) then
        let other ← name
        fieldRest set start (some first) other
      else
        fieldRest set start none first) := by
  simp only [fieldSelection, fieldRest, optionalSet, bind_assoc, ite_bind, pure_bind]

/-- Reads the type condition of an inline fragment if there is one. -/
def optionalCondition : Reading (Option Name) := do
  if ← eat (.keyword .on) then some <$> Reading.name else pure none

/-- Reads what stands after three points. -/
def afterSpread (set : Reading SelectionSet) (start : Nat) : Reading Selection := do
  let kind ← kind
  if kind.isName ∧ kind ≠ .keyword .on then
    let name ← Reading.name
    let directives ← Reading.directives
    return .spread name directives (← spanFrom start)
  else
    let condition ← optionalCondition
    let directives ← Reading.directives
    let set ← set
    return .inline condition directives set (← spanFrom start)

theorem selection_eq (set : Reading SelectionSet) :
    selection set = (do
      let start ← startOffset
      if ← eat (.punctuator .spread) then afterSpread set start else fieldSelection set) := by
  simp only [selection, afterSpread, optionalCondition, bind_assoc, ite_bind, pure_bind]

/-- Reads a default if there is one. -/
def optionalDefault : Reading (Option Value) := do
  if ← eat (.punctuator .equals) then some <$> value else pure none

theorem variableDefinition_eq :
    variableDefinition = (do
      let start ← startOffset
      expect (.punctuator .dollar)
      let name ← name
      expect (.punctuator .colon)
      let type ← type
      let default ← optionalDefault
      let directives ← directives
      return ⟨name, type, default, directives, ← spanFrom start⟩) := by
  simp only [variableDefinition, optionalDefault, bind_assoc, ite_bind, pure_bind]

/-- Reads the name of an operation if there is one. -/
def optionalName : Reading (Option Name) := do
  if (← kind).isName then some <$> name else pure none

theorem namedOperation_eq (operation : OperationType) :
    namedOperation operation = (do
      let start ← startOffset
      advance
      let name ← optionalName
      let variableDefinitions ← enclosedItems .parenOpen .parenClose variableDefinition
      let directives ← directives
      let set ← selectionSet
      return ⟨operation, name, variableDefinitions, directives, set, ← spanFrom start⟩) := by
  simp only [namedOperation, optionalName, bind_assoc, ite_bind, pure_bind]

/-- Reads a definition after its description. -/
def describedDefinition (description : Option Description) : Reading Definition := do
  match ← kind with
  | .keyword .schema => .schema <$> schemaDefinition description
  | .keyword .extend =>
      advance
      .extension <$> typeDefinition none
  | .keyword .directive => .directive <$> directiveDefinition description
  | .keyword .query => .operation <$> namedOperation .query
  | .keyword .mutation => .operation <$> namedOperation .mutation
  | .keyword .subscription => .operation <$> namedOperation .subscription
  | .punctuator .braceOpen => .operation <$> shorthandQuery
  | .keyword .fragment => .fragment <$> fragmentDefinition
  | kind =>
      if (typeKind? kind).isSome then .type <$> typeDefinition description
      else malformed "expected a definition"

theorem definition_eq : definition = description >>= describedDefinition := rfl

/-- Reads a root operation whose keyword is in view. -/
def rootOperationOf (start : Nat) (operation : OperationType) : Reading RootOperation := do
  advance
  expect (.punctuator .colon)
  let typeName ← name
  return ⟨operation, typeName, ← spanFrom start⟩

theorem rootOperation_eq :
    rootOperation = (do
      let start ← startOffset
      match ← kind with
      | .keyword .query => rootOperationOf start .query
      | .keyword .mutation => rootOperationOf start .mutation
      | .keyword .subscription => rootOperationOf start .subscription
      | _ => malformed "expected `query`, `mutation` or `subscription`") := by
  simp only [rootOperation, pure_bind, malformed_bind]
  rfl

/-- Reads names after an introduction, if that is in view. -/
def introduced (introduction : TokenKind) (separator : Punctuator) : Reading (List Name) := do
  if ← eat introduction then separated separator name else return []

/-- Reads the body of an object type or an interface and what stands before it. -/
def fieldsBody (body : List Name → List FieldDefinition → TypeDefinition.Body) :
    Reading (List Directive × TypeDefinition.Body) := do
  let interfaces ← introduced (.keyword .implements) .ampersand
  let directives ← directives
  let fields ← enclosedItems .braceOpen .braceClose fieldDefinition
  return (directives, body interfaces fields)

/-- Reads the body of an enum or an input type and the directives before it. -/
def bracedBody {Item : Type} (item : Reading Item) (body : List Item → TypeDefinition.Body) :
    Reading (List Directive × TypeDefinition.Body) := do
  let directives ← directives
  let items ← enclosedItems .braceOpen .braceClose item
  return (directives, body items)

theorem typeBody_eq (kind : TypeKind) :
    typeBody kind =
      match kind with
      | .object => fieldsBody .object
      | .interface => fieldsBody .interface
      | .union => do
          let directives ← directives
          let members ← introduced (.punctuator .equals) .pipe
          return (directives, .union members)
      | .enum => bracedBody enumValue .enum
      | .input => bracedBody inputValue .input
      | .scalar => do
          let directives ← directives
          return (directives, .scalar) := by
  cases kind <;> rfl

/-- Reads a fragment definition from its name on. -/
def namedFragment (start : Nat) : Reading FragmentDefinition := do
  let name ← name
  expect (.keyword .on)
  let condition ← Reading.name
  let directives ← directives
  let set ← selectionSet
  return ⟨name, condition, directives, set, ← spanFrom start⟩

theorem fragmentDefinition_eq :
    fragmentDefinition = (do
      let start ← startOffset
      expect (.keyword .fragment)
      if (← kind) = .keyword .on then malformed "fragment name cannot be `on`"
      else namedFragment start) := by
  simp only [fragmentDefinition, namedFragment, malformed_bind]

theorem inputValue_eq :
    inputValue = (do
      let description ← description
      let start ← startAfter description
      let name ← name
      expect (.punctuator .colon)
      let type ← type
      let default ← optionalDefault
      let directives ← directives
      return ⟨description, name, type, default, directives, ← spanFrom start⟩) := by
  simp only [inputValue, optionalDefault, bind_assoc, ite_bind, pure_bind]

end Reading

end WiredGraph
