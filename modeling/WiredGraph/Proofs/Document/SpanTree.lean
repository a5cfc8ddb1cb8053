import WiredGraph.Document.Definition
import WiredGraph.Proofs.Source.Boundaries

/-!
# The places of documents in their sources

Every part of a document knows the span it was read from. Seen by its spans alone, a document is a
tree: each node covers a span, some nodes keep the text that stands there, and the nodes below it
stand in a fixed order. A node is in place if its span lies in the source, if the text it keeps is
the one that stands there, and if the nodes below it stand inside of it one after the other.
-/

namespace WiredGraph

/-- A node of a document: its span, the text that it keeps of it, and the nodes below it in the
order of the source. -/
inductive SpanTree where
  | node (span : Span) (text : Option String) (children : List SpanTree)

namespace SpanTree

/-- Where the node stands. -/
def span : SpanTree → Span
  | .node span _ _ => span

/-- The text under the span, if the node keeps it. -/
def text : SpanTree → Option String
  | .node _ text _ => text

/-- The nodes right below a node. -/
def children : SpanTree → List SpanTree
  | .node _ _ children => children

mutual

/-- A node and all the nodes below it. -/
def nodes : SpanTree → List SpanTree
  | .node span text children => .node span text children :: nodesOf children

/-- The nodes of trees. -/
def nodesOf : List SpanTree → List SpanTree
  | [] => []
  | tree :: rest => tree.nodes ++ nodesOf rest

end

theorem mem_nodesOf {node : SpanTree} {trees : List SpanTree} :
    node ∈ nodesOf trees ↔ ∃ tree ∈ trees, node ∈ tree.nodes := by
  induction trees with
  | nil => simp [nodesOf]
  | cons tree rest ih => simp [nodesOf, ih]

theorem forall_mem_nodes {holds : SpanTree → Prop} {span : Span} {text : Option String}
    {children : List SpanTree} :
    (∀ node ∈ (SpanTree.node span text children).nodes, holds node) ↔
      holds (.node span text children) ∧ ∀ child ∈ children, ∀ node ∈ child.nodes, holds node := by
  rw [nodes, List.forall_mem_cons]
  refine and_congr_right fun _ => ⟨?_, ?_⟩
  · intro each child child_mem node node_mem
    exact each node (mem_nodesOf.mpr ⟨child, child_mem, node_mem⟩)
  · intro each node node_mem
    rcases mem_nodesOf.mp node_mem with ⟨child, child_mem, node_mem⟩
    exact each child child_mem node node_mem

/-- A node stands in a source where its span says, around the nodes below it. -/
structure InPlace (source : List Char) (node : SpanTree) : Prop where
  start_le_stop : node.span.start ≤ node.span.stop
  stop_le_length : node.span.stop ≤ Utf8.length source
  start_boundary : Utf8.Boundary source node.span.start
  stop_boundary : Utf8.Boundary source node.span.stop
  text : ∀ text ∈ node.text, node.span.slice source = text.toList
  inside : ∀ child ∈ node.children,
    node.span.start ≤ child.span.start ∧ child.span.stop ≤ node.span.stop
  inOrder : node.children.Pairwise fun first second => first.span.stop ≤ second.span.start

end SpanTree

/-- A name is a node without others below it. -/
def Name.spanTree (name : Name) : SpanTree := .node name.span (some name.text) []

/-- A description is a node without others below it. -/
def Description.spanTree (description : Description) : SpanTree := .node description.span none []

/-- A list or a type of values that are always there stands around another type. -/
def TypeExpr.spanTree : TypeExpr → SpanTree
  | .named name => name.spanTree
  | .list item span => .node span none [item.spanTree]
  | .nonNull inner span => .node span none [inner.spanTree]

mutual

/-- Numbers keep the digits they were written with. -/
def Value.spanTree : Value → SpanTree
  | .var name | .enum name => name.spanTree
  | .int digits span | .float digits span => .node span (some digits) []
  | .string _ _ span | .boolean _ span | .null span => .node span none []
  | .list items span => .node span none (Value.spanTrees items)
  | .object fields span => .node span none (ObjectField.spanTrees fields)

/-- The trees of values. -/
def Value.spanTrees : List Value → List SpanTree
  | [] => []
  | value :: rest => value.spanTree :: Value.spanTrees rest

/-- A field of an object value stands around its name and its value. -/
def ObjectField.spanTree : ObjectField → SpanTree
  | .mk name value span => .node span none [name.spanTree, value.spanTree]

/-- The trees of fields of an object value. -/
def ObjectField.spanTrees : List ObjectField → List SpanTree
  | [] => []
  | field :: rest => field.spanTree :: ObjectField.spanTrees rest

end

theorem Value.spanTrees_eq_map (values : List Value) :
    Value.spanTrees values = values.map Value.spanTree := by
  induction values with
  | nil => rfl
  | cons value rest ih => rw [Value.spanTrees, ih, List.map_cons]

theorem ObjectField.spanTrees_eq_map (fields : List ObjectField) :
    ObjectField.spanTrees fields = fields.map ObjectField.spanTree := by
  induction fields with
  | nil => rfl
  | cons field rest ih => rw [ObjectField.spanTrees, ih, List.map_cons]

/-- An argument stands around its name and its value. -/
def Argument.spanTree (argument : Argument) : SpanTree :=
  .node argument.span none [argument.name.spanTree, argument.value.spanTree]

/-- A directive stands around its name and its arguments. -/
def Directive.spanTree (directive : Directive) : SpanTree :=
  .node directive.span none
    ([directive.name.spanTree] ++ directive.arguments.map Argument.spanTree)

mutual

/-- A selection stands around its names, arguments and directives and the set it may have. -/
def Selection.spanTree : Selection → SpanTree
  | .field aliasName name arguments directives set span =>
      .node span none
        (aliasName.toList.map Name.spanTree ++ [name.spanTree] ++
          arguments.map Argument.spanTree ++ directives.map Directive.spanTree ++
          (match set with
            | some set => [set.spanTree]
            | none => []))
  | .spread name directives span =>
      .node span none ([name.spanTree] ++ directives.map Directive.spanTree)
  | .inline condition directives set span =>
      .node span none
        (condition.toList.map Name.spanTree ++ directives.map Directive.spanTree ++
          [set.spanTree])

/-- A selection set stands around its selections. -/
def SelectionSet.spanTree : SelectionSet → SpanTree
  | .mk selections span => .node span none (Selection.spanTrees selections)

/-- The trees of selections. -/
def Selection.spanTrees : List Selection → List SpanTree
  | [] => []
  | selection :: rest => selection.spanTree :: Selection.spanTrees rest

end

theorem Selection.spanTrees_eq_map (selections : List Selection) :
    Selection.spanTrees selections = selections.map Selection.spanTree := by
  induction selections with
  | nil => rfl
  | cons selection rest ih => rw [Selection.spanTrees, ih, List.map_cons]

/-- A root operation stands around the name of its type. -/
def RootOperation.spanTree (root : RootOperation) : SpanTree :=
  .node root.span none [root.typeName.spanTree]

/-- A schema definition stands around its description, its directives and its root operations. -/
def SchemaDefinition.spanTree (definition : SchemaDefinition) : SpanTree :=
  .node definition.span none
    (definition.description.toList.map Description.spanTree ++
      definition.directives.map Directive.spanTree ++
      definition.operations.map RootOperation.spanTree)

/-- An argument definition or a field of an input type stands around its parts, from its description
to its directives. -/
def InputValueDefinition.spanTree (definition : InputValueDefinition) : SpanTree :=
  .node definition.span none
    (definition.description.toList.map Description.spanTree ++ [definition.name.spanTree] ++
      [definition.type.spanTree] ++ definition.default.toList.map Value.spanTree ++
      definition.directives.map Directive.spanTree)

/-- A field definition stands around its parts, from its description to its directives. -/
def FieldDefinition.spanTree (definition : FieldDefinition) : SpanTree :=
  .node definition.span none
    (definition.description.toList.map Description.spanTree ++ [definition.name.spanTree] ++
      definition.arguments.map InputValueDefinition.spanTree ++ [definition.type.spanTree] ++
      definition.directives.map Directive.spanTree)

/-- A value of an enum stands around its description, its name and its directives. -/
def EnumValueDefinition.spanTree (definition : EnumValueDefinition) : SpanTree :=
  .node definition.span none
    (definition.description.toList.map Description.spanTree ++ [definition.name.spanTree] ++
      definition.directives.map Directive.spanTree)

/-- What stands after the name of a type. The interfaces stand before the directives and the rest
of the body behind them. -/
def TypeDefinition.Body.spanTrees (directives : List Directive) :
    TypeDefinition.Body → List SpanTree
  | .object interfaces fields | .interface interfaces fields =>
      interfaces.map Name.spanTree ++ directives.map Directive.spanTree ++
        fields.map FieldDefinition.spanTree
  | .union members => directives.map Directive.spanTree ++ members.map Name.spanTree
  | .enum values =>
      directives.map Directive.spanTree ++ values.map EnumValueDefinition.spanTree
  | .input fields =>
      directives.map Directive.spanTree ++ fields.map InputValueDefinition.spanTree
  | .scalar => directives.map Directive.spanTree

/-- A type definition stands around its description, its name and what follows that. -/
def TypeDefinition.spanTree (definition : TypeDefinition) : SpanTree :=
  .node definition.span none
    (definition.description.toList.map Description.spanTree ++ [definition.name.spanTree] ++
      definition.body.spanTrees definition.directives)

/-- Directive locations have no spans. -/
def DirectiveDefinition.spanTree (definition : DirectiveDefinition) : SpanTree :=
  .node definition.span none
    (definition.description.toList.map Description.spanTree ++ [definition.name.spanTree] ++
      definition.arguments.map InputValueDefinition.spanTree)

/-- A variable of an operation stands around its name, its type, its default and its directives. -/
def VariableDefinition.spanTree (definition : VariableDefinition) : SpanTree :=
  .node definition.span none
    ([definition.name.spanTree] ++ [definition.type.spanTree] ++
      definition.default.toList.map Value.spanTree ++
      definition.directives.map Directive.spanTree)

/-- An operation stands around its name, its variables, its directives and its set. -/
def OperationDefinition.spanTree (definition : OperationDefinition) : SpanTree :=
  .node definition.span none
    (definition.name.toList.map Name.spanTree ++
      definition.variableDefinitions.map VariableDefinition.spanTree ++
      definition.directives.map Directive.spanTree ++ [definition.set.spanTree])

/-- A fragment definition stands around its name, its condition, its directives and its set. -/
def FragmentDefinition.spanTree (definition : FragmentDefinition) : SpanTree :=
  .node definition.span none
    ([definition.name.spanTree] ++ [definition.condition.spanTree] ++
      definition.directives.map Directive.spanTree ++ [definition.set.spanTree])

/-- The tree of a definition of any kind. -/
def Definition.spanTree : Definition → SpanTree
  | .schema definition => definition.spanTree
  | .type definition | .extension definition => definition.spanTree
  | .directive definition => definition.spanTree
  | .operation definition => definition.spanTree
  | .fragment definition => definition.spanTree

/-- A document stands around its definitions. -/
def Document.spanTree (document : Document) : SpanTree :=
  .node document.span none (document.definitions.map Definition.spanTree)

end WiredGraph
