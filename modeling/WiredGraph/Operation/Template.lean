import WiredGraph.Operation.Metadata
import WiredGraph.Text.Blank

/-!
# Embedded operation documents

Client code embeds operation documents as tagged templates:

    /** @mDest admin */
    export const GET_USER = gql`query GetUser { user { name } }`

A template is an exported constant with an optional type, whose value is a `gql` template literal;
a documentation comment right before it may name a destination. The embedded text is a document of
its own that starts on the line of its opening mark. Interpolations in it are replaced by as many
blanks as they have bytes; the fragments they stand for have to be among the compiled documents.
-/

namespace WiredGraph

/-- An embedded document as it was found. -/
structure Template where
  constantName : String
  destination : Option String
  /-- The line on which the constant's name stands. -/
  line : Nat
  /-- The embedded text. -/
  body : String
  /-- The line on which the embedded text starts. -/
  bodyLine : Nat
deriving DecidableEq, Repr

namespace Template

/-- The line on which the rest of a text starts. -/
def lineOfRest (text rest : List Char) : Nat := text.count '\n' - rest.count '\n' + 1

/-- Text after at least one blank and all further ones. -/
def afterBlanks? (text : List Char) : Option (List Char) :=
  if text.head?.any Text.isBlank then some (Text.trimStart text) else none

/-- Whether a character may start the name of a constant. -/
def startsConstant (char : Char) : Bool := char.isAlpha || char == '_' || char == '$'

/-- Whether a character may go on with the name of a constant. -/
def continuesConstant (char : Char) : Bool := char.isAlphanum || char == '_' || char == '$'

/-- A documentation comment without its marks, and what follows it. -/
def comment? (text : List Char) : Option (List Char × List Char) := do
  let inside ← Text.dropStart? "/**".toList text
  let (content, after) ← Text.splitAround? "*/".toList inside
  some (Text.dropWhileEnd (· == '*') content, after)

/-- What follows an optional type and the equals sign. -/
def afterEquals? (text : List Char) : Option (List Char) :=
  match text with
  | ':' :: annotated =>
      if annotated.head?.any (· != '=') then
        Text.dropStart? ['='] (annotated.dropWhile (· != '='))
      else
        none
  | _ => Text.dropStart? ['='] text

/-- The pieces of the declaration of a template: what stands from the name on, and the embedded text
with what stands from it on and after it. -/
structure Declaration where
  fromName : List Char
  fromBody : List Char
  body : List Char
  after : List Char

/-- The declaration that a text starts with. -/
def declaration? (text : List Char) : Option Declaration := do
  let afterExport ← afterBlanks? (← Text.dropStart? "export".toList text)
  let fromName ← afterBlanks? (← Text.dropStart? "const".toList afterExport)
  guard (fromName.head?.any startsConstant)
  let afterName := Text.trimStart (fromName.dropWhile continuesConstant)
  let value ← afterEquals? afterName
  let tagged ← Text.dropStart? "gql".toList (Text.trimStart value)
  let fromBody ← Text.dropStart? ['\x60'] (Text.trimStart tagged)
  let (body, after) ← Text.splitAround? ['\x60'] fromBody
  some ⟨fromName, fromBody, body, after⟩

/-- The comment before a declaration and the declaration that a text starts with. -/
def documented? (text : List Char) : Option (Option (List Char) × Declaration) :=
  let withComment := do
    let (comment, after) ← comment? text
    let declaration ← declaration? (Text.trimStart after)
    some (some comment, declaration)
  match withComment with
  | some found => some found
  | none => (declaration? text).map (none, ·)

/-- The destination that a comment names: the first word after a marker that has one. -/
def destination? : List Char → Option (List Char)
  | [] => none
  | char :: rest =>
      let named := do
        let word ← afterBlanks? (← Text.dropStart? "@mDest".toList (char :: rest))
        let destination := word.takeWhile fun char => !Text.isBlank char && char != '*'
        if destination.isEmpty then none else some destination
      match named with
      | some destination => some destination
      | none => destination? rest

/-- Text with its interpolations blanked out. -/
def blankInterpolations : (inside : Bool) → List Char → List Char
  | _, [] => []
  | true, char :: rest =>
      List.replicate char.utf8Size ' ' ++ blankInterpolations (char != '}') rest
  | false, char :: rest =>
      if char = '$' ∧ rest.head? = some '{' ∧ '}' ∈ rest.drop 1 then
        ' ' :: blankInterpolations true rest
      else
        char :: blankInterpolations false rest

/-- The template that a declaration in a text makes. -/
def ofDeclaration (text : List Char) (comment : Option (List Char)) (declaration : Declaration) :
    Template where
  constantName := String.ofList (declaration.fromName.takeWhile continuesConstant)
  destination := (comment.bind destination?).map String.ofList
  line := lineOfRest text declaration.fromName
  body := String.ofList (blankInterpolations false declaration.body)
  bodyLine := lineOfRest text declaration.fromBody

/-- The templates in the rest of a text that has at most so many characters. -/
def findUpTo (text : List Char) : Nat → List Char → List Template
  | 0, _ => []
  | bound + 1, rest =>
      match documented? rest with
      | some (comment, declaration) =>
          ofDeclaration text comment declaration :: findUpTo text bound declaration.after
      | none => findUpTo text bound (rest.drop 1)

/-- The templates in a text, from left to right. -/
def findAll (text : List Char) : List Template := findUpTo text text.length text

/-- The embedded document as a source in its host file. -/
def source (template : Template) (path : String) : SourceFile :=
  ⟨path, template.body, template.bodyLine⟩

/-- The metadata of the first operation in the embedded document that can be persisted. -/
def metadata? (template : Template) : Except MisalignedBlock (Option OperationMetadata) := do
  let parsed ← Document.parse template.body.toList
  return (parsed.document.operations.findSome? OperationDefinition.identity?).map
    fun (kind, name) =>
      ⟨kind, name, template.constantName, template.destination, template.line.toUInt32⟩

end Template

/-- The operation documents of one host file, and their metadata. -/
structure EmbeddedDocuments where
  documents : List SourceFile
  metadata : List OperationMetadata

namespace EmbeddedDocuments

/-- The documents embedded in a host file. -/
def ofHostFile (path text : String) : Except MisalignedBlock EmbeddedDocuments := do
  let templates := Template.findAll text.toList
  let metadata ← templates.mapM Template.metadata?
  return ⟨templates.map (·.source path), metadata.filterMap id⟩

end EmbeddedDocuments

end WiredGraph
