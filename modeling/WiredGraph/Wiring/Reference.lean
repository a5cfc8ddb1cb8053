import WiredGraph.Descriptor.Callable
import WiredGraph.Text.Ascii
import WiredGraph.Text.Blank
import WiredGraph.Text.Cut

/-!
# References in wiring directives

A reference is written `Class::method` for a static method, `Class::class` for a constructor, and
`Di->service` for a member of the service locator, where `Di` and `class` stand for tokens that can
be chosen. Blanks around the parts and call parentheses at the end are allowed, and the last
separator may be either one.
-/

namespace WiredGraph

/-- The tokens that give references their meaning. -/
structure ReferenceTokens where
  locator : String
  constructorMarker : String
deriving DecidableEq, Repr

namespace ReferenceTokens

/-- The tokens that are used when none are chosen. -/
def standard : ReferenceTokens := ⟨"Di", "class"⟩

end ReferenceTokens

/-- Why a text is no reference. -/
inductive ReferenceFault where
  | noSeparator
  | emptySegment (position : Nat)
  | badMethod (name : String)
  | nestedLocator
  | instanceAccess (locator : String)
  | badClass (name : String)
deriving DecidableEq, Repr

namespace ReferenceFault

/-- The wording of the reason. -/
def reason : ReferenceFault → String
  | .noSeparator => "expected a `::` or `->` separator"
  | .emptySegment position => s!"segment {position} is empty"
  | .badMethod name => s!"`{name}` is not a valid method name"
  | .nestedLocator => "nested service locator access is not supported"
  | .instanceAccess locator => s!"instance access is only allowed on `{locator}`"
  | .badClass name => s!"`{name}` is not a valid class name"

end ReferenceFault

namespace Reference

/-- What stands between the segments of a reference. -/
inductive Separator where
  | colons
  | arrow
deriving DecidableEq, Repr

/-- A text cut at every separator: the first segment, and each further one with the separator
before it. -/
def segments : List Char → List Char × List (Separator × List Char)
  | [] => ([], [])
  | ':' :: ':' :: rest =>
      let (first, further) := segments rest
      ([], (.colons, first) :: further)
  | '-' :: '>' :: rest =>
      let (first, further) := segments rest
      ([], (.arrow, first) :: further)
  | char :: rest =>
      let (first, further) := segments rest
      (char :: first, further)

/-- A text without the call parentheses at its end and the blanks before and inside them. -/
def withoutCall (text : List Char) : List Char :=
  match (Text.dropEnd? [')'] text).bind fun inner => Text.dropEnd? ['('] (Text.trimEnd inner) with
  | some callee => Text.trimEnd callee
  | none => text

/-- Whether a text is identifiers with backslashes between them, and at most one in front. -/
def isClassName (text : List Char) : Bool :=
  let name := (Text.dropStart? ['\\'] text).getD text
  name != [] && (Text.splitOn '\\' name).all Ascii.isIdentifier

/-- The callable that separated segments refer to. -/
def ofSegments (tokens : ReferenceTokens) (first : String)
    (further : List (Separator × String)) : Except ReferenceFault CallableRef := do
  let texts := first :: further.map Prod.snd
  let some (_, method) := further.getLast? | throw .noSeparator
  if let some position := texts.findIdx? (·.isEmpty) then
    throw (.emptySegment (position + 1))
  unless Ascii.isIdentifier method.toList do
    throw (.badMethod method)
  if first = tokens.locator then
    if 1 < further.length then
      throw .nestedLocator
    return .service method
  if further.dropLast.any (·.1 = .arrow) then
    throw (.instanceAccess tokens.locator)
  if let some bad := texts.dropLast.find? (!isClassName ·.toList) then
    throw (.badClass bad)
  let className := String.intercalate "::" texts.dropLast
  if method = tokens.constructorMarker then
    return .constructor className
  return .staticMethod className method

/-- The callable that a text refers to. -/
def parse (tokens : ReferenceTokens) (text : String) : Except ReferenceFault CallableRef :=
  let (first, further) := segments (withoutCall (Text.trim text.toList))
  let trimmed (segment : List Char) : String := String.ofList (Text.trim segment)
  ofSegments tokens (trimmed first) (further.map fun (separator, segment) =>
    (separator, trimmed segment))

/-- The text of a reference in its shortest form. -/
def render (tokens : ReferenceTokens) : CallableRef → String
  | .service name => tokens.locator ++ "->" ++ name
  | .constructor className => className ++ "::" ++ tokens.constructorMarker
  | .staticMethod className method => className ++ "::" ++ method

end Reference

end WiredGraph
