import WiredGraph.Document.Value
import WiredGraph.Literal.Block
import WiredGraph.Literal.Quoted
import WiredGraph.Source.Diagnostic
import WiredGraph.Token.Scan

/-!
# Reading tokens

A document is read from left to right with one token in view. The cursor holds the tokens that are
still ahead and the end of the last one that was passed. Reading stops at the first fault: a token
that does not fit, an invalid token as soon as it comes into view, or a block string that has no
value.

The nested parts of a document are read by recursion on a bound for the number of tokens ahead.
When the bound is zero no token is ahead, so the answer there is the one for the end of the
document.
-/

namespace WiredGraph

/-- The tokens ahead and how far reading has come. -/
structure Cursor where
  /-- The end of the last token passed. -/
  passed : Nat
  /-- The tokens not yet passed. -/
  ahead : List Token
  /-- The end of the source. -/
  finish : Nat
deriving DecidableEq, Repr

/-- Why reading stopped before the end. -/
inductive Halt where
  /-- A fault in the document, and the end of the last token passed. -/
  | fault (diagnostic : Diagnostic) (passed : Nat)
  /-- A block string that has no value. -/
  | misalignedBlock (span : Span)
deriving DecidableEq, Repr

namespace Cursor

/-- The token in view. -/
def current (cursor : Cursor) : Token :=
  cursor.ahead.head?.getD ⟨.endOfInput, "", .empty cursor.finish⟩

/-- The fault of the token in view. At the end of the document every fault has the code of an
unexpected end. -/
def halt (cursor : Cursor) (code : DiagnosticCode) (title message : String) : Halt :=
  let token := cursor.current
  let code := if token.kind = .endOfInput then .unexpectedEnd else code
  .fault ⟨.error, code, title, [⟨token.span, message⟩]⟩ cursor.passed

/-- The cursor itself, unless the token in view is invalid. -/
def check (cursor : Cursor) : Except Halt Cursor :=
  let token := cursor.current
  if token.kind = .invalid then
    if token.text.toList.head? = some '"' then
      .error (cursor.halt .unterminatedString "unterminated string" "string literal is not closed")
    else
      .error (cursor.halt .invalidSyntax "invalid token"
        s!"unexpected character sequence `{token.text}`")
  else
    .ok cursor

/-- The cursor after the token in view. -/
def next (cursor : Cursor) : Except Halt Cursor :=
  check ⟨cursor.current.span.stop, cursor.ahead.drop 1, cursor.finish⟩

end Cursor

/-- A step of reading: it moves the cursor and yields a part of the document, or it stops. -/
abbrev Reading (Part : Type) := StateT Cursor (Except Halt) Part

namespace Reading

variable {Part : Type}

/-- The token in view. -/
def current : Reading Token := fun cursor => .ok (cursor.current, cursor)

/-- The kind of the token in view. -/
def kind : Reading TokenKind := fun cursor => .ok (cursor.current.kind, cursor)

/-- The offset at which the token in view starts. -/
def startOffset : Reading Nat := fun cursor => .ok (cursor.current.span.start, cursor)

/-- The span from an offset to the end of the last token passed. -/
def spanFrom (start : Nat) : Reading Span :=
  fun cursor => .ok (⟨start, max cursor.passed start⟩, cursor)

/-- Passes the token in view. -/
def advance : Reading Unit := fun cursor => do
  let next ← cursor.next
  return ((), next)

/-- Stops because the document is malformed here. -/
def malformed (message : String) : Reading Part :=
  fun cursor => .error (cursor.halt .invalidSyntax "syntax error" message)

/-- Stops because something else was expected here. -/
def expected (wanted : String) : Reading Part := fun cursor =>
  let found := cursor.current.kind.text
  .error (cursor.halt .unexpectedToken "unexpected token" s!"expected `{wanted}`, found `{found}`")

/-- Passes the token in view if it is of a kind, and tells whether it was. -/
def eat (wanted : TokenKind) : Reading Bool := do
  if (← kind) = wanted then
    advance
    return true
  else
    return false

/-- Passes the token in view, which must be of a kind. -/
def expect (wanted : TokenKind) : Reading Unit := do
  if (← kind) = wanted then advance else expected wanted.text

/-- Reads with a bound that is the number of tokens ahead. -/
def bounded (read : Nat → Reading Part) : Reading Part :=
  fun cursor => read cursor.ahead.length cursor

/-- Reads items until a punctuator or the end of the document is in view. -/
def itemsUpTo (close : Punctuator) (item : Reading Part) : Nat → Reading (List Part)
  | 0 => return []
  | bound + 1 => do
      let kind ← kind
      if kind = .punctuator close ∨ kind = .endOfInput then
        return []
      else
        let first ← item
        let rest ← itemsUpTo close item bound
        return first :: rest

/-- Reads items up to a closing punctuator and passes that, too. -/
def itemsUntil (close : Punctuator) (item : Reading Part) : Reading (List Part) := do
  let items ← bounded (itemsUpTo close item)
  expect (.punctuator close)
  return items

/-- Reads items up to a closing punctuator and puts them together, with the span from an offset
on. -/
def spannedItems {Whole : Type} (close : Punctuator) (item : Reading Part)
    (whole : List Part → Span → Whole) (start : Nat) : Reading Whole := do
  let items ← itemsUntil close item
  return whole items (← spanFrom start)

/-- Reads items between punctuators if the opening one is in view. -/
def enclosedItems (openMark close : Punctuator) (item : Reading Part) : Reading (List Part) := do
  if ← eat (.punctuator openMark) then itemsUntil close item else return []

/-- Reads items for as long as a separator stands before another one. -/
def separatedUpTo (separator : Punctuator) (item : Reading Part) : Nat → Reading (List Part)
  | 0 => return []
  | bound + 1 => do
      if ← eat (.punctuator separator) then
        let first ← item
        let rest ← separatedUpTo separator item bound
        return first :: rest
      else
        return []

/-- Reads at least one item, with a separator between items and optionally before the first. -/
def separated (separator : Punctuator) (item : Reading Part) : Reading (List Part) := do
  discard (eat (.punctuator separator))
  let first ← item
  let rest ← bounded (separatedUpTo separator item)
  return first :: rest

/-- Reads a name. -/
def name : Reading Name := do
  let token ← current
  if token.kind.isName then
    advance
    return ⟨token.text, token.span⟩
  else
    expected "name"

/-- The text of a string token in view. -/
def quotedText (token : Token) : Reading String :=
  match Quoted.decodeToken? token.text.toList with
  | some text => return String.ofList text
  | none => malformed "invalid escape sequence in string"

/-- The text of a block string token in view. -/
def blockText (token : Token) : Reading String :=
  match BlockString.decodeToken? token.text.toList with
  | some text => return String.ofList text
  | none => fun _ => .error (.misalignedBlock token.span)

/-- Reads the description that may stand before a definition. -/
def description : Reading (Option Description) := do
  let token ← current
  match token.kind with
  | .string =>
      let text ← quotedText token
      advance
      return some ⟨text, false, token.span⟩
  | .blockString =>
      let text ← blockText token
      advance
      return some ⟨text, true, token.span⟩
  | _ => return none

/-- Where a definition starts whose description has just been read. -/
def startAfter (description : Option Description) : Reading Nat :=
  match description with
  | some description => return description.span.start
  | none => startOffset

end Reading

end WiredGraph
