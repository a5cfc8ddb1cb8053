/-!
# Kinds of tokens

A document is a sequence of tokens: punctuators, literals, and names. Some names are keywords;
they are kept apart because they decide how a document goes on, but every keyword may also stand
where a name is asked for.
-/

namespace WiredGraph

/-- The words with a meaning of their own. -/
inductive Keyword where
  | type
  | interface
  | union
  | enum
  | input
  | scalar
  | schema
  | extend
  | implements
  | directive
  | repeatable
  | query
  | mutation
  | subscription
  | fragment
  | on
  | true
  | false
  | null
deriving DecidableEq, Repr

namespace Keyword

/-- All keywords. -/
def all : List Keyword :=
  [.type, .interface, .union, .enum, .input, .scalar, .schema, .extend, .implements, .directive,
    .repeatable, .query, .mutation, .subscription, .fragment, .on, .true, .false, .null]

/-- The word of a keyword. -/
def text : Keyword → String
  | .type => "type"
  | .interface => "interface"
  | .union => "union"
  | .enum => "enum"
  | .input => "input"
  | .scalar => "scalar"
  | .schema => "schema"
  | .extend => "extend"
  | .implements => "implements"
  | .directive => "directive"
  | .repeatable => "repeatable"
  | .query => "query"
  | .mutation => "mutation"
  | .subscription => "subscription"
  | .fragment => "fragment"
  | .on => "on"
  | .true => "true"
  | .false => "false"
  | .null => "null"

/-- The keyword that a word is, if it is one. -/
def ofText? (word : String) : Option Keyword := all.find? (·.text == word)

@[simp]
theorem ofText?_text (keyword : Keyword) : ofText? keyword.text = some keyword := by
  cases keyword <;> decide

end Keyword

/-- The marks between words. -/
inductive Punctuator where
  | braceOpen
  | braceClose
  | parenOpen
  | parenClose
  | bracketOpen
  | bracketClose
  | colon
  | spread
  | equals
  | pipe
  | ampersand
  | at
  | bang
  | dollar
deriving DecidableEq, Repr

namespace Punctuator

/-- The characters of a punctuator. -/
def chars : Punctuator → List Char
  | .braceOpen => ['{']
  | .braceClose => ['}']
  | .parenOpen => ['(']
  | .parenClose => [')']
  | .bracketOpen => ['[']
  | .bracketClose => [']']
  | .colon => [':']
  | .spread => ['.', '.', '.']
  | .equals => ['=']
  | .pipe => ['|']
  | .ampersand => ['&']
  | .at => ['@']
  | .bang => ['!']
  | .dollar => ['$']

/-- The punctuator that a single character is, if it is one. -/
def ofChar? : Char → Option Punctuator
  | '{' => some .braceOpen
  | '}' => some .braceClose
  | '(' => some .parenOpen
  | ')' => some .parenClose
  | '[' => some .bracketOpen
  | ']' => some .bracketClose
  | ':' => some .colon
  | '=' => some .equals
  | '|' => some .pipe
  | '&' => some .ampersand
  | '@' => some .at
  | '!' => some .bang
  | '$' => some .dollar
  | _ => none

end Punctuator

/-- What a token is. -/
inductive TokenKind where
  /-- The end of the document. -/
  | endOfInput
  /-- Characters that form no token. -/
  | invalid
  /-- A name that is no keyword. -/
  | name
  | int
  | float
  /-- Text between single quotation marks. -/
  | string
  /-- Text between triple quotation marks. -/
  | blockString
  | keyword (word : Keyword)
  | punctuator (mark : Punctuator)
deriving DecidableEq, Repr

namespace TokenKind

/-- How messages name a kind of token. -/
def text : TokenKind → String
  | .endOfInput => "<eof>"
  | .invalid => "<error>"
  | .name => "<name>"
  | .int => "<int>"
  | .float => "<float>"
  | .string => "<string>"
  | .blockString => "<block-string>"
  | .keyword word => word.text
  | .punctuator mark => String.ofList mark.chars

/-- Whether tokens of this kind are keywords. -/
def isKeyword : TokenKind → Bool
  | .keyword _ => true
  | _ => false

/-- Whether tokens of this kind may stand where a name is asked for. -/
def isName : TokenKind → Bool
  | .name => true
  | .keyword _ => true
  | _ => false

end TokenKind

end WiredGraph
