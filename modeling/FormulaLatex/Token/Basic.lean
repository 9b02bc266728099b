/-! Tokens: the smallest meaningful pieces of a formula. -/

namespace FormulaLatex

/-- What a piece of formula text is. A name is a `function` when an opening parenthesis
follows it and a `reference` otherwise; a character with no meaning in a formula is
`unknown`.
-/
inductive TokenKind
  | number
  | reference
  | operator
  | function
  | opening
  | closing
  | separator
  | unknown
  deriving DecidableEq, Repr

/-- The kind as it is written in a listing of tokens. -/
def TokenKind.name : TokenKind → String
  | .number => "NUMBER"
  | .reference => "CELL_REFERENCE"
  | .operator => "OPERATOR"
  | .function => "FUNCTION_NAME"
  | .opening => "PAREN_OPEN"
  | .closing => "PAREN_CLOSE"
  | .separator => "ARGUMENT_SEPARATOR"
  | .unknown => "UNKNOWN"

/-- Every kind. -/
def TokenKind.all : List TokenKind :=
  [.number, .reference, .operator, .function, .opening, .closing, .separator, .unknown]

/-- The kind with a given name, if there is one. -/
def TokenKind.ofName? (name : String) : Option TokenKind :=
  TokenKind.all.find? fun kind => kind.name == name

/-- A token: its kind, the text that it carries, and the offset in bytes at which it begins
in the UTF-8 form of the formula.
-/
structure Token where
  kind : TokenKind
  text : String
  offset : Nat := 0
  deriving DecidableEq, Repr

namespace Token

/-- Whether two tokens say the same, wherever they stand: kind and text agree. -/
def sameContent (token other : Token) : Bool :=
  token.kind == other.kind && token.text == other.text

/-- Whether `next` begins at the offset at which the text of `token` ends. -/
def adjoins (token next : Token) : Bool :=
  token.offset + token.text.utf8ByteSize == next.offset

/-- The first character of the first token that has no meaning in a formula, if any. -/
def firstUnknown? (tokens : List Token) : Option Char :=
  (tokens.find? fun token => token.kind == .unknown).bind fun token => token.text.toList.head?

end Token

end FormulaLatex
