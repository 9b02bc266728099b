import FormulaLatex.Options
import FormulaLatex.Text.Blank
import FormulaLatex.Text.Numeric
import FormulaLatex.Text.UpperCase
import FormulaLatex.Token.Basic

/-! Lexemes: the stretches of formula text that tokens stand for. A text is a sequence of
lexemes with white space around them. Each lexeme is the longest of its class at its place,
and every character that is not white space belongs to one, so reading never fails.
-/

namespace FormulaLatex

open Text

/-- A stretch of formula text that makes up one token: its class, where it begins in bytes,
and its characters, of which there is at least one.
-/
structure Lexeme where
  kind : TokenKind
  offset : Nat
  first : Char
  more : List Char
  deriving DecidableEq, Repr

namespace Lexeme

/-- The characters of a lexeme as they stand in the formula. -/
def span (lexeme : Lexeme) : List Char :=
  lexeme.first :: lexeme.more

/-- Whether a name may begin with `c`. A dollar sign marks a reference as absolute. -/
def beginsName (c : Char) : Bool :=
  isAlphabetic c || c == '$'

/-- Whether a name may go on with `c`. -/
def continuesName (c : Char) : Bool :=
  isAlphanumeric c || c == '_' || c == '$'

/-- The characters of a number after its first digit: the digits that follow, then a decimal
separator and more digits, where the separator needs a digit right after it.
-/
def numberTail (separators : DecimalSeparators) (text : List Char) : List Char :=
  text.takeWhile Char.isDigit ++
    match text.dropWhile Char.isDigit with
    | separator :: digit :: rest =>
        if separators.accepts separator && digit.isDigit then
          separator :: digit :: rest.takeWhile Char.isDigit
        else []
    | _ => []

/-- The upper-case form of a name without its dollar signs. -/
def canonicalName (span : List Char) : String :=
  upperCase (String.ofList (span.filter fun c => c != '$'))

/-- Whether an opening parenthesis comes next, white space aside. -/
def callFollows (text : List Char) : Bool :=
  (trimStart text).head? == some '('

/-- The kind of a name, given the text after it. Dollar signs alone are no name. -/
def nameKind (span rest : List Char) : TokenKind :=
  if (canonicalName span).isEmpty then .unknown
  else if callFollows rest then .function
  else .reference

/-- The kind of a character that is a lexeme by itself. -/
def characterKind (comparisons : Bool) (c : Char) : TokenKind :=
  if c ∈ ['+', '-', '*', '/', '^'] then .operator
  else if c ∈ ['=', '<', '>'] then (if comparisons then .operator else .unknown)
  else if c == '(' then .opening
  else if c == ')' then .closing
  else if c ∈ [',', ';'] then .separator
  else .unknown

/-- The lexeme that begins with `c`, which is not white space, and goes on in `rest`. -/
def next (options : TokenizerOptions) (offset : Nat) (c : Char) (rest : List Char) : Lexeme :=
  if c.isDigit then ⟨.number, offset, c, numberTail options.decimalSeparators rest⟩
  else if beginsName c then
    let more := rest.takeWhile continuesName
    ⟨nameKind (c :: more) (rest.dropWhile continuesName), offset, c, more⟩
  else ⟨characterKind options.comparisons c, offset, c, []⟩

/-- The text that the token of a lexeme carries: a comma for either separator of arguments,
the canonical form of a name, one dollar sign for any run of them, and otherwise the
characters themselves.
-/
def text (lexeme : Lexeme) : String :=
  match lexeme.kind with
  | .separator => ","
  | .reference | .function => canonicalName lexeme.span
  | .unknown => String.singleton lexeme.first
  | _ => String.ofList lexeme.span

/-- The token that a lexeme stands for. -/
def token (lexeme : Lexeme) : Token :=
  ⟨lexeme.kind, lexeme.text, lexeme.offset⟩

/-- The number of bytes that a text takes in UTF-8. -/
def byteLength : List Char → Nat
  | [] => 0
  | c :: rest => c.utf8Size + byteLength rest

/-- The lexemes of a text that begins at `offset`. -/
def ofText (options : TokenizerOptions) (offset : Nat) : List Char → List Lexeme
  | [] => []
  | c :: rest =>
      if isBlank c then ofText options (offset + c.utf8Size) rest
      else
        let lexeme := next options offset c rest
        lexeme :: ofText options (offset + byteLength lexeme.span)
          (rest.drop lexeme.more.length)
termination_by text => text.length
decreasing_by
  · simp
  · simp only [List.length_drop, List.length_cons]
    omega

end Lexeme

end FormulaLatex
