import FormulaLatex.Token.Lexeme

/-! The tokens of a formula, and the names of the cells that it refers to. -/

namespace FormulaLatex

/-- The lexemes of a formula. One equals sign at its very beginning only says that it is a
formula and belongs to no lexeme.
-/
def Lexeme.ofFormula (options : TokenizerOptions) (formula : String) : List Lexeme :=
  match formula.toList with
  | '=' :: rest => Lexeme.ofText options ('='.utf8Size) rest
  | text => Lexeme.ofText options 0 text

/-- The tokens of a formula. -/
def tokenize (formula : String) (options : TokenizerOptions := {}) : List Token :=
  (Lexeme.ofFormula options formula).map Lexeme.token

/-- An ascending list of names with `name` added at its place, unless it is there already. -/
def insertName (name : String) : List String → List String
  | [] => [name]
  | head :: rest =>
      if name < head then name :: head :: rest
      else if name = head then head :: rest
      else head :: insertName name rest

/-- The names of a list in ascending order, each once. -/
def sortNames (names : List String) : List String :=
  names.foldr insertName []

/-- The texts of the reference tokens of a list, in order. -/
def Token.references (tokens : List Token) : List String :=
  (tokens.filter fun token => token.kind == .reference).map Token.text

/-- The names of the cells that a formula refers to, in ascending order, each once. -/
def detectReferences (formula : String) (options : TokenizerOptions := {}) : List String :=
  sortNames (Token.references (tokenize formula options))

end FormulaLatex
