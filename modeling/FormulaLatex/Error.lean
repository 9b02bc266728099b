/-! What can be wrong with a formula, and how it is reported. -/

namespace FormulaLatex

/-- Why a list of tokens is no expression. -/
inductive SyntaxError
  /-- The tokens end where an operand must follow. -/
  | unexpectedEnd
  /-- A token stands where it cannot. -/
  | unexpectedToken (text : String)
  /-- No opening parenthesis follows the name of a function. -/
  | missingOpening (function : String)
  /-- A group ends without a closing parenthesis. -/
  | unclosedGroup
  /-- The arguments of a function end without a closing parenthesis. -/
  | unclosedCall (function : String)
  /-- An operand lies deeper than the limit allows. -/
  | tooDeep (limit : Nat)
  deriving DecidableEq, Repr

/-- The report of a syntax error. -/
def SyntaxError.message : SyntaxError → String
  | .unexpectedEnd => "Unexpected end of formula"
  | .unexpectedToken text => "Unexpected token: " ++ text
  | .missingOpening function => "Expected '(' after " ++ function
  | .unclosedGroup => "Expected ')' to close '('"
  | .unclosedCall function => "Expected ')' after arguments of " ++ function
  | .tooDeep limit => "Maximum nesting depth of " ++ Nat.repr limit ++ " exceeded"

/-- Why a formula cannot be converted. -/
inductive FormulaError
  /-- A character has no meaning in a formula. -/
  | invalidCharacter (c : Char)
  /-- The tokens are no expression. -/
  | malformed (cause : SyntaxError)
  deriving DecidableEq, Repr

/-- The report of a formula error. -/
def FormulaError.message : FormulaError → String
  | .invalidCharacter c => "Invalid character: " ++ String.singleton c
  | .malformed cause => cause.message

end FormulaLatex
