import FormulaLatex.Expr.Reading
import FormulaLatex.Latex.Render
import FormulaLatex.Quick.Convert

/-! Conversion of a formula into LaTeX. Errors come back as values, or as notation in place of
the formula's own.
-/

namespace FormulaLatex

/-- The expression of a list of tokens in which every character must have a meaning. A
character without one is reported before anything else.
-/
def Expr.ofKnownTokens (tokens : List Token) (options : ReaderOptions := {})
    : Except FormulaError Expr :=
  match Token.firstUnknown? tokens with
  | some c => .error (.invalidCharacter c)
  | none => (Expr.ofTokens tokens options).mapError .malformed

/-- The expression that a formula writes. -/
def Expr.ofFormula (formula : String) : Except FormulaError Expr :=
  Expr.ofKnownTokens (tokenize formula)

/-- The LaTeX of a formula, or what is wrong with it. A formula without any token has empty
notation, and quick conversion never fails.
-/
def tryConvert (formula : String) (renames : RenameTable) (options : ConvertOptions := {})
    : Except FormulaError String :=
  match options.mode with
  | .quick => .ok (Quick.convert formula)
  | .precise =>
      let tokens := tokenize formula options.tokenizer
      if tokens.isEmpty then .ok ""
      else (Expr.ofKnownTokens tokens options.reader).map (·.toLatex renames options.render)

namespace Latex

/-- The notation of a character that has no meaning in a formula. -/
def invalidCharacter (c : Char) : String :=
  textCommand ("Invalid character: " ++ escapeText (String.singleton c))

/-- The notation of a syntax error with a given report. -/
def syntaxError (message : String) : String :=
  textCommand ("Error: " ++ escapeText message)

end Latex

/-- The notation of an error. -/
def FormulaError.toLatex : FormulaError → String
  | .invalidCharacter c => Latex.invalidCharacter c
  | .malformed cause => Latex.syntaxError cause.message

/-- The LaTeX of a formula, or the notation of what is wrong with it. -/
def convert (formula : String) (renames : RenameTable) (options : ConvertOptions := {})
    : String :=
  match tryConvert formula renames options with
  | .ok latex => latex
  | .error error => error.toLatex

end FormulaLatex
