/-! The choices that a conversion leaves to its caller. -/

namespace FormulaLatex

/-- The characters that may separate the whole part of a number from its fraction. -/
inductive DecimalSeparators
  | both
  | point
  | comma
  deriving DecidableEq, Repr

/-- Whether `c` may be the decimal separator of a number. Under `both`, a comma between two
digits never separates arguments.
-/
def DecimalSeparators.accepts : DecimalSeparators → Char → Bool
  | .both, c => c == '.' || c == ','
  | .point, c => c == '.'
  | .comma, c => c == ','

/-- How formula text is split into tokens: the decimal separators, and whether `=`, `<` and
`>` are operators.
-/
structure TokenizerOptions where
  decimalSeparators : DecimalSeparators := .point
  comparisons : Bool := true
  deriving DecidableEq, Repr

/-- How a chain of powers is grouped: `a^b^c` is `(a^b)^c` or `a^(b^c)`. -/
inductive PowerAssociativity
  | left
  | right
  deriving DecidableEq, Repr

/-- How tokens are read as an expression: the limit on nesting, which by default is that of
common spreadsheet applications, and the grouping of powers.
-/
structure ReaderOptions where
  maxDepth : Nat := 64
  powerAssociativity : PowerAssociativity := .left
  deriving DecidableEq, Repr

/-- The decimal separator that is written: a comma, a point, or the one that was read. -/
inductive DecimalStyle
  | comma
  | point
  | preserve
  deriving DecidableEq, Repr

/-- How an expression is written. -/
structure RenderOptions where
  decimalStyle : DecimalStyle := .comma
  deriving DecidableEq, Repr

/-- Whether a formula is read as an expression, or its text is typeset in place. -/
inductive ConversionMode
  | precise
  | quick
  deriving DecidableEq, Repr

/-- All options of a conversion. -/
structure ConvertOptions where
  tokenizer : TokenizerOptions := {}
  reader : ReaderOptions := {}
  render : RenderOptions := {}
  mode : ConversionMode := .precise
  deriving DecidableEq, Repr

end FormulaLatex
