import FormulaLatex.Expr.Basic
import FormulaLatex.Latex.CallStyle
import FormulaLatex.Options
import FormulaLatex.RenameTable.Basic

/-! Writing an expression in LaTeX. -/

namespace FormulaLatex

namespace Latex

/-- A number with the decimal separator of a style. -/
def number (style : DecimalStyle) (text : String) : String :=
  match style with
  | .comma => String.ofList (text.toList.map fun c => if c = '.' then ',' else c)
  | .point => String.ofList (text.toList.map fun c => if c = ',' then '.' else c)
  | .preserve => text

/-- A sign between two operands, with a space on either side. -/
def spaced (left sign right : String) : String :=
  left ++ " " ++ sign ++ " " ++ right

/-- Two operands joined by an operator. -/
def binary (op : BinaryOperator) (left right : String) : String :=
  match op with
  | .divide => "\\frac" ++ braced left ++ braced right
  | .power => braced left ++ "^" ++ braced right
  | .multiply => spaced left "\\cdot" right
  | .lessEqual => spaced left "\\leq" right
  | .greaterEqual => spaced left "\\geq" right
  | .notEqual => spaced left "\\neq" right
  | .add | .subtract | .equal | .less | .greater => spaced left op.symbol right

/-- An expression in parentheses that grow with it. -/
def parenthesized (inner : String) : String :=
  "\\left(" ++ inner ++ "\\right)"

end Latex

namespace Expr

mutual

/-- An expression in LaTeX, where a table gives the symbols of references. -/
def toLatex (renames : RenameTable) (options : RenderOptions) : Expr → String
  | .number text => Latex.number options.decimalStyle text
  | .reference name => renames.resolve name
  | .binary op left right =>
      Latex.binary op (left.toLatex renames options) (right.toLatex renames options)
  | .negate operand => "-" ++ operand.toLatex renames options
  | .call name arguments => Latex.call name (toLatexAll renames options arguments)
  | .group inner => Latex.parenthesized (inner.toLatex renames options)

/-- Several expressions in LaTeX. -/
def toLatexAll (renames : RenameTable) (options : RenderOptions) : List Expr → List String
  | [] => []
  | first :: rest => first.toLatex renames options :: toLatexAll renames options rest

end

end Expr

end FormulaLatex
