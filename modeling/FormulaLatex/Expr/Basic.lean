/-! Expressions: what a formula says once its tokens have been read. -/

namespace FormulaLatex

/-- The operators between two operands. -/
inductive BinaryOperator
  | add
  | subtract
  | multiply
  | divide
  | power
  | equal
  | notEqual
  | less
  | lessEqual
  | greater
  | greaterEqual
  deriving DecidableEq, Repr

/-- How tightly an operator binds, from the loosest to the tightest. -/
inductive Precedence
  | comparison
  | additive
  | multiplicative
  | power
  deriving DecidableEq, Repr

namespace BinaryOperator

/-- The operator as it is written in a formula. -/
def symbol : BinaryOperator → String
  | .add => "+"
  | .subtract => "-"
  | .multiply => "*"
  | .divide => "/"
  | .power => "^"
  | .equal => "="
  | .notEqual => "<>"
  | .less => "<"
  | .lessEqual => "<="
  | .greater => ">"
  | .greaterEqual => ">="

/-- How tightly an operator binds. -/
def precedence : BinaryOperator → Precedence
  | .add | .subtract => .additive
  | .multiply | .divide => .multiplicative
  | .power => .power
  | .equal | .notEqual | .less | .lessEqual | .greater | .greaterEqual => .comparison

/-- Whether an operator compares its operands. -/
def isComparison (op : BinaryOperator) : Bool :=
  op.precedence == .comparison

end BinaryOperator

/-- An expression. Numbers keep the text that they were written with, and parentheses of
the formula stay as groups.
-/
inductive Expr
  | number (text : String)
  | reference (name : String)
  | binary (op : BinaryOperator) (left right : Expr)
  | negate (operand : Expr)
  | call (name : String) (arguments : List Expr)
  | group (inner : Expr)
  deriving Repr

namespace Expr

mutual

/-- The names that an expression refers to in the order in which they occur, with
repetitions.
-/
def references : Expr → List String
  | .number _ => []
  | .reference name => [name]
  | .binary _ left right => left.references ++ right.references
  | .negate operand => operand.references
  | .call _ arguments => referencesAll arguments
  | .group inner => inner.references

/-- The names that several expressions refer to, one expression after another. -/
def referencesAll : List Expr → List String
  | [] => []
  | first :: rest => first.references ++ referencesAll rest

end

/-- An expression under a number of minus signs. -/
def negateTimes : Nat → Expr → Expr
  | 0, operand => operand
  | count + 1, operand => .negate (negateTimes count operand)

end Expr

end FormulaLatex
