import FormulaLatex.Expr.Basic
import FormulaLatex.Options

/-! Chains: operands with operators between them, before the operators have been ranked.
A chain becomes an expression by grouping the tightest operators first. Every rank is
grouped from the left, except that powers may be grouped from the right.
-/

namespace FormulaLatex.Expr

/-- An operand, then any number of operators with the operand that follows each. -/
structure Chain where
  first : Expr
  rest : List (BinaryOperator × Expr)
  deriving Repr

namespace Chain

/-- A chain with an operand and an operator put in front of it. -/
def cons (operand : Expr) (op : BinaryOperator) (chain : Chain) : Chain :=
  ⟨operand, (op, chain.first) :: chain.rest⟩

/-- The chain that ends in `last`, given the operands before it with the operator after
each, the latest first.
-/
def ofLinks (links : List (Expr × BinaryOperator)) (last : Expr) : Chain :=
  links.foldl (fun chain link => chain.cons link.1 link.2) ⟨last, []⟩

/-- Joins the operands around every operator of a rank, the leftmost first. -/
def groupLeft (rank : Precedence) : Expr → List (BinaryOperator × Expr) → Chain
  | first, [] => ⟨first, []⟩
  | first, (op, second) :: rest =>
      if op.precedence = rank then groupLeft rank (.binary op first second) rest
      else (groupLeft rank second rest).cons first op

/-- Joins the operands around every operator of a rank, the rightmost first. -/
def groupRight (rank : Precedence) : Expr → List (BinaryOperator × Expr) → Chain
  | first, [] => ⟨first, []⟩
  | first, (op, second) :: rest =>
      let grouped := groupRight rank second rest
      if op.precedence = rank then ⟨.binary op first grouped.first, grouped.rest⟩
      else grouped.cons first op

/-- Joins the operands around every power. -/
def groupPowers (associativity : PowerAssociativity) (chain : Chain) : Chain :=
  match associativity with
  | .left => groupLeft .power chain.first chain.rest
  | .right => groupRight .power chain.first chain.rest

/-- Joins all operands from the left, whatever the operators are. -/
def join (chain : Chain) : Expr :=
  chain.rest.foldl (fun left link => .binary link.1 left link.2) chain.first

/-- The expression that a chain stands for: powers first, then products and quotients, then
sums and differences, and comparisons last.
-/
def toExpr (associativity : PowerAssociativity) (chain : Chain) : Expr :=
  let powers := groupPowers associativity chain
  let products := groupLeft .multiplicative powers.first powers.rest
  let sums := groupLeft .additive products.first products.rest
  sums.join

end Chain

end FormulaLatex.Expr
