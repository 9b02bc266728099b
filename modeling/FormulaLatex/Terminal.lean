import FormulaLatex.Expr.Basic
import FormulaLatex.Token.Basic

/-! Terminals: tokens as the grammar of expressions sees them. A comparison that is written
with two characters arrives as two tokens and is one terminal, if nothing stands between the
two. It matters only here where tokens stand.
-/

namespace FormulaLatex

/-- The part that a terminal plays in an expression. A `stray` can play none. -/
inductive Role
  | number
  | reference
  | function
  | opening
  | closing
  | separator
  | operator (op : BinaryOperator)
  | stray
  deriving DecidableEq, Repr

/-- A terminal: its role, and the text of the token that it begins with. -/
structure Terminal where
  role : Role
  text : String
  deriving DecidableEq, Repr

/-- The operator that one operator token writes, if any. -/
def BinaryOperator.ofText? : String → Option BinaryOperator
  | "+" => some .add
  | "-" => some .subtract
  | "*" => some .multiply
  | "/" => some .divide
  | "^" => some .power
  | "=" => some .equal
  | "<" => some .less
  | ">" => some .greater
  | _ => none

/-- The comparison that two operator tokens write together, if any. -/
def BinaryOperator.ofTexts? : String → String → Option BinaryOperator
  | "<", "=" => some .lessEqual
  | "<", ">" => some .notEqual
  | ">", "=" => some .greaterEqual
  | _, _ => none

/-- The comparison that a token writes together with the token after it, if any. -/
def Token.fuse? (token next : Token) : Option BinaryOperator :=
  if token.kind = .operator ∧ next.kind = .operator ∧ token.adjoins next then
    BinaryOperator.ofTexts? token.text next.text
  else none

/-- The role of a token by itself. -/
def Token.role (token : Token) : Role :=
  match token.kind with
  | .number => .number
  | .reference => .reference
  | .function => .function
  | .opening => .opening
  | .closing => .closing
  | .separator => .separator
  | .operator => (BinaryOperator.ofText? token.text).elim .stray .operator
  | .unknown => .stray

namespace Terminal

/-- The terminal that a token is by itself. -/
def ofToken (token : Token) : Terminal :=
  ⟨token.role, token.text⟩

/-- The terminals of a list of tokens, where two tokens that write one comparison become one
terminal. The leftmost pair is taken first.
-/
def fuseAll : List Token → List Terminal
  | [] => []
  | [token] => [ofToken token]
  | token :: next :: rest =>
      match token.fuse? next with
      | some op => ⟨.operator op, token.text⟩ :: fuseAll rest
      | none => ofToken token :: fuseAll (next :: rest)

/-- The terminals of a list of tokens. Tokens with no meaning in a formula are left out. -/
def ofTokens (tokens : List Token) : List Terminal :=
  fuseAll (tokens.filter fun token => token.kind != .unknown)

end Terminal

end FormulaLatex
