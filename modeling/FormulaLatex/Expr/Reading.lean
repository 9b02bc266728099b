import FormulaLatex.Error
import FormulaLatex.Expr.Chain
import FormulaLatex.Terminal
import FormulaLatex.Text.UpperCase

/-! Reading an expression from its terminals, one after another and without going back.

A reading holds what has been read of every bracket that is still open: the operands so far,
and the minus signs in front of the operand that is due. A terminal either continues the
innermost bracket, opens or closes one, or is refused. Brackets, minus signs and, when powers
are grouped from the right, powers take an operand one level deeper; the limit on depth is
checked when an operand is due, before it is looked at.
-/

namespace FormulaLatex.Expr

/-- What precedes an operand inside its bracket: the operands before it with the operator
after each, the latest first, and the minus signs right in front of it.
-/
structure Pending where
  links : List (Expr × BinaryOperator) := []
  negations : Nat := 0
  deriving Repr

/-- What an opening parenthesis begins: a group, or the arguments of a function, of which
those already read are kept, the latest first.
-/
inductive Bracket
  | group
  | call (name : String) (arguments : List Expr)
  deriving Repr

/-- A bracket that is still open, and what preceded it in the bracket around it. -/
structure Enclosure where
  pending : Pending
  bracket : Bracket
  deriving Repr

/-- What a reading waits for. -/
inductive Phase
  /-- An operand is due. -/
  | operand
  /-- The arguments of a function have just begun: an operand, or their end. -/
  | argument
  /-- The name of a function has been read: its opening parenthesis. -/
  | opening (function : String)
  /-- An operand has been read: whatever may follow it. -/
  | continuation (operand : Expr)
  deriving Repr

/-- The state of reading: the open brackets, the innermost first, what precedes the operand
at hand, and what is waited for.
-/
structure Reading where
  enclosures : List Enclosure := []
  pending : Pending := {}
  phase : Phase := .operand
  deriving Repr

/-- How much deeper than its bracket an operand lies: a level for each minus sign in front of
it and, when powers are grouped from the right, one for each power of the run before it.
-/
def Pending.depth (associativity : PowerAssociativity) (pending : Pending) : Nat :=
  pending.negations +
    match associativity with
    | .left => 0
    | .right => (pending.links.takeWhile fun link => link.2 == .power).length

/-- The depth at which the operands of the innermost open bracket begin. -/
def Enclosure.innerDepth (associativity : PowerAssociativity) : List Enclosure → Nat
  | [] => 0
  | enclosure :: outer =>
      enclosure.pending.depth associativity + 1 + innerDepth associativity outer

namespace Reading

/-- The depth at which the next operand would lie. -/
def depth (associativity : PowerAssociativity) (reading : Reading) : Nat :=
  reading.pending.depth associativity + Enclosure.innerDepth associativity reading.enclosures

/-- The reading itself, if the next operand lies within the limit. -/
def withinDepth (options : ReaderOptions) (reading : Reading) : Except SyntaxError Reading :=
  if reading.depth options.powerAssociativity < options.maxDepth then .ok reading
  else .error (.tooDeep options.maxDepth)

/-- The reading after an operand, which takes the minus signs in front of it. -/
def complete (reading : Reading) (operand : Expr) : Reading :=
  { reading with
    pending := { reading.pending with negations := 0 }
    phase := .continuation (negateTimes reading.pending.negations operand) }

/-- The reading after a bracket has been opened at the place of an operand. -/
def enter (reading : Reading) (bracket : Bracket) (phase : Phase) : Reading :=
  ⟨⟨reading.pending, bracket⟩ :: reading.enclosures, {}, phase⟩

/-- The reading after a bracket has been closed, which makes it an operand. -/
def leave (outer : List Enclosure) (pending : Pending) (operand : Expr) : Reading :=
  complete ⟨outer, pending, .operand⟩ operand

/-- The expression of the innermost bracket, given its last operand. -/
def expression (options : ReaderOptions) (reading : Reading) (operand : Expr) : Expr :=
  (Chain.ofLinks reading.pending.links operand).toExpr options.powerAssociativity

/-- The reading after a terminal that begins an operand, or adds a minus sign to it. -/
def begin (reading : Reading) (terminal : Terminal) : Except SyntaxError Reading :=
  match terminal.role with
  | .number => .ok (reading.complete (.number terminal.text))
  | .reference => .ok (reading.complete (.reference terminal.text))
  | .function => .ok { reading with phase := .opening terminal.text }
  | .opening => .ok (reading.enter .group .operand)
  | .operator .subtract =>
      .ok { reading with
        pending := { reading.pending with negations := reading.pending.negations + 1 }
        phase := .operand }
  | _ => .error (.unexpectedToken terminal.text)

/-- Why a terminal cannot follow an operand in the innermost bracket. -/
def refusal (reading : Reading) (terminal : Terminal) : SyntaxError :=
  match reading.enclosures with
  | [] => .unexpectedToken terminal.text
  | ⟨_, .group⟩ :: _ => .unclosedGroup
  | ⟨_, .call name _⟩ :: _ => .unclosedCall name

/-- The reading after a terminal that follows an operand. -/
def extend (options : ReaderOptions) (reading : Reading) (operand : Expr)
    (terminal : Terminal)
    : Except SyntaxError Reading :=
  match terminal.role, reading.enclosures with
  | .operator op, enclosures =>
      .ok ⟨enclosures, ⟨(operand, op) :: reading.pending.links, 0⟩, .operand⟩
  | .closing, ⟨pending, .group⟩ :: outer =>
      .ok (leave outer pending (.group (reading.expression options operand)))
  | .closing, ⟨pending, .call name arguments⟩ :: outer =>
      let arguments := reading.expression options operand :: arguments
      .ok (leave outer pending (.call (Text.upperCase name) arguments.reverse))
  | .separator, ⟨pending, .call name arguments⟩ :: outer =>
      let arguments := reading.expression options operand :: arguments
      .ok ⟨⟨pending, .call name arguments⟩ :: outer, {}, .operand⟩
  | _, _ => .error (reading.refusal terminal)

/-- The reading after one more terminal. -/
def step (options : ReaderOptions) (reading : Reading) (terminal : Terminal)
    : Except SyntaxError Reading :=
  match reading.phase, reading.enclosures, terminal.role with
  | .argument, ⟨pending, .call name _⟩ :: outer, .closing =>
      .ok (leave outer pending (.call (Text.upperCase name) []))
  | .operand, _, _ | .argument, _, _ => do
      (← reading.withinDepth options).begin terminal
  | .opening function, _, .opening => .ok (reading.enter (.call function []) .argument)
  | .opening function, _, _ => .error (.missingOpening function)
  | .continuation operand, _, _ => reading.extend options operand terminal

/-- The expression that has been read when the terminals end. -/
def finish (options : ReaderOptions) (reading : Reading) : Except SyntaxError Expr :=
  match reading.phase, reading.enclosures with
  | .operand, _ | .argument, _ => do
      let _ ← reading.withinDepth options
      .error .unexpectedEnd
  | .opening function, _ => .error (.missingOpening function)
  | .continuation operand, [] => .ok (reading.expression options operand)
  | .continuation _, ⟨_, .group⟩ :: _ => .error .unclosedGroup
  | .continuation _, ⟨_, .call name _⟩ :: _ => .error (.unclosedCall name)

end Reading

/-- The expression that a list of terminals writes. -/
def ofTerminals (terminals : List Terminal) (options : ReaderOptions := {})
    : Except SyntaxError Expr := do
  (← terminals.foldlM (Reading.step options) {}).finish options

/-- The expression that a list of tokens writes. Tokens with no meaning in a formula are
left out.
-/
def ofTokens (tokens : List Token) (options : ReaderOptions := {})
    : Except SyntaxError Expr :=
  ofTerminals (Terminal.ofTokens tokens) options

end FormulaLatex.Expr
