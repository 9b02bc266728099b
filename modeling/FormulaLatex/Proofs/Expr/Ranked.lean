import FormulaLatex.Expr.Reading

/-! The shape, the depth and the terminals of an expression. An expression that comes from
reading is ranked: every operator binds what the grammar lets it bind. Its terminals, in
order, are what was read, up to the case of function names.
-/

namespace FormulaLatex

/-- What the grammar of expressions derives: a chain of operands with operators of one rank
between them, or a primary, which is an operand by itself.
-/
inductive Category
  | chain (rank : Precedence)
  | primary
  deriving DecidableEq, Repr

/-- The category of the operands that operators of a rank stand between. -/
def Precedence.operand : Precedence → Category
  | .comparison => .chain .additive
  | .additive => .chain .multiplicative
  | .multiplicative => .chain .power
  | .power => .primary

theorem BinaryOperator.eq_power_of_precedence {op : BinaryOperator}
    (sort : op.precedence = .power)
    : op = .power := by
  cases op <;> first | rfl | cases sort

namespace Terminal

def ofOperator (op : BinaryOperator) : Terminal :=
  ⟨.operator op, op.symbol⟩

def opening : Terminal :=
  ⟨.opening, "("⟩

def closing : Terminal :=
  ⟨.closing, ")"⟩

def separator : Terminal :=
  ⟨.separator, ","⟩

/-- What an expression keeps of a terminal: the text of a number or a reference, the name of
a function in upper case, and which operator or bracket it is.
-/
def canonical (terminal : Terminal) : Terminal :=
  match terminal.role with
  | .number | .reference | .stray => terminal
  | .function => ⟨.function, Text.upperCase terminal.text⟩
  | .opening => opening
  | .closing => closing
  | .separator => separator
  | .operator op => ofOperator op

@[simp]
theorem canonical_role (terminal : Terminal) : terminal.canonical.role = terminal.role := by
  unfold canonical
  split <;> simp_all [opening, closing, separator, ofOperator]

end Terminal

namespace Expr

/-- Induction over expressions, where what is to be shown may be assumed of every argument. -/
@[elab_as_elim]
theorem inductionOn {motive : Expr → Prop} (e : Expr)
    (number : ∀ text, motive (.number text))
    (reference : ∀ name, motive (.reference name))
    (binary : ∀ op left right, motive left → motive right → motive (.binary op left right))
    (negate : ∀ operand, motive operand → motive (.negate operand))
    (call : ∀ name arguments, (∀ argument ∈ arguments, motive argument)
      → motive (.call name arguments))
    (group : ∀ inner, motive inner → motive (.group inner))
    : motive e :=
  @Expr.rec motive (fun es => ∀ e ∈ es, motive e) number reference binary negate call group
    (fun _ member => absurd member List.not_mem_nil)
    (fun _ _ first rest => List.forall_mem_cons.mpr ⟨first, rest⟩) e

mutual

/-- The terminals that an expression was read from, in order and in canonical form. -/
def terminals : Expr → List Terminal
  | .number text => [⟨.number, text⟩]
  | .reference name => [⟨.reference, name⟩]
  | .binary op left right => left.terminals ++ .ofOperator op :: right.terminals
  | .negate operand => .ofOperator .subtract :: operand.terminals
  | .call name arguments =>
      ⟨.function, name⟩ :: .opening :: (argumentTerminals arguments ++ [.closing])
  | .group inner => .opening :: (inner.terminals ++ [.closing])

def argumentTerminals : List Expr → List Terminal
  | [] => []
  | first :: rest => first.terminals ++ furtherTerminals rest

/-- The terminals of the arguments that follow another one, each after its separator. -/
def furtherTerminals : List Expr → List Terminal
  | [] => []
  | first :: rest => .separator :: (first.terminals ++ furtherTerminals rest)

end

theorem furtherTerminals_eq_flatMap (es : List Expr)
    : furtherTerminals es = es.flatMap fun e => .separator :: e.terminals := by
  induction es with
  | nil => rfl
  | cons first rest ih => rw [furtherTerminals, ih, List.flatMap_cons, List.cons_append]

theorem terminals_negateTimes (count : Nat) (operand : Expr)
    : (negateTimes count operand).terminals
        = List.replicate count (.ofOperator .subtract) ++ operand.terminals := by
  induction count with
  | zero => rfl
  | succ count ih => simp [negateTimes, terminals, ih, List.replicate_succ]

theorem negateTimes_negate (count : Nat) (operand : Expr)
    : negateTimes count (.negate operand) = negateTimes (count + 1) operand := by
  induction count with
  | zero => rfl
  | succ count ih => exact congrArg Expr.negate ih

def exponentCost : PowerAssociativity → BinaryOperator → Nat
  | .right, .power => 1
  | _, _ => 0

mutual

/-- How deep an expression is nested. Every node but a binary one is a primary and lies one
level deeper than the expression that holds it; when powers are grouped from the right, an
exponent lies one level deeper still.
-/
def depth (associativity : PowerAssociativity) : Expr → Nat
  | .number _ | .reference _ => 1
  | .binary op left right =>
      max (left.depth associativity)
        (exponentCost associativity op + right.depth associativity)
  | .negate operand => operand.depth associativity + 1
  | .call _ arguments => argumentDepth associativity arguments + 1
  | .group inner => inner.depth associativity + 1

def argumentDepth (associativity : PowerAssociativity) : List Expr → Nat
  | [] => 0
  | first :: rest =>
      max (first.depth associativity) (argumentDepth associativity rest)

end

theorem depth_negateTimes (associativity : PowerAssociativity) (count : Nat) (operand : Expr)
    : (negateTimes count operand).depth associativity
        = operand.depth associativity + count := by
  induction count with
  | zero => rfl
  | succ count ih => simp only [negateTimes, depth, ih, Nat.add_assoc]

theorem argumentDepth_le_iff {associativity : PowerAssociativity} {arguments : List Expr}
    {bound : Nat}
    : argumentDepth associativity arguments ≤ bound
        ↔ ∀ argument ∈ arguments, argument.depth associativity ≤ bound := by
  induction arguments with
  | nil => simp [argumentDepth]
  | cons first rest ih =>
      simp only [argumentDepth, Nat.max_le, ih, List.forall_mem_cons]

/-- An expression is of a category: its operators bind as the grammar says. Every chain leans
to the left, except that powers lean to the right when they are grouped from there.
-/
inductive Ranked (associativity : PowerAssociativity) : Category → Expr → Prop
  | operand {rank e} (ranked : Ranked associativity rank.operand e)
    : Ranked associativity (.chain rank) e
  | left {rank op l r} (sort : op.precedence = rank)
    (grouping : rank = .power → associativity = .left)
    (leftRanked : Ranked associativity (.chain rank) l)
    (rightRanked : Ranked associativity rank.operand r)
    : Ranked associativity (.chain rank) (.binary op l r)
  | right {l r} (grouping : associativity = .right)
    (leftRanked : Ranked associativity .primary l)
    (rightRanked : Ranked associativity (.chain .power) r)
    : Ranked associativity (.chain .power) (.binary .power l r)
  | number {text} : Ranked associativity .primary (.number text)
  | reference {name} : Ranked associativity .primary (.reference name)
  | negate {e} (ranked : Ranked associativity .primary e)
    : Ranked associativity .primary (.negate e)
  | call {name arguments}
    (ranked : ∀ argument ∈ arguments, Ranked associativity (.chain .comparison) argument)
    : Ranked associativity .primary (.call name arguments)
  | group {e} (ranked : Ranked associativity (.chain .comparison) e)
    : Ranked associativity .primary (.group e)

theorem Ranked.negateTimes {associativity : PowerAssociativity} {e : Expr}
    (ranked : Ranked associativity .primary e) (count : Nat)
    : Ranked associativity .primary (Expr.negateTimes count e) := by
  induction count with
  | zero => exact ranked
  | succ count ih => exact ih.negate

/-- A primary is of every category. -/
theorem Ranked.ofPrimary {associativity : PowerAssociativity} {e : Expr}
    (ranked : Ranked associativity .primary e) (rank : Precedence)
    : Ranked associativity (.chain rank) e := by
  have power : Ranked associativity (.chain .power) e := .operand ranked
  have product : Ranked associativity (.chain .multiplicative) e := .operand power
  have sum : Ranked associativity (.chain .additive) e := .operand product
  cases rank with
  | comparison => exact .operand sum
  | additive => exact sum
  | multiplicative => exact product
  | power => exact power

end Expr

end FormulaLatex
