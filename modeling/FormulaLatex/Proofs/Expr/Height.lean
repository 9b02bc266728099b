import FormulaLatex.Proofs.Expr.Completeness
import FormulaLatex.Proofs.Expr.Grammar
import FormulaLatex.Token.OfFormula

/-! The height of expressions. The limit on depth counts the operands around a part of an
expression, but not the operators of a chain, and each operator of a chain may lie below
another one. So the height is bounded by the limit together with the longest chain, and not by
the limit alone.
-/

namespace FormulaLatex.Expr

mutual

/-- The number of nodes on the longest way down an expression, and so how deep a function goes
that calls itself on every part.
-/
def height : Expr → Nat
  | .number _ | .reference _ => 1
  | .binary _ left right => max left.height right.height + 1
  | .negate operand => operand.height + 1
  | .call _ arguments => argumentHeight arguments + 1
  | .group inner => inner.height + 1

def argumentHeight : List Expr → Nat
  | [] => 0
  | first :: rest => max first.height (argumentHeight rest)

end

/-- The number of operators in the chain that an expression is: those that stand in no bracket
and under no minus sign.
-/
def chainLength : Expr → Nat
  | .binary _ left right => left.chainLength + right.chainLength + 1
  | _ => 0

mutual

/-- The number of operators in the longest chain of an expression, in brackets or outside. -/
def longestChain : Expr → Nat
  | .number _ | .reference _ => 0
  | .binary _ left right =>
      max (left.chainLength + right.chainLength + 1) (max left.longestChain right.longestChain)
  | .negate operand => operand.longestChain
  | .call _ arguments => longestArgumentChain arguments
  | .group inner => inner.longestChain

def longestArgumentChain : List Expr → Nat
  | [] => 0
  | first :: rest => max first.longestChain (longestArgumentChain rest)

end

theorem argumentHeight_le_iff {arguments : List Expr} {bound : Nat}
    : argumentHeight arguments ≤ bound ↔ ∀ argument ∈ arguments, argument.height ≤ bound := by
  induction arguments with
  | nil => simp [argumentHeight]
  | cons first rest ih => simp only [argumentHeight, Nat.max_le, ih, List.forall_mem_cons]

theorem longestArgumentChain_le_iff {arguments : List Expr} {bound : Nat}
    : longestArgumentChain arguments ≤ bound
        ↔ ∀ argument ∈ arguments, argument.longestChain ≤ bound := by
  induction arguments with
  | nil => simp [longestArgumentChain]
  | cons first rest ih => simp only [longestArgumentChain, Nat.max_le, ih, List.forall_mem_cons]

theorem chainLength_le_longestChain (e : Expr) : e.chainLength ≤ e.longestChain := by
  cases e with
  | binary op left right => exact Nat.le_max_left _ _
  | _ => exact Nat.zero_le _

theorem depth_pos (associativity : PowerAssociativity) (e : Expr)
    : 0 < e.depth associativity := by
  induction e using inductionOn with
  | binary op left right leftIh _ => exact Nat.lt_of_lt_of_le leftIh (Nat.le_max_left _ _)
  | _ => exact Nat.succ_pos _

/-- A chain that is no longer than `width` and the levels below it, put into one bound. -/
theorem le_levels_mul {height chain depth width : Nat} (narrow : chain ≤ width)
    (positive : 0 < depth) (bounded : height ≤ chain + 1 + (depth - 1) * (width + 1))
    : height ≤ depth * (width + 1) := by
  obtain ⟨below, rfl⟩ := Nat.exists_eq_succ_of_ne_zero (Nat.ne_of_gt positive)
  rw [Nat.succ_sub_one] at bounded
  rw [Nat.succ_mul]
  omega

/-- Going down an expression leads through its chain, to one operand, and then to what that
operand encloses, which has one level of depth less.
-/
theorem height_le_chainLength_add (associativity : PowerAssociativity) {width : Nat} {e : Expr}
    (narrow : e.longestChain ≤ width)
    : e.height ≤ e.chainLength + 1 + (e.depth associativity - 1) * (width + 1) := by
  have enclosed : ∀ {inner : Expr}, inner.longestChain ≤ width →
      inner.height ≤ inner.chainLength + 1 + (inner.depth associativity - 1) * (width + 1) →
      inner.height ≤ inner.depth associativity * (width + 1) := by
    intro inner narrow bounded
    exact le_levels_mul (Nat.le_trans inner.chainLength_le_longestChain narrow)
      (inner.depth_pos associativity) bounded
  induction e using inductionOn with
  | number text => simp [height, chainLength]
  | reference name => simp [height, chainLength]
  | binary op left right leftIh rightIh =>
      simp only [longestChain, Nat.max_le] at narrow
      have levels : ∀ {depth : Nat}, depth ≤ (Expr.binary op left right).depth associativity →
          (depth - 1) * (width + 1)
            ≤ ((Expr.binary op left right).depth associativity - 1) * (width + 1) :=
        fun deep => Nat.mul_le_mul_right _ (Nat.sub_le_sub_right deep 1)
      have leftLevels := levels (Nat.le_max_left _ _)
      have rightLevels := levels (Nat.le_trans (Nat.le_add_left _ _) (Nat.le_max_right _ _))
      have leftBound := leftIh narrow.2.1
      have rightBound := rightIh narrow.2.2
      simp only [height, chainLength]
      omega
  | negate operand ih =>
      rw [longestChain] at narrow
      have bounded := enclosed narrow (ih narrow)
      simp only [height, chainLength, depth, Nat.add_sub_cancel]
      omega
  | call name arguments ih =>
      rw [longestChain] at narrow
      have bounded : argumentHeight arguments
          ≤ argumentDepth associativity arguments * (width + 1) := by
        refine argumentHeight_le_iff.mpr fun argument member => ?_
        have narrowPart := longestArgumentChain_le_iff.mp narrow argument member
        have shallow : argument.depth associativity ≤ argumentDepth associativity arguments :=
          argumentDepth_le_iff.mp (Nat.le_refl _) argument member
        exact Nat.le_trans (enclosed narrowPart (ih argument member narrowPart))
          (Nat.mul_le_mul_right _ shallow)
      simp only [height, chainLength, depth, Nat.add_sub_cancel]
      omega
  | group inner ih =>
      rw [longestChain] at narrow
      have bounded := enclosed narrow (ih narrow)
      simp only [height, chainLength, depth, Nat.add_sub_cancel]
      omega

/-- The height of an expression is bounded by its depth and its longest chain. -/
theorem height_le_depth_mul (associativity : PowerAssociativity) {width : Nat} {e : Expr}
    (narrow : e.longestChain ≤ width)
    : e.height ≤ e.depth associativity * (width + 1) :=
  le_levels_mul (Nat.le_trans e.chainLength_le_longestChain narrow)
    (e.depth_pos associativity) (height_le_chainLength_add associativity narrow)

/-- Whatever is read is no higher than the limit on depth times one more than the length of its
longest chain.
-/
theorem height_le_of_ofTokens {tokens : List Token} {options : ReaderOptions} {e : Expr}
    (read : ofTokens tokens options = .ok e)
    : e.height ≤ options.maxDepth * (e.longestChain + 1) := by
  obtain ⟨_, within, _⟩ := ofTerminals_eq_ok_iff.mp read
  exact Nat.le_trans (height_le_depth_mul options.powerAssociativity (Nat.le_refl _))
    (Nat.mul_le_mul_right _ within)

/-- Two chains of two operators, one of them in brackets: the bound is reached. -/
theorem height_le_of_ofTokens_reached
    : let e : Expr :=
        .binary .add (.binary .add (.group (.binary .add (.binary .add (.number "1")
          (.number "2")) (.number "3"))) (.number "4")) (.number "5")
      ofTokens (tokenize "=(1+2+3)+4+5") ⟨2, .left⟩ = .ok e
      ∧ e.longestChain = 2 ∧ e.height = 6 ∧ e.height ≤ 2 * (2 + 1) := by
  intro e
  have tokens : tokenize "=(1+2+3)+4+5" =
      [⟨.opening, "(", 1⟩, ⟨.number, "1", 2⟩, ⟨.operator, "+", 3⟩, ⟨.number, "2", 4⟩,
        ⟨.operator, "+", 5⟩, ⟨.number, "3", 6⟩, ⟨.closing, ")", 7⟩, ⟨.operator, "+", 8⟩,
        ⟨.number, "4", 9⟩, ⟨.operator, "+", 10⟩, ⟨.number, "5", 11⟩] := by
    decide +kernel
  have read : ofTokens (tokenize "=(1+2+3)+4+5") ⟨2, .left⟩ = .ok e := by
    rw [tokens]
    rfl
  exact ⟨read, rfl, rfl, height_le_of_ofTokens read⟩

-----------------------------------------------------------------------------------------
-- Sums of ones
-----------------------------------------------------------------------------------------

/-- What follows the first number in the text of a sum of ones with a number of plus signs. -/
def furtherOnes : Nat → List Char
  | 0 => []
  | count + 1 => '+' :: '1' :: furtherOnes count

/-- The text of a sum of ones. -/
def onesText (count : Nat) : String :=
  String.ofList ('1' :: furtherOnes count)

/-- The sum that adds a number of ones to an expression, one after another. -/
def addOnes (first : Expr) : Nat → Expr
  | 0 => first
  | count + 1 => addOnes (.binary .add first (.number "1")) count

/-- The terminals that add ones. -/
def onesTerminals : Nat → List Terminal
  | 0 => []
  | count + 1 => .ofOperator .add :: ⟨.number, "1"⟩ :: onesTerminals count

theorem terminals_addOnes (first : Expr) (count : Nat)
    : (addOnes first count).terminals = first.terminals ++ onesTerminals count := by
  induction count generalizing first with
  | zero => simp [addOnes, onesTerminals]
  | succ count ih => simp [addOnes, onesTerminals, ih, terminals]

theorem height_addOnes (first : Expr) (count : Nat)
    : first.height + count ≤ (addOnes first count).height := by
  induction count generalizing first with
  | zero => exact Nat.le_refl _
  | succ count ih =>
      have further := ih (.binary .add first (.number "1"))
      simp only [height] at further
      simp only [addOnes]
      omega

theorem depth_addOnes {associativity : PowerAssociativity} {first : Expr}
    (flat : first.depth associativity = 1) (count : Nat)
    : (addOnes first count).depth associativity = 1 := by
  induction count generalizing first with
  | zero => exact flat
  | succ count ih =>
      refine ih ?_
      cases associativity <;> simp [depth, flat, exponentCost]

theorem ranked_addOnes {associativity : PowerAssociativity} {first : Expr}
    (ranked : Ranked associativity (.chain .additive) first) (count : Nat)
    : Ranked associativity (.chain .additive) (addOnes first count) := by
  induction count generalizing first with
  | zero => exact ranked
  | succ count ih =>
      have one : Ranked associativity (.chain .multiplicative) (.number "1") :=
        Ranked.number.ofPrimary .multiplicative
      exact ih (.left rfl (by simp) ranked one)

theorem ofText_one (options : TokenizerOptions) (offset count : Nat)
    : Lexeme.ofText options offset ('1' :: furtherOnes count)
        = ⟨.number, offset, '1', []⟩ :: Lexeme.ofText options (offset + 1) (furtherOnes count) := by
  have alone : Lexeme.next options offset '1' (furtherOnes count)
      = ⟨.number, offset, '1', []⟩ := by
    have noSeparator : options.decimalSeparators.accepts '+' = false := by
      cases options.decimalSeparators <;> rfl
    cases count <;> simp [Lexeme.next, Lexeme.numberTail, furtherOnes, noSeparator]
  have visible : Text.isBlank '1' = false := by decide
  rw [Lexeme.ofText, visible, if_neg Bool.false_ne_true, alone]
  rfl

theorem ofText_plus (options : TokenizerOptions) (offset : Nat) (rest : List Char)
    : Lexeme.ofText options offset ('+' :: rest)
        = ⟨.operator, offset, '+', []⟩ :: Lexeme.ofText options (offset + 1) rest := by
  have alone : Lexeme.next options offset '+' rest = ⟨.operator, offset, '+', []⟩ := by
    have noName : Lexeme.beginsName '+' = false := by decide +kernel
    simp [Lexeme.next, noName, Lexeme.characterKind]
  have visible : Text.isBlank '+' = false := by decide
  rw [Lexeme.ofText, visible, if_neg Bool.false_ne_true, alone]
  rfl

theorem ofTokens_ones (options : TokenizerOptions) (offset count : Nat)
    : (Terminal.ofTokens ((Lexeme.ofText options offset ('1' :: furtherOnes count)).map
        Lexeme.token)).map Terminal.canonical
        = ⟨.number, "1"⟩ :: onesTerminals count := by
  induction count generalizing offset with
  | zero =>
      rw [ofText_one, furtherOnes, Lexeme.ofText]
      rfl
  | succ count ih =>
      have rest := ih (offset + 2)
      rw [ofText_one] at rest ⊢
      rw [furtherOnes, ofText_plus, ofText_one]
      have number : ∀ offset, Lexeme.token ⟨.number, offset, '1', []⟩ = ⟨.number, "1", offset⟩ :=
        fun _ => rfl
      have plus : ∀ offset, Lexeme.token ⟨.operator, offset, '+', []⟩ = ⟨.operator, "+", offset⟩ :=
        fun _ => rfl
      simp only [Terminal.ofTokens, List.map_cons, number, plus] at rest ⊢
      rw [List.filter_cons_of_pos rfl, List.filter_cons_of_pos rfl,
        Terminal.fuseAll_cons (by simp [Token.fuse?]),
        List.filter_cons_of_pos rfl, Terminal.fuseAll_cons (by simp [Token.fuse?]),
        List.map_cons, List.map_cons]
      rw [List.filter_cons_of_pos rfl] at rest
      rw [rest]
      rfl

/-- The text of a sum of ones is read as that sum, under every limit but zero. -/
theorem ofTokens_onesText {options : ReaderOptions} (limit : 0 < options.maxDepth)
    (tokenizer : TokenizerOptions) (count : Nat)
    : ofTokens (tokenize (onesText count) tokenizer) options
        = .ok (addOnes (.number "1") count) := by
  have one : Ranked options.powerAssociativity (.chain .additive) (.number "1") :=
    Ranked.number.ofPrimary .additive
  refine ofTerminals_eq_ok_iff.mpr ⟨.operand (ranked_addOnes one count), ?_, ?_⟩
  · rw [depth_addOnes rfl]
    exact limit
  · rw [terminals_addOnes, tokenize, Lexeme.ofFormula, onesText, String.toList_ofList]
    exact ofTokens_ones tokenizer 0 count

/-- The limit on depth alone bounds no height: a chain may be as long as its formula. -/
theorem not_forall_exists_height_bound
    : ¬ ∀ maxDepth : Nat, ∃ bound : Nat, ∀ (formula : String) (tokenizer : TokenizerOptions)
        (associativity : PowerAssociativity) (e : Expr),
        ofTokens (tokenize formula tokenizer) ⟨maxDepth, associativity⟩ = .ok e
        → e.height ≤ bound := by
  intro bounded
  obtain ⟨bound, within⟩ := bounded 1
  have low := within (onesText bound) {} .left _ (ofTokens_onesText Nat.one_pos {} bound)
  have high := height_addOnes (.number "1") bound
  simp only [height] at high
  omega

end FormulaLatex.Expr
