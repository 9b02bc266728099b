import FormulaLatex.Proofs.Expr.Ranked

/-! Grouping a chain of operands: nothing in it is lost or moved, the result is ranked and no
deeper than the operands allow, and a ranked expression is what its own chain groups to.
-/

namespace FormulaLatex.Expr

variable {associativity : PowerAssociativity}

namespace Chain

-----------------------------------------------------------------------------------------
-- Terminals
-----------------------------------------------------------------------------------------

def linkTerminals : List (BinaryOperator × Expr) → List Terminal
  | [] => []
  | (op, operand) :: rest => .ofOperator op :: (operand.terminals ++ linkTerminals rest)

def terminals (chain : Chain) : List Terminal :=
  chain.first.terminals ++ linkTerminals chain.rest

theorem terminals_cons (operand : Expr) (op : BinaryOperator) (chain : Chain)
    : (chain.cons operand op).terminals
        = operand.terminals ++ .ofOperator op :: chain.terminals :=
  rfl

theorem terminals_groupLeft (rank : Precedence) (first : Expr)
    (rest : List (BinaryOperator × Expr))
    : (groupLeft rank first rest).terminals = first.terminals ++ linkTerminals rest := by
  induction rest generalizing first with
  | nil => rfl
  | cons link rest ih =>
      unfold groupLeft
      split
      · simp [ih, linkTerminals, Expr.terminals]
      · simp [terminals_cons, ih, linkTerminals]

theorem terminals_groupRight (rank : Precedence) (first : Expr)
    (rest : List (BinaryOperator × Expr))
    : (groupRight rank first rest).terminals = first.terminals ++ linkTerminals rest := by
  induction rest generalizing first with
  | nil => rfl
  | cons link rest ih =>
      have grouped := ih link.2
      unfold terminals at grouped
      simp only [groupRight]
      split
      · simp [terminals, linkTerminals, Expr.terminals, grouped]
      · rw [terminals_cons, ih]
        rfl

theorem terminals_join (chain : Chain) : chain.join.terminals = chain.terminals := by
  obtain ⟨first, rest⟩ := chain
  induction rest generalizing first with
  | nil => simp [join, terminals, linkTerminals]
  | cons link rest ih =>
      have joined := ih (.binary link.1 first link.2)
      simpa [join, terminals, linkTerminals, Expr.terminals] using joined

/-- The expression of a chain has the terminals of the chain. -/
theorem terminals_toExpr (associativity : PowerAssociativity) (chain : Chain)
    : (chain.toExpr associativity).terminals = chain.terminals := by
  have powers : (chain.groupPowers associativity).terminals = chain.terminals := by
    cases associativity with
    | left => exact terminals_groupLeft _ _ _
    | right => exact terminals_groupRight _ _ _
  calc (chain.toExpr associativity).terminals
      = _ := terminals_join _
    _ = _ := terminals_groupLeft _ _ _
    _ = _ := terminals_groupLeft _ _ _
    _ = chain.terminals := powers

-----------------------------------------------------------------------------------------
-- Operators that remain
-----------------------------------------------------------------------------------------

/-- No operator of a rank remains after grouping it from the left, and none is new. -/
theorem mem_groupLeft_rest {rank : Precedence} {first : Expr}
    {rest : List (BinaryOperator × Expr)} {link : BinaryOperator × Expr}
    (member : link ∈ (groupLeft rank first rest).rest)
    : link.1.precedence ≠ rank ∧ link.1 ∈ rest.map Prod.fst := by
  induction rest generalizing first with
  | nil => simp [groupLeft] at member
  | cons head rest ih =>
      unfold groupLeft at member
      split at member
      · obtain ⟨other, earlier⟩ := ih member
        exact ⟨other, List.mem_cons_of_mem _ earlier⟩
      · rename_i other
        rcases List.mem_cons.mp member with same | later
        · subst same
          exact ⟨other, List.mem_cons_self⟩
        · obtain ⟨other, earlier⟩ := ih later
          exact ⟨other, List.mem_cons_of_mem _ earlier⟩

theorem mem_groupRight_rest {rank : Precedence} {first : Expr}
    {rest : List (BinaryOperator × Expr)} {link : BinaryOperator × Expr}
    (member : link ∈ (groupRight rank first rest).rest)
    : link.1.precedence ≠ rank := by
  induction rest generalizing first with
  | nil => simp [groupRight] at member
  | cons head rest ih =>
      simp only [groupRight] at member
      split at member
      · exact ih member
      · rename_i other
        rcases List.mem_cons.mp member with same | later
        · exact same ▸ other
        · exact ih later

theorem mem_groupPowers_rest {chain : Chain} {link : BinaryOperator × Expr}
    (member : link ∈ (chain.groupPowers associativity).rest)
    : link.1.precedence ≠ .power := by
  cases associativity with
  | left => exact (mem_groupLeft_rest member).1
  | right => exact mem_groupRight_rest member

end Chain

-----------------------------------------------------------------------------------------
-- Rank and depth
-----------------------------------------------------------------------------------------

/-- An expression of a category that lies within the limit when what holds it lies at a given
depth.
-/
structure Fits (options : ReaderOptions) (category : Category) (base : Nat) (e : Expr)
    : Prop where
  ranked : Ranked options.powerAssociativity category e
  within : base + e.depth options.powerAssociativity ≤ options.maxDepth

theorem Fits.left {options : ReaderOptions} {rank : Precedence} {base : Nat}
    {op : BinaryOperator} {l r : Expr} (sort : op.precedence = rank)
    (grouping : rank = .power → options.powerAssociativity = .left)
    (leftFits : Fits options (.chain rank) base l) (rightFits : Fits options rank.operand base r)
    : Fits options (.chain rank) base (.binary op l r) := by
  refine ⟨.left sort grouping leftFits.ranked rightFits.ranked, ?_⟩
  have free : exponentCost options.powerAssociativity op = 0 := by
    unfold exponentCost
    split
    · rename_i right
      rw [grouping (by simpa [BinaryOperator.precedence] using sort.symm)] at right
      cases right
    · rfl
  have leftWithin := leftFits.within
  have rightWithin := rightFits.within
  simp only [depth, free]
  omega

/-- How many levels the exponents before an operand add to it, given how many they add to the
operand before, and the operator between the two.
-/
def nextRun (associativity : PowerAssociativity) (run : Nat) (op : BinaryOperator) : Nat :=
  match associativity, op with
  | .right, .power => run + 1
  | _, _ => 0

namespace Chain

variable {options : ReaderOptions} {base : Nat}

/-- Every operand of a chain is a primary that fits where it stands. -/
def PrimariesFit (options : ReaderOptions) (base : Nat)
    : Nat → Expr → List (BinaryOperator × Expr) → Prop
  | run, first, [] => Fits options .primary (base + run) first
  | run, first, (op, second) :: rest =>
      Fits options .primary (base + run) first
      ∧ PrimariesFit options base (nextRun options.powerAssociativity run op) second rest

def AllFit (options : ReaderOptions) (category : Category) (base : Nat) (chain : Chain)
    : Prop :=
  Fits options category base chain.first
  ∧ ∀ link ∈ chain.rest, Fits options category base link.2

/-- Grouping a rank from the left makes chains of that rank out of their operands. -/
theorem AllFit.groupLeft (rank : Precedence) {first : Expr}
    {rest : List (BinaryOperator × Expr)}
    (grouping : rank = .power → options.powerAssociativity = .left)
    (firstFits : Fits options (.chain rank) base first)
    (restFits : ∀ link ∈ rest, Fits options rank.operand base link.2)
    : AllFit options (.chain rank) base (groupLeft rank first rest) := by
  induction rest generalizing first with
  | nil => exact ⟨firstFits, by simp [Chain.groupLeft]⟩
  | cons link rest ih =>
      obtain ⟨linkFits, restFits⟩ := List.forall_mem_cons.mp restFits
      unfold Chain.groupLeft
      split
      · rename_i sort
        exact ih (.left sort grouping firstFits linkFits) restFits
      · have grouped := ih ⟨.operand linkFits.ranked, linkFits.within⟩ restFits
        exact ⟨firstFits, List.forall_mem_cons.mpr grouped⟩

theorem PrimariesFit.all (grouping : options.powerAssociativity = .left) {run : Nat}
    {first : Expr} {rest : List (BinaryOperator × Expr)}
    (fits : PrimariesFit options base run first rest)
    : Fits options .primary (base + run) first
      ∧ ∀ link ∈ rest, Fits options .primary base link.2 := by
  induction rest generalizing run first with
  | nil => exact ⟨fits, by simp⟩
  | cons link rest ih =>
      have free : nextRun options.powerAssociativity run link.1 = 0 := by
        simp [nextRun, grouping]
      obtain ⟨firstFits, restFits⟩ := fits
      rw [free] at restFits
      exact ⟨firstFits, List.forall_mem_cons.mpr (ih restFits)⟩

/-- Grouping powers from the right makes chains of powers, of which the first may lie deeper
than the others.
-/
theorem PrimariesFit.groupRight (grouping : options.powerAssociativity = .right) {run : Nat}
    {first : Expr} {rest : List (BinaryOperator × Expr)}
    (fits : PrimariesFit options base run first rest)
    : Fits options (.chain .power) (base + run) (Chain.groupRight .power first rest).first
      ∧ ∀ link ∈ (Chain.groupRight .power first rest).rest,
          Fits options (.chain .power) base link.2 := by
  induction rest generalizing run first with
  | nil => exact ⟨⟨.operand fits.ranked, fits.within⟩, by simp [Chain.groupRight]⟩
  | cons link rest ih =>
      obtain ⟨firstFits, restFits⟩ := fits
      obtain ⟨groupFits, othersFit⟩ := ih restFits
      obtain ⟨op, second⟩ := link
      simp only [Chain.groupRight]
      split
      · rename_i sort
        obtain rfl := BinaryOperator.eq_power_of_precedence sort
        refine ⟨⟨.right grouping firstFits.ranked groupFits.ranked, ?_⟩, othersFit⟩
        have firstWithin := firstFits.within
        have groupWithin := groupFits.within
        simp only [nextRun, grouping] at groupWithin
        simp only [depth, exponentCost, grouping] at firstWithin groupWithin ⊢
        omega
      · rename_i sort
        have free : nextRun options.powerAssociativity run op = 0 := by
          unfold nextRun
          split
          · exact absurd rfl sort
          · rfl
        rw [free] at groupFits
        exact ⟨⟨.operand firstFits.ranked, firstFits.within⟩,
          List.forall_mem_cons.mpr ⟨groupFits, othersFit⟩⟩

theorem PrimariesFit.groupPowers {chain : Chain}
    (fits : PrimariesFit options base 0 chain.first chain.rest)
    : AllFit options (.chain .power) base (chain.groupPowers options.powerAssociativity) := by
  cases grouping : options.powerAssociativity with
  | left =>
      obtain ⟨firstFits, restFits⟩ := fits.all grouping
      exact AllFit.groupLeft .power (fun _ => grouping) ⟨.operand firstFits.ranked, firstFits.within⟩
        restFits
  | right => exact fits.groupRight grouping

theorem join_fits {first : Expr} {rest : List (BinaryOperator × Expr)}
    (comparisons : ∀ link ∈ rest, link.1.precedence = .comparison)
    (firstFits : Fits options (.chain .comparison) base first)
    (restFits : ∀ link ∈ rest, Fits options (.chain .additive) base link.2)
    : Fits options (.chain .comparison) base (join ⟨first, rest⟩) := by
  induction rest generalizing first with
  | nil => exact firstFits
  | cons link rest ih =>
      obtain ⟨comparison, comparisons⟩ := List.forall_mem_cons.mp comparisons
      obtain ⟨linkFits, restFits⟩ := List.forall_mem_cons.mp restFits
      exact ih comparisons (.left comparison (by simp) firstFits linkFits) restFits

/-- The expression of a chain of primaries is ranked, and fits if they do. -/
theorem PrimariesFit.toExpr {chain : Chain}
    (fits : PrimariesFit options base 0 chain.first chain.rest)
    : Fits options (.chain .comparison) base (chain.toExpr options.powerAssociativity) := by
  have powers := fits.groupPowers
  have products := AllFit.groupLeft .multiplicative (by simp)
    ⟨.operand powers.1.ranked, powers.1.within⟩ powers.2
  have sums := AllFit.groupLeft .additive (by simp)
    ⟨.operand products.1.ranked, products.1.within⟩ products.2
  refine join_fits ?_ ⟨.operand sums.1.ranked, sums.1.within⟩ sums.2
  intro link member
  obtain ⟨notSum, member⟩ := mem_groupLeft_rest member
  obtain ⟨earlier, member, same⟩ := List.mem_map.mp member
  obtain ⟨notProduct, member⟩ := mem_groupLeft_rest member
  obtain ⟨first, member, same'⟩ := List.mem_map.mp member
  have notPower := mem_groupPowers_rest member
  rw [same', same] at notPower
  rw [same] at notProduct
  revert notSum notProduct notPower
  cases link.1 <;> simp [BinaryOperator.precedence]

-----------------------------------------------------------------------------------------
-- Chains of ranked expressions
-----------------------------------------------------------------------------------------

def append (left : Chain) (op : BinaryOperator) (right : Chain) : Chain :=
  ⟨left.first, left.rest ++ (op, right.first) :: right.rest⟩

def groupRank (associativity : PowerAssociativity) (rank : Precedence) (chain : Chain)
    : Chain :=
  match rank with
  | .power => chain.groupPowers associativity
  | rank => groupLeft rank chain.first chain.rest

/-- Joins the operands around every operator that binds as tightly as a category. -/
def groupTo (associativity : PowerAssociativity) (chain : Chain) : Category → Chain
  | .primary => chain
  | .chain .power => chain.groupRank associativity .power
  | .chain .multiplicative =>
      (chain.groupRank associativity .power).groupRank associativity .multiplicative
  | .chain .additive =>
      ((chain.groupRank associativity .power).groupRank associativity
        .multiplicative).groupRank associativity .additive
  | .chain .comparison =>
      (((chain.groupRank associativity .power).groupRank associativity
        .multiplicative).groupRank associativity .additive).groupRank associativity .comparison

theorem groupTo_chain (chain : Chain) (rank : Precedence)
    : chain.groupTo associativity (.chain rank)
        = (chain.groupTo associativity rank.operand).groupRank associativity rank := by
  cases rank <;> rfl

theorem groupRank_single (rank : Precedence) (e : Expr)
    : groupRank associativity rank ⟨e, []⟩ = ⟨e, []⟩ := by
  cases rank <;> cases associativity <;> rfl

theorem groupLeft_append {rank : Precedence} {op : BinaryOperator}
    (other : op.precedence ≠ rank) (first second : Expr)
    (rest more : List (BinaryOperator × Expr))
    : groupLeft rank first (rest ++ (op, second) :: more)
        = (groupLeft rank first rest).append op (groupLeft rank second more) := by
  induction rest generalizing first with
  | nil => simp [groupLeft, other, append, cons]
  | cons link rest ih =>
      simp only [List.cons_append, groupLeft, ih]
      split <;> rfl

theorem groupRight_append {rank : Precedence} {op : BinaryOperator}
    (other : op.precedence ≠ rank) (first second : Expr)
    (rest more : List (BinaryOperator × Expr))
    : groupRight rank first (rest ++ (op, second) :: more)
        = (groupRight rank first rest).append op (groupRight rank second more) := by
  induction rest generalizing first with
  | nil => simp [groupRight, other, append, cons]
  | cons link rest ih =>
      simp only [List.cons_append, groupRight, ih]
      split <;> rfl

theorem groupRank_append {rank : Precedence} {op : BinaryOperator}
    (other : op.precedence ≠ rank) (left right : Chain)
    : (left.append op right).groupRank associativity rank
        = (left.groupRank associativity rank).append op
            (right.groupRank associativity rank) := by
  cases rank with
  | power =>
      cases associativity with
      | left => exact groupLeft_append other _ _ _ _
      | right => exact groupRight_append other _ _ _ _
  | comparison | additive | multiplicative => exact groupLeft_append other _ _ _ _

theorem groupTo_append {rank : Precedence} {op : BinaryOperator}
    (sort : op.precedence = rank) (left right : Chain)
    : (left.append op right).groupTo associativity rank.operand
        = (left.groupTo associativity rank.operand).append op
            (right.groupTo associativity rank.operand) := by
  cases rank <;> simp [Precedence.operand, groupTo, groupRank_append, sort]

/-- An operator after a chain that is grouped into one operand takes it as its left operand. -/
theorem groupLeft_snoc {rank : Precedence} {op : BinaryOperator} (sort : op.precedence = rank)
    {first l : Expr} {rest : List (BinaryOperator × Expr)}
    (whole : groupLeft rank first rest = ⟨l, []⟩) (r : Expr)
    : groupLeft rank first (rest ++ [(op, r)]) = ⟨.binary op l r, []⟩ := by
  induction rest generalizing first with
  | nil =>
      cases whole
      simp [groupLeft, sort]
  | cons link rest ih =>
      simp only [List.cons_append, groupLeft] at whole ⊢
      split
      · rename_i same
        exact ih (by simpa [same] using whole)
      · rename_i other
        simp [other, cons] at whole

theorem join_of_groupLeft {rank : Precedence} {first e : Expr}
    {rest : List (BinaryOperator × Expr)} (whole : groupLeft rank first rest = ⟨e, []⟩)
    : join ⟨first, rest⟩ = e := by
  induction rest generalizing first with
  | nil =>
      cases whole
      rfl
  | cons link rest ih =>
      unfold groupLeft at whole
      split at whole
      · exact ih whole
      · cases whole

end Chain

/-- The operands of an expression with the operators between them, as they were before the
operators were ranked.
-/
def toChain : Expr → Chain
  | .binary op left right => left.toChain.append op right.toChain
  | e => ⟨e, []⟩

/-- The chain of a ranked expression is grouped into that expression. -/
theorem Ranked.groupTo_toChain {category : Category} {e : Expr}
    (ranked : Ranked associativity category e)
    : e.toChain.groupTo associativity category = ⟨e, []⟩ := by
  induction ranked with
  | operand _ ih => rw [Chain.groupTo_chain, ih, Chain.groupRank_single]
  | @left rank op l r sort grouping _ _ leftIh rightIh =>
      rw [Chain.groupTo_chain] at leftIh
      rw [toChain, Chain.groupTo_chain, Chain.groupTo_append sort, rightIh]
      generalize l.toChain.groupTo associativity rank.operand = chain at leftIh
      cases rank with
      | power =>
          obtain rfl := grouping rfl
          exact Chain.groupLeft_snoc sort leftIh r
      | comparison | additive | multiplicative => exact Chain.groupLeft_snoc sort leftIh r
  | @right l r grouping _ _ leftIh rightIh =>
      subst grouping
      have single : l.toChain = ⟨l, []⟩ := leftIh
      have whole : Chain.groupRight .power r.toChain.first r.toChain.rest = ⟨r, []⟩ := rightIh
      show Chain.groupRight .power _ _ = _
      simp [toChain, single, Chain.append, Chain.groupRight, whole,
        BinaryOperator.precedence]
  | number | reference | negate | call | group => rfl

/-- A ranked expression is the expression of its chain. -/
theorem Ranked.toExpr_toChain {e : Expr}
    (ranked : Ranked associativity (.chain .comparison) e)
    : e.toChain.toExpr associativity = e :=
  Chain.join_of_groupLeft ranked.groupTo_toChain

end FormulaLatex.Expr
