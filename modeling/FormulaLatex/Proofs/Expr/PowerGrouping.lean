import FormulaLatex.Proofs.Expr.Derivation

/-! The two groupings of powers. Both read the same lists of tokens, and what one of them reads is
what the other reads, with every run of powers grouped from the other side. Only the limit on depth
tells them apart: grouped from the right, every power takes a level.
-/

namespace FormulaLatex.Expr

-----------------------------------------------------------------------------------------
-- Runs of powers
-----------------------------------------------------------------------------------------

namespace Chain

/-- Joins all operands of a chain from the right, whatever the operators are. -/
def joinRight : Expr → List (BinaryOperator × Expr) → Expr
  | first, [] => first
  | first, (op, second) :: rest => .binary op first (joinRight second rest)

/-- Joins all operands of a chain from one side. -/
def joinFrom (associativity : PowerAssociativity) (chain : Chain) : Expr :=
  match associativity with
  | .left => chain.join
  | .right => joinRight chain.first chain.rest

end Chain

mutual

/-- The run of powers that an expression is: the operands of the powers that stand in no bracket
and under no other operator. Inside the operands every run is grouped from one side. An expression
that is no power is a run without any operator.
-/
def powerRun (associativity : PowerAssociativity) : Expr → Chain
  | .number text => ⟨.number text, []⟩
  | .reference name => ⟨.reference name, []⟩
  | .binary op left right =>
      if op = .power then
        (left.powerRun associativity).append .power (right.powerRun associativity)
      else
        ⟨.binary op ((left.powerRun associativity).joinFrom associativity)
          ((right.powerRun associativity).joinFrom associativity), []⟩
  | .negate operand => ⟨.negate ((operand.powerRun associativity).joinFrom associativity), []⟩
  | .call name arguments => ⟨.call name (regroupAll associativity arguments), []⟩
  | .group inner => ⟨.group ((inner.powerRun associativity).joinFrom associativity), []⟩

/-- Several expressions with every run of powers grouped from one side. -/
def regroupAll (associativity : PowerAssociativity) : List Expr → List Expr
  | [] => []
  | first :: rest =>
      (first.powerRun associativity).joinFrom associativity :: regroupAll associativity rest

end

/-- An expression with every run of powers in it grouped from one side. -/
def regroup (associativity : PowerAssociativity) (e : Expr) : Expr :=
  (e.powerRun associativity).joinFrom associativity

theorem regroupAll_eq_map (associativity : PowerAssociativity) (es : List Expr)
    : regroupAll associativity es = es.map (regroup associativity) := by
  induction es with
  | nil => rfl
  | cons first rest ih => rw [regroupAll, ih, List.map_cons, regroup]

theorem joinFrom_single (associativity : PowerAssociativity) (e : Expr)
    : Chain.joinFrom associativity ⟨e, []⟩ = e := by
  cases associativity <;> rfl

-----------------------------------------------------------------------------------------
-- Terminals
-----------------------------------------------------------------------------------------

theorem Chain.terminals_joinFrom (associativity : PowerAssociativity) (chain : Chain)
    : (chain.joinFrom associativity).terminals = chain.terminals := by
  cases associativity with
  | left => exact terminals_join chain
  | right =>
      obtain ⟨first, rest⟩ := chain
      induction rest generalizing first with
      | nil => simp [joinFrom, joinRight, terminals, linkTerminals]
      | cons link rest ih =>
          have joined := ih link.2
          simp only [joinFrom, joinRight, Expr.terminals] at joined ⊢
          rw [joined]
          rfl

theorem Chain.linkTerminals_append (front back : List (BinaryOperator × Expr))
    : linkTerminals (front ++ back) = linkTerminals front ++ linkTerminals back := by
  induction front with
  | nil => rfl
  | cons link rest ih => simp [linkTerminals, ih]

theorem Chain.terminals_append (left right : Chain) (op : BinaryOperator)
    : (left.append op right).terminals
        = left.terminals ++ .ofOperator op :: right.terminals := by
  simp [append, terminals, linkTerminals_append, linkTerminals]

theorem argumentTerminals_map {f : Expr → Expr} {arguments : List Expr}
    (same : ∀ argument ∈ arguments, (f argument).terminals = argument.terminals)
    : argumentTerminals (arguments.map f) = argumentTerminals arguments := by
  cases arguments with
  | nil => rfl
  | cons first rest =>
      obtain ⟨firstSame, others⟩ := List.forall_mem_cons.mp same
      have further : furtherTerminals (rest.map f) = furtherTerminals rest := by
        rw [furtherTerminals_eq_flatMap, furtherTerminals_eq_flatMap, List.flatMap_map]
        exact List.flatMap_congr fun e member => by rw [others e member]
      rw [List.map_cons, argumentTerminals, argumentTerminals, firstSame, further]

/-- Regrouping powers moves no terminal. -/
theorem terminals_regroup (associativity : PowerAssociativity) (e : Expr)
    : (e.regroup associativity).terminals = e.terminals := by
  induction e using inductionOn with
  | number text => rw [regroup, powerRun, joinFrom_single]
  | reference name => rw [regroup, powerRun, joinFrom_single]
  | binary op left right leftIh rightIh =>
      rw [regroup, Chain.terminals_joinFrom] at leftIh rightIh
      rw [regroup, Chain.terminals_joinFrom, powerRun, Expr.terminals]
      split
      · rename_i power
        rw [Chain.terminals_append, leftIh, rightIh, power]
      · simp [Chain.terminals, Chain.linkTerminals, Expr.terminals, Chain.terminals_joinFrom,
          ← leftIh, ← rightIh]
  | negate operand ih =>
      rw [regroup, powerRun, joinFrom_single, Expr.terminals, Expr.terminals]
      exact congrArg _ ih
  | call name arguments ih =>
      rw [regroup, powerRun, joinFrom_single, regroupAll_eq_map, Expr.terminals, Expr.terminals,
        argumentTerminals_map ih]
  | group inner ih =>
      rw [regroup, powerRun, joinFrom_single, Expr.terminals, Expr.terminals]
      exact congrArg (fun inside => Terminal.opening :: (inside ++ [.closing])) ih

-----------------------------------------------------------------------------------------
-- Rank
-----------------------------------------------------------------------------------------

/-- Operands of powers, with powers between them and nothing else. -/
structure Chain.OfPowers (associativity : PowerAssociativity) (chain : Chain) : Prop where
  first : Ranked associativity .primary chain.first
  rest : ∀ link ∈ chain.rest, link.1 = .power ∧ Ranked associativity .primary link.2

namespace Chain.OfPowers

variable {associativity : PowerAssociativity} {left right chain : Chain}

theorem single {e : Expr} (ranked : Ranked associativity .primary e)
    : OfPowers associativity ⟨e, []⟩ :=
  ⟨ranked, by simp⟩

theorem append (leftPowers : OfPowers associativity left)
    (rightPowers : OfPowers associativity right)
    : OfPowers associativity (left.append .power right) := by
  refine ⟨leftPowers.first, List.forall_mem_append.mpr ⟨leftPowers.rest, ?_⟩⟩
  exact List.forall_mem_cons.mpr ⟨⟨rfl, rightPowers.first⟩, rightPowers.rest⟩

theorem join {first : Expr} {rest : List (BinaryOperator × Expr)}
    (firstRanked : Ranked .left (.chain .power) first)
    (restRanked : ∀ link ∈ rest, link.1 = .power ∧ Ranked .left .primary link.2)
    : Ranked .left (.chain .power) (Chain.join ⟨first, rest⟩) := by
  induction rest generalizing first with
  | nil => exact firstRanked
  | cons link rest ih =>
      obtain ⟨⟨power, linkRanked⟩, restRanked⟩ := List.forall_mem_cons.mp restRanked
      exact ih (.left (by rw [power]; rfl) (fun _ => rfl) firstRanked linkRanked) restRanked

theorem joinRight {first : Expr} {rest : List (BinaryOperator × Expr)}
    (firstRanked : Ranked .right .primary first)
    (restRanked : ∀ link ∈ rest, link.1 = .power ∧ Ranked .right .primary link.2)
    : Ranked .right (.chain .power) (Chain.joinRight first rest) := by
  induction rest generalizing first with
  | nil => exact .operand firstRanked
  | cons link rest ih =>
      obtain ⟨⟨power, linkRanked⟩, restRanked⟩ := List.forall_mem_cons.mp restRanked
      rw [Chain.joinRight, power]
      exact .right rfl firstRanked (ih linkRanked restRanked)

/-- Powers that are joined from one side are ranked as those that are grouped from there. -/
theorem ranked (powers : OfPowers associativity chain)
    : Ranked associativity (.chain .power) (chain.joinFrom associativity) := by
  cases associativity with
  | left => exact join (.operand powers.first) powers.rest
  | right => exact joinRight powers.first powers.rest

end Chain.OfPowers

/-- What the run of an expression of a category is: a single operand, operands of powers, or
operands that are joined into an expression of the category.
-/
def Chain.RunOf (associativity : PowerAssociativity) : Category → Chain → Prop
  | .primary, run => run.rest = [] ∧ Ranked associativity .primary run.first
  | .chain .power, run => run.OfPowers associativity
  | category, run => Ranked associativity category (run.joinFrom associativity)

theorem Chain.RunOf.ofPowers {associativity : PowerAssociativity} {run : Chain}
    (single : run.RunOf associativity .primary)
    : run.OfPowers associativity :=
  ⟨single.2, by simp [single.1]⟩

theorem Chain.RunOf.ranked {associativity : PowerAssociativity} {category : Category} {run : Chain}
    (runOf : run.RunOf associativity category)
    : Ranked associativity category (run.joinFrom associativity) := by
  match category, runOf with
  | .primary, single =>
      obtain ⟨first, rest⟩ := run
      obtain ⟨rfl, ranked⟩ := single
      rwa [joinFrom_single]
  | .chain .power, powers => exact OfPowers.ranked powers
  | .chain .multiplicative, ranked => exact ranked
  | .chain .additive, ranked => exact ranked
  | .chain .comparison, ranked => exact ranked

/-- An operand of operators that bind more loosely than powers need not be a single one. -/
theorem Chain.RunOf.ofRanked {associativity : PowerAssociativity} {rank : Precedence} {run : Chain}
    (loose : rank ≠ .power)
    (ranked : Ranked associativity (.chain rank) (run.joinFrom associativity))
    : run.RunOf associativity (.chain rank) := by
  cases rank with
  | power => exact absurd rfl loose
  | multiplicative | additive | comparison => exact ranked

/-- What is ranked with powers grouped from one side is a run of operands that are ranked with
powers grouped from the other.
-/
theorem Ranked.runOf_powerRun {associativity : PowerAssociativity} {category : Category} {e : Expr}
    (ranked : Ranked associativity category e) (other : PowerAssociativity)
    : (e.powerRun other).RunOf other category := by
  induction ranked with
  | @operand rank e _ ih =>
      by_cases power : rank = .power
      · subst power
        exact ih.ofPowers
      · exact .ofRanked power (.operand ih.ranked)
  | @left rank op l r sort _ _ _ leftIh rightIh =>
      by_cases power : rank = .power
      · subst power
        rw [powerRun, if_pos (BinaryOperator.eq_power_of_precedence sort)]
        exact Chain.OfPowers.append leftIh rightIh.ofPowers
      · have loose : op ≠ .power := by
          rintro rfl
          exact power sort.symm
        rw [powerRun, if_neg loose]
        refine .ofRanked power ?_
        rw [joinFrom_single]
        exact .left sort (fun same => absurd same power) leftIh.ranked rightIh.ranked
  | right _ _ _ leftIh rightIh =>
      rw [powerRun, if_pos rfl]
      exact leftIh.ofPowers.append rightIh
  | number => exact ⟨rfl, .number⟩
  | reference => exact ⟨rfl, .reference⟩
  | negate _ ih => exact ⟨rfl, .negate ih.ranked⟩
  | call _ ih =>
      rw [powerRun, regroupAll_eq_map]
      refine ⟨rfl, .call fun argument member => ?_⟩
      obtain ⟨given, givenMember, rfl⟩ := List.mem_map.mp member
      exact (ih given givenMember).ranked
  | group _ ih => exact ⟨rfl, .group ih.ranked⟩

/-- What is ranked with powers grouped from one side is ranked, once regrouped, with powers grouped
from the other.
-/
theorem Ranked.regroup {associativity : PowerAssociativity} {category : Category} {e : Expr}
    (ranked : Ranked associativity category e) (other : PowerAssociativity)
    : Ranked other category (e.regroup other) :=
  (ranked.runOf_powerRun other).ranked

-----------------------------------------------------------------------------------------
-- Depth
-----------------------------------------------------------------------------------------

/-- No operand of a chain is nested deeper than a bound, powers taking no level. -/
def Chain.Within (bound : Nat) (chain : Chain) : Prop :=
  chain.first.depth .left ≤ bound ∧ ∀ link ∈ chain.rest, link.2.depth .left ≤ bound

theorem Chain.Within.append {bound : Nat} {left right : Chain} {op : BinaryOperator}
    (leftWithin : left.Within bound) (rightWithin : right.Within bound)
    : (left.append op right).Within bound := by
  refine ⟨leftWithin.1, List.forall_mem_append.mpr ⟨leftWithin.2, ?_⟩⟩
  exact List.forall_mem_cons.mpr ⟨rightWithin.1, rightWithin.2⟩

theorem Chain.Within.mono {bound larger : Nat} {chain : Chain} (within : chain.Within bound)
    (grows : bound ≤ larger)
    : chain.Within larger :=
  ⟨Nat.le_trans within.1 grows, fun link member => Nat.le_trans (within.2 link member) grows⟩

/-- A chain that is joined from the left is nested no deeper than its operands. -/
theorem Chain.Within.join {bound : Nat} {chain : Chain} (within : chain.Within bound)
    : chain.join.depth .left ≤ bound := by
  obtain ⟨first, rest⟩ := chain
  induction rest generalizing first with
  | nil => exact within.1
  | cons link rest ih =>
      obtain ⟨linkWithin, restWithin⟩ := List.forall_mem_cons.mp within.2
      refine ih (.binary link.1 first link.2) ⟨?_, restWithin⟩
      have free : exponentCost .left link.1 = 0 := rfl
      have firstWithin : first.depth .left ≤ bound := within.1
      simp only [depth, free]
      omega

theorem within_powerRun (associativity : PowerAssociativity) (e : Expr)
    : (e.powerRun .left).Within (e.depth associativity) := by
  induction e using inductionOn with
  | number text => exact ⟨Nat.le_refl 1, nofun⟩
  | reference name => exact ⟨Nat.le_refl 1, nofun⟩
  | binary op left right leftIh rightIh =>
      have leftWithin
          : (left.powerRun .left).Within ((binary op left right).depth associativity) :=
        leftIh.mono (Nat.le_max_left _ _)
      have rightWithin
          : (right.powerRun .left).Within ((binary op left right).depth associativity) :=
        rightIh.mono (Nat.le_trans (Nat.le_add_left _ _) (Nat.le_max_right _ _))
      rw [powerRun]
      split
      · exact leftWithin.append rightWithin
      · refine ⟨Nat.max_le.mpr ⟨leftWithin.join, ?_⟩, nofun⟩
        rw [show exponentCost .left op = 0 from rfl, Nat.zero_add]
        exact rightWithin.join
  | negate operand ih => exact ⟨Nat.succ_le_succ ih.join, nofun⟩
  | call name arguments ih =>
      rw [powerRun, regroupAll_eq_map]
      refine ⟨Nat.succ_le_succ (argumentDepth_le_iff.mpr fun argument member => ?_), nofun⟩
      obtain ⟨given, givenMember, rfl⟩ := List.mem_map.mp member
      exact Nat.le_trans (ih given givenMember).join
        (argumentDepth_le_iff.mp (Nat.le_refl _) given givenMember)
  | group inner ih => exact ⟨Nat.succ_le_succ ih.join, nofun⟩

/-- With its powers grouped from the left, an expression is nested no deeper than before. -/
theorem depth_regroup_le (associativity : PowerAssociativity) (e : Expr)
    : (e.regroup .left).depth .left ≤ e.depth associativity :=
  (e.within_powerRun associativity).join

-----------------------------------------------------------------------------------------
-- Reading
-----------------------------------------------------------------------------------------

theorem ofTerminals_regroup {terminals : List Terminal} {options : ReaderOptions} {e : Expr}
    (read : ofTerminals terminals options = .ok e) (other : ReaderOptions)
    (within
      : (e.regroup other.powerAssociativity).depth other.powerAssociativity ≤ other.maxDepth)
    : ofTerminals terminals other = .ok (e.regroup other.powerAssociativity) := by
  obtain ⟨ranked, _, same⟩ := ofTerminals_eq_ok_iff.mp read
  refine ofTerminals_eq_ok_iff.mpr ⟨ranked.regroup _, within, ?_⟩
  rw [terminals_regroup, same]

/-- The two groupings of powers read the same lists of tokens, each within some limit on depth.
What is read with powers grouped from the right is read within the same limit with powers grouped
from the left, as the same expression but for its runs of powers, which are regrouped to the left
wherever they stand. The other way round it is the same, but takes a larger limit.
-/
theorem ofTokens_regroup (tokens : List Token)
    : ((∃ limit e, ofTokens tokens ⟨limit, .right⟩ = .ok e)
        ↔ ∃ limit e, ofTokens tokens ⟨limit, .left⟩ = .ok e)
      ∧ (∀ limit e, ofTokens tokens ⟨limit, .right⟩ = .ok e
          → ofTokens tokens ⟨limit, .left⟩ = .ok (e.regroup .left))
      ∧ ∀ limit e, ofTokens tokens ⟨limit, .left⟩ = .ok e
          → ∃ larger, ofTokens tokens ⟨larger, .right⟩ = .ok (e.regroup .right) := by
  have fromLeft {limit : Nat} {e : Expr} (read : ofTokens tokens ⟨limit, .right⟩ = .ok e)
      : ofTokens tokens ⟨limit, .left⟩ = .ok (e.regroup .left) := by
    obtain ⟨_, within, _⟩ := ofTerminals_eq_ok_iff.mp read
    exact ofTerminals_regroup read ⟨limit, .left⟩
      (Nat.le_trans (depth_regroup_le .right e) within)
  have fromRight {limit : Nat} {e : Expr} (read : ofTokens tokens ⟨limit, .left⟩ = .ok e)
      : ∃ larger, ofTokens tokens ⟨larger, .right⟩ = .ok (e.regroup .right) :=
    ⟨(e.regroup .right).depth .right,
      ofTerminals_regroup read ⟨_, .right⟩ (Nat.le_refl _)⟩
  refine ⟨⟨?_, ?_⟩, fun _ _ => fromLeft, fun _ _ => fromRight⟩
  · rintro ⟨limit, e, read⟩
    exact ⟨limit, _, fromLeft read⟩
  · rintro ⟨limit, e, read⟩
    obtain ⟨larger, readAgain⟩ := fromRight read
    exact ⟨larger, _, readAgain⟩

/-- The tokens of `-1^2^f(a^b^c)*(x^y)^z`: runs are regrouped inside the call as well as outside,
and none goes through the group or the minus sign. Grouped from the right they need a level more.
-/
theorem ofTokens_regroup_nested
    : let tokens : List Token :=
        [⟨.operator, "-", 0⟩, ⟨.number, "1", 0⟩, ⟨.operator, "^", 0⟩, ⟨.number, "2", 0⟩,
          ⟨.operator, "^", 0⟩, ⟨.function, "F", 0⟩, ⟨.opening, "(", 0⟩, ⟨.reference, "A", 0⟩,
          ⟨.operator, "^", 0⟩, ⟨.reference, "B", 0⟩, ⟨.operator, "^", 0⟩, ⟨.reference, "C", 0⟩,
          ⟨.closing, ")", 0⟩, ⟨.operator, "*", 0⟩, ⟨.opening, "(", 0⟩, ⟨.reference, "X", 0⟩,
          ⟨.operator, "^", 0⟩, ⟨.reference, "Y", 0⟩, ⟨.closing, ")", 0⟩, ⟨.operator, "^", 0⟩,
          ⟨.reference, "Z", 0⟩]
      let power (l r : Expr) : Expr := .binary .power l r
      let call (inner : Expr) : Expr := .call "F" [inner]
      let right : Expr :=
        .binary .multiply
          (power (.negate (.number "1")) (power (.number "2")
            (call (power (.reference "A") (power (.reference "B") (.reference "C"))))))
          (power (.group (power (.reference "X") (.reference "Y"))) (.reference "Z"))
      let left : Expr :=
        .binary .multiply
          (power (power (.negate (.number "1")) (.number "2"))
            (call (power (power (.reference "A") (.reference "B")) (.reference "C"))))
          (power (.group (power (.reference "X") (.reference "Y"))) (.reference "Z"))
      ofTokens tokens ⟨6, .right⟩ = .ok right
      ∧ ofTokens tokens ⟨6, .left⟩ = .ok left
      ∧ (∃ larger, ofTokens tokens ⟨larger, .right⟩ = .ok right) := by
  intro tokens power call right left
  obtain ⟨_, fromLeft, fromRight⟩ := ofTokens_regroup tokens
  have read : ofTokens tokens ⟨6, .right⟩ = .ok right := rfl
  have readAgain : ofTokens tokens ⟨6, .left⟩ = .ok left := fromLeft 6 right read
  exact ⟨read, readAgain, fromRight 6 left readAgain⟩

end FormulaLatex.Expr
