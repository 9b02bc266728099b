import FormulaLatex.Proofs.Expr.Soundness

/-! Reading the terminals of a ranked expression gives the expression back, if it is nested no
deeper than the limit allows. With soundness, this characterizes what is read.
-/

namespace FormulaLatex.Expr

variable {options : ReaderOptions}

namespace Reading

def Due (reading : Reading) : Prop :=
  reading.phase = .operand ∨ reading.phase = .argument

def operate (reading : Reading) (op : BinaryOperator) : Reading :=
  match reading.phase with
  | .continuation last =>
      ⟨reading.enclosures, ⟨(last, op) :: reading.pending.links, 0⟩, .operand⟩
  | _ => reading

def follow (reading : Reading) (first : Expr) : List (BinaryOperator × Expr) → Reading
  | [] => reading.complete first
  | (op, second) :: rest => ((reading.complete first).operate op).follow second rest

theorem follow_append (reading : Reading) (left : Chain) (op : BinaryOperator) (right : Chain)
    : reading.follow (left.append op right).first (left.append op right).rest
        = ((reading.follow left.first left.rest).operate op).follow right.first right.rest := by
  obtain ⟨first, rest⟩ := left
  simp only [Chain.append]
  induction rest generalizing reading first with
  | nil => rfl
  | cons link rest ih => exact ih _ link.2

/-- After a chain, its last operand is at hand, and the chain is held in front of it. -/
theorem follow_spec (reading : Reading) (first : Expr)
    (rest : List (BinaryOperator × Expr))
    : ∃ last,
        (reading.follow first rest).phase = .continuation last
        ∧ (reading.follow first rest).enclosures = reading.enclosures
        ∧ Chain.ofLinks (reading.follow first rest).pending.links last
            = reading.pending.links.foldl (fun chain link => chain.cons link.1 link.2)
                ⟨negateTimes reading.pending.negations first, rest⟩ := by
  induction rest generalizing reading first with
  | nil => exact ⟨_, rfl, rfl, rfl⟩
  | cons link rest ih =>
      obtain ⟨last, phase, enclosures, chain⟩ :=
        ih ((reading.complete first).operate link.1) link.2
      exact ⟨last, phase, enclosures, chain⟩

theorem expression_follow (options : ReaderOptions) {reading : Reading} (fresh : reading.pending = {}) (chain : Chain)
    : ∃ last,
        (reading.follow chain.first chain.rest).phase = .continuation last
        ∧ (reading.follow chain.first chain.rest).enclosures = reading.enclosures
        ∧ (reading.follow chain.first chain.rest).expression options last
            = chain.toExpr options.powerAssociativity := by
  obtain ⟨last, phase, enclosures, held⟩ := reading.follow_spec chain.first chain.rest
  refine ⟨last, phase, enclosures, ?_⟩
  rw [expression, held, fresh]
  rfl

/-- A terminal that is due is looked at after the depth, unless it ends the arguments of a call.
-/
theorem step_of_due {reading : Reading} {terminal : Terminal} (due : reading.Due)
    (other : terminal.role ≠ .closing)
    : reading.step options terminal = (reading.withinDepth options).bind (·.begin terminal) := by
  unfold step
  split
  · contradiction
  · rfl
  · rfl
  · rename_i phase _
    rcases due with due | due <;> simp [due] at phase
  · rename_i phase _
    rcases due with due | due <;> simp [due] at phase
  · rename_i phase
    rcases due with due | due <;> simp [due] at phase

/-- Within the limit, a terminal that is due begins an operand, unless it ends the arguments
of a call.
-/
theorem step_due {reading : Reading} {terminal : Terminal} (due : reading.Due)
    (within : reading.depth options.powerAssociativity < options.maxDepth)
    (other : terminal.role ≠ .closing)
    : reading.step options terminal = reading.begin terminal := by
  rw [step_of_due due other, withinDepth, if_pos within]
  rfl

theorem step_operator_of_continuation {reading : Reading} {operand : Expr}
    (phase : reading.phase = .continuation operand) {terminal : Terminal} {op : BinaryOperator}
    (role : terminal.role = .operator op)
    : reading.step options terminal = .ok (reading.operate op) := by
  simp [step, phase, extend, role, operate]

theorem step_operator (reading : Reading) (chain : Chain) {terminal : Terminal}
    {op : BinaryOperator} (role : terminal.role = .operator op)
    : (reading.follow chain.first chain.rest).step options terminal
        = .ok ((reading.follow chain.first chain.rest).operate op) := by
  obtain ⟨last, phase, _⟩ := reading.follow_spec chain.first chain.rest
  exact step_operator_of_continuation phase role

theorem step_closing_group {reading : Reading} {before : Pending} {outer : List Enclosure}
    (fresh : reading.pending = {}) (open_ : reading.enclosures = ⟨before, .group⟩ :: outer)
    (chain : Chain) {terminal : Terminal} (role : terminal.role = .closing)
    : (reading.follow chain.first chain.rest).step options terminal
        = .ok (leave outer before (.group (chain.toExpr options.powerAssociativity))) := by
  obtain ⟨last, phase, enclosures, whole⟩ := expression_follow options fresh chain
  simp [step, phase, extend, role, enclosures, open_, whole]

theorem step_closing_call {reading : Reading} {before : Pending} {outer : List Enclosure}
    {name : String} {arguments : List Expr} (fresh : reading.pending = {})
    (open_ : reading.enclosures = ⟨before, .call name arguments⟩ :: outer)
    (chain : Chain) {terminal : Terminal} (role : terminal.role = .closing)
    : (reading.follow chain.first chain.rest).step options terminal
        = .ok (leave outer before (.call (Text.upperCase name)
            (arguments.reverse ++ [chain.toExpr options.powerAssociativity]))) := by
  obtain ⟨last, phase, enclosures, whole⟩ := expression_follow options fresh chain
  simp [step, phase, extend, role, enclosures, open_, whole]

theorem step_separator {reading : Reading} {before : Pending} {outer : List Enclosure}
    {name : String} {arguments : List Expr} (fresh : reading.pending = {})
    (open_ : reading.enclosures = ⟨before, .call name arguments⟩ :: outer)
    (chain : Chain) {terminal : Terminal} (role : terminal.role = .separator)
    : (reading.follow chain.first chain.rest).step options terminal
        = .ok ⟨⟨before, .call name (chain.toExpr options.powerAssociativity :: arguments)⟩
            :: outer, {}, .operand⟩ := by
  obtain ⟨last, phase, enclosures, whole⟩ := expression_follow options fresh chain
  simp [step, phase, extend, role, enclosures, open_, whole]

theorem phase_operate {reading : Reading} {operand : Expr}
    (phase : reading.phase = .continuation operand) (op : BinaryOperator)
    : (reading.operate op).phase = .operand := by
  simp [operate, phase]

theorem due_operate (reading : Reading) (chain : Chain) (op : BinaryOperator)
    : ((reading.follow chain.first chain.rest).operate op).Due := by
  obtain ⟨last, phase, _⟩ := reading.follow_spec chain.first chain.rest
  exact Or.inl (phase_operate phase op)

theorem depth_operate_left (options : ReaderOptions) (reading : Reading) (chain : Chain)
    (op : BinaryOperator)
    (grouping : op = .power → options.powerAssociativity = .left)
    : ((reading.follow chain.first chain.rest).operate op).depth options.powerAssociativity
        ≤ reading.depth options.powerAssociativity := by
  obtain ⟨last, phase, enclosures, _⟩ := reading.follow_spec chain.first chain.rest
  have free : nextRun options.powerAssociativity
      (Pending.depth options.powerAssociativity
        ⟨(reading.follow chain.first chain.rest).pending.links, 0⟩) op = 0 := by
    unfold nextRun
    split
    · rename_i right
      rw [grouping rfl] at right
      cases right
    · rfl
  simp [operate, phase, depth, depth_links_cons, free, enclosures]

theorem depth_operate_right (reading : Reading) (operand : Expr)
    (grouping : options.powerAssociativity = .right)
    : ((reading.complete operand).operate .power).depth options.powerAssociativity
        ≤ reading.depth options.powerAssociativity + 1 := by
  obtain ⟨enclosures, ⟨links, negations⟩, phase⟩ := reading
  simp only [complete, operate, depth, depth_links_cons, nextRun, grouping]
  rw [depth_negations _ _ negations]
  omega

/-- The reading after a minus sign where an operand is due. -/
def negate (reading : Reading) : Reading :=
  ⟨reading.enclosures, ⟨reading.pending.links, reading.pending.negations + 1⟩, .operand⟩

theorem depth_negate (associativity : PowerAssociativity) (reading : Reading)
    : reading.negate.depth associativity = reading.depth associativity + 1 := by
  obtain ⟨enclosures, ⟨links, negations⟩, phase⟩ := reading
  simp only [negate, depth]
  rw [depth_negations, depth_negations _ _ negations]
  omega

theorem depth_enter (associativity : PowerAssociativity) (reading : Reading)
    (bracket : Bracket) (phase : Phase)
    : (reading.enter bracket phase).depth associativity = reading.depth associativity + 1 := by
  have none : Pending.depth associativity {} = 0 := by
    cases associativity <;> rfl
  simp only [enter, depth, none, Enclosure.innerDepth]
  omega

/-- Reading the terminals of an expression where an operand is due, within the limit, follows
the chain of the expression.
-/
def Follows (options : ReaderOptions) (e : Expr) : Prop :=
  ∀ {terminals : List Terminal} {reading : Reading},
    terminals.map Terminal.canonical = e.terminals
    → reading.Due
    → reading.depth options.powerAssociativity + e.depth options.powerAssociativity
        ≤ options.maxDepth
    → terminals.foldlM (step options) reading
        = .ok (reading.follow e.toChain.first e.toChain.rest)

theorem foldlM_append_ok {front back : List Terminal} {reading middle : Reading}
    (run : front.foldlM (step options) reading = .ok middle)
    : (front ++ back).foldlM (step options) reading = back.foldlM (step options) middle := by
  rw [List.foldlM_append, run]
  rfl

theorem foldlM_cons_ok {terminal : Terminal} {rest : List Terminal} {reading middle : Reading}
    (run : reading.step options terminal = .ok middle)
    : (terminal :: rest).foldlM (step options) reading
        = rest.foldlM (step options) middle := by
  rw [List.foldlM_cons, run]
  rfl

theorem role_of_canonical {terminal other : Terminal} (same : terminal.canonical = other)
    : terminal.role = other.role := by
  rw [← terminal.canonical_role, same]

/-- Reading the arguments of a call and the end of the call gives the call, where some of its
arguments may have been read before.
-/
theorem foldlM_arguments {before : Pending} {outer : List Enclosure} {name : String}
    {first : Expr} {rest held : List Expr} {reading : Reading} {terminals : List Terminal}
    (due : reading.Due) (fresh : reading.pending = {})
    (inside : reading.enclosures = ⟨before, .call name held⟩ :: outer)
    (ranked
      : ∀ argument ∈ first :: rest,
          Ranked options.powerAssociativity (.chain .comparison) argument)
    (follows : ∀ argument ∈ first :: rest, Follows options argument)
    (within
      : reading.depth options.powerAssociativity
            + argumentDepth options.powerAssociativity (first :: rest)
          ≤ options.maxDepth)
    (same
      : terminals.map Terminal.canonical
          = argumentTerminals (first :: rest) ++ [Terminal.closing])
    : terminals.foldlM (step options) reading
        = .ok (leave outer before (.call (Text.upperCase name)
            (held.reverse ++ first :: rest))) := by
  induction rest generalizing first held reading terminals with
  | nil =>
      simp only [argumentTerminals, furtherTerminals, List.append_nil] at same
      obtain ⟨front, back, rfl, frontSame, backSame⟩ := List.map_eq_append_iff.mp same
      obtain ⟨terminal, rfl, closes⟩ := List.map_eq_singleton_iff.mp backSame
      simp only [argumentDepth, Nat.max_zero] at within
      rw [foldlM_append_ok (follows first List.mem_cons_self frontSame due within),
        foldlM_cons_ok (step_closing_call fresh inside first.toChain (role_of_canonical closes)),
        (ranked first List.mem_cons_self).toExpr_toChain]
      rfl
  | cons second rest ih =>
      obtain ⟨firstRanked, restRanked⟩ := List.forall_mem_cons.mp ranked
      obtain ⟨firstFollows, restFollow⟩ := List.forall_mem_cons.mp follows
      rw [argumentTerminals, List.append_assoc] at same
      obtain ⟨front, back, rfl, frontSame, backSame⟩ := List.map_eq_append_iff.mp same
      rw [furtherTerminals_eq (List.cons_ne_nil second rest), List.cons_append] at backSame
      obtain ⟨terminal, back, rfl, separates, backSame⟩ := List.map_eq_cons_iff.mp backSame
      rw [argumentDepth] at within
      rw [foldlM_append_ok (firstFollows frontSame due (by omega)),
        foldlM_cons_ok (step_separator fresh inside first.toChain (role_of_canonical separates)),
        firstRanked.toExpr_toChain,
        ih (.inl rfl) rfl rfl restRanked restFollow ?_ backSame]
      · simp
      · simp only [depth, inside, fresh] at within ⊢
        simp only [Enclosure.innerDepth] at within ⊢
        omega

/-- An operand read by one step is followed. -/
theorem foldlM_single {terminals : List Terminal} {terminal : Terminal} {reading : Reading}
    {operand : Expr} (same : terminals.map Terminal.canonical = [terminal])
    (due : reading.Due)
    (within : reading.depth options.powerAssociativity < options.maxDepth)
    (other : terminal.role ≠ .closing)
    (begins
      : ∀ actual : Terminal,
          actual.canonical = terminal → reading.begin actual = .ok (reading.complete operand))
    : terminals.foldlM (step options) reading = .ok (reading.complete operand) := by
  obtain ⟨actual, rfl, canonical⟩ := List.map_eq_singleton_iff.mp same
  rw [foldlM_cons_ok ((step_due due within _).trans (begins actual canonical))]
  · rfl
  · rwa [role_of_canonical canonical]

/-- A ranked expression is followed when its terminals are read. -/
theorem follows_of_ranked {category : Category} {e : Expr}
    (ranked : Ranked options.powerAssociativity category e)
    : Follows options e := by
  induction ranked with
  | operand _ ih => exact ih
  | @left rank op l r sort grouping leftRanked rightRanked leftIh rightIh =>
      intro terminals reading same due within
      obtain ⟨front, back, rfl, frontSame, backSame⟩ := List.map_eq_append_iff.mp same
      obtain ⟨terminal, back, rfl, operates, backSame⟩ := List.map_eq_cons_iff.mp backSame
      have shallow := depth_operate_left options reading l.toChain op
        (fun power => grouping (by rw [← sort, power]; rfl))
      simp only [Expr.depth] at within
      rw [foldlM_append_ok (leftIh frontSame due (by omega)),
        foldlM_cons_ok (step_operator reading l.toChain (role_of_canonical operates)),
        rightIh backSame (due_operate reading l.toChain op) (by omega)]
      exact congrArg _ (follow_append reading l.toChain op r.toChain).symm
  | @right l r grouping leftRanked rightRanked leftIh rightIh =>
      intro terminals reading same due within
      have single : l.toChain = ⟨l, []⟩ := leftRanked.groupTo_toChain
      obtain ⟨front, back, rfl, frontSame, backSame⟩ := List.map_eq_append_iff.mp same
      obtain ⟨terminal, back, rfl, operates, backSame⟩ := List.map_eq_cons_iff.mp backSame
      have deeper := depth_operate_right reading l grouping
      simp only [Expr.depth, exponentCost, grouping] at within deeper
      rw [foldlM_append_ok (leftIh frontSame due (by rw [grouping]; omega)),
        foldlM_cons_ok (step_operator reading l.toChain (role_of_canonical operates)),
        rightIh backSame (due_operate reading l.toChain _)
          (by rw [grouping, single]; exact Nat.le_trans (Nat.add_le_add_right deeper _) (by omega))]
      exact congrArg _ (follow_append reading l.toChain _ r.toChain).symm
  | @number text =>
      intro terminals reading same due within
      refine foldlM_single same due within (by simp) ?_
      rintro ⟨role, _⟩ canonical
      obtain rfl : role = .number := role_of_canonical canonical
      cases canonical
      rfl
  | @reference name =>
      intro terminals reading same due within
      refine foldlM_single same due within (by simp) ?_
      rintro ⟨role, _⟩ canonical
      obtain rfl : role = .reference := role_of_canonical canonical
      cases canonical
      rfl
  | @negate e ranked ih =>
      intro terminals reading same due within
      have single : e.toChain = ⟨e, []⟩ := ranked.groupTo_toChain
      obtain ⟨terminal, back, rfl, negates, backSame⟩ := List.map_eq_cons_iff.mp same
      have negated : reading.step options terminal = .ok reading.negate := by
        have role : terminal.role = .operator .subtract := role_of_canonical negates
        rw [step_due due (Nat.lt_of_lt_of_le (by simp [Expr.depth]) within) (by simp [role]),
          begin, role]
        rfl
      rw [foldlM_cons_ok negated, ih backSame (.inl rfl), single]
      · simp [follow, complete, negate, toChain, negateTimes_negate]
      · rw [depth_negate]
        simp only [Expr.depth] at within
        omega
  | @call name arguments ranked ih =>
      intro terminals reading same due within
      obtain ⟨terminal, back, rfl, calls, backSame⟩ := List.map_eq_cons_iff.mp same
      obtain ⟨bracket, back, rfl, opens, backSame⟩ := List.map_eq_cons_iff.mp backSame
      have role : terminal.role = .function := role_of_canonical calls
      have upper : Text.upperCase terminal.text = name := by
        simpa [Terminal.canonical, role] using calls
      have named : reading.step options terminal
          = .ok { reading with phase := .opening terminal.text } := by
        rw [step_due due (Nat.lt_of_lt_of_le (by simp [Expr.depth]) within) (by simp [role]),
          begin, role]
      have opened : step options { reading with phase := .opening terminal.text } bracket
          = .ok (reading.enter (.call terminal.text []) .argument) := by
        have role : bracket.role = .opening := role_of_canonical opens
        simp [step, role, enter]
      rw [foldlM_cons_ok named, foldlM_cons_ok opened]
      cases arguments with
      | nil =>
          obtain ⟨last, rfl, closes⟩ := List.map_eq_singleton_iff.mp backSame
          have role : last.role = .closing := role_of_canonical closes
          have left_ : step options (reading.enter (.call terminal.text []) .argument) last
              = .ok (leave reading.enclosures reading.pending (.call name [])) := by
            simp [step, enter, role, upper]
          rw [foldlM_cons_ok left_]
          rfl
      | cons first rest =>
          rw [foldlM_arguments (.inr rfl) rfl rfl ranked ih ?_ backSame, upper]
          · rfl
          · rw [depth_enter]
            simp only [Expr.depth] at within
            omega
  | @group e ranked ih =>
      intro terminals reading same due within
      obtain ⟨terminal, back, rfl, opens, backSame⟩ := List.map_eq_cons_iff.mp same
      obtain ⟨inner, back, rfl, innerSame, backSame⟩ := List.map_eq_append_iff.mp backSame
      obtain ⟨last, rfl, closes⟩ := List.map_eq_singleton_iff.mp backSame
      simp only [Expr.depth] at within
      have opened : reading.step options terminal = .ok (reading.enter .group .operand) := by
        have role : terminal.role = .opening := role_of_canonical opens
        rw [step_due due (Nat.lt_of_lt_of_le (by simp) within) (by simp [role]),
          begin, role]
      rw [foldlM_cons_ok opened, foldlM_append_ok (ih innerSame (.inl rfl) ?_),
        foldlM_cons_ok (step_closing_group rfl rfl e.toChain (role_of_canonical closes)),
        ranked.toExpr_toChain]
      · rfl
      · rw [depth_enter]
        omega

end Reading

/-- The terminals of a ranked expression that is not too deep are read as that expression. -/
theorem ofTerminals_complete {terminals : List Terminal} {e : Expr}
    (ranked : Ranked options.powerAssociativity (.chain .comparison) e)
    (within : e.depth options.powerAssociativity ≤ options.maxDepth)
    (same : terminals.map Terminal.canonical = e.terminals)
    : ofTerminals terminals options = .ok e := by
  have start : Reading.depth options.powerAssociativity {} = 0 := by
    cases options.powerAssociativity <;> rfl
  have run : terminals.foldlM (Reading.step options) {}
      = .ok (Reading.follow {} e.toChain.first e.toChain.rest) :=
    Reading.follows_of_ranked ranked same (.inl rfl) (by rw [start]; omega)
  obtain ⟨last, phase, enclosures, whole⟩ :=
    Reading.expression_follow options (show Reading.pending {} = {} from rfl) e.toChain
  rw [ofTerminals, run]
  simp [bind, Except.bind, Reading.finish, phase, enclosures, whole, ranked.toExpr_toChain]

/-- Exactly the terminals of an expression are read as it, if it is ranked and not too deep. -/
theorem ofTerminals_eq_ok_iff {terminals : List Terminal} {e : Expr}
    : ofTerminals terminals options = .ok e
        ↔ Ranked options.powerAssociativity (.chain .comparison) e
          ∧ e.depth options.powerAssociativity ≤ options.maxDepth
          ∧ terminals.map Terminal.canonical = e.terminals := by
  refine ⟨ofTerminals_sound, ?_⟩
  rintro ⟨ranked, within, same⟩
  exact ofTerminals_complete ranked within same

/-- Ranked expressions with the same terminals are the same, where the terminals can be read. -/
theorem Ranked.eq_of_terminals {associativity : PowerAssociativity} {e other : Expr}
    {terminals : List Terminal}
    (ranked : Ranked associativity (.chain .comparison) e)
    (otherRanked : Ranked associativity (.chain .comparison) other)
    (same : terminals.map Terminal.canonical = e.terminals)
    (otherSame : terminals.map Terminal.canonical = other.terminals)
    : e = other := by
  let options : ReaderOptions :=
    ⟨max (e.depth associativity) (other.depth associativity), associativity⟩
  have first : ofTerminals terminals options = .ok e :=
    ofTerminals_complete ranked (Nat.le_max_left _ _) same
  have second : ofTerminals terminals options = .ok other :=
    ofTerminals_complete otherRanked (Nat.le_max_right _ _) otherSame
  exact Except.ok.inj (first.symm.trans second)

end FormulaLatex.Expr
