import FormulaLatex.Proofs.Expr.Fusion

/-! The limit on depth. All that it can do to a result is to put the error about the limit in its
place, and a list of tokens is never nested deeper than it is long.
-/

namespace FormulaLatex

namespace Expr

variable {associativity : PowerAssociativity} {limit larger : Nat}

-----------------------------------------------------------------------------------------
-- Two limits
-----------------------------------------------------------------------------------------

/-- A result under a limit is the other result, or the error about that limit. -/
def AgreesUpTo {α : Type} (limit : Nat) (result other : Except SyntaxError α) : Prop :=
  result = other ∨ result = .error (.tooDeep limit)

theorem AgreesUpTo.bind {α β : Type} {result other : Except SyntaxError α}
    {next following : α → Except SyntaxError β} (agrees : AgreesUpTo limit result other)
    (nextAgree : ∀ value, AgreesUpTo limit (next value) (following value))
    : AgreesUpTo limit (result >>= next) (other >>= following) := by
  rcases agrees with rfl | rfl
  · cases result with
    | error error => exact Or.inl rfl
    | ok value => exact nextAgree value
  · exact Or.inr rfl

namespace Reading

theorem withinDepth_agrees (grows : limit ≤ larger) (reading : Reading)
    : AgreesUpTo limit (reading.withinDepth ⟨limit, associativity⟩)
        (reading.withinDepth ⟨larger, associativity⟩) := by
  simp only [withinDepth]
  split
  · rename_i within
    rw [if_pos (Nat.lt_of_lt_of_le within grows)]
    exact Or.inl rfl
  · exact Or.inr rfl

/-- A step looks at the limit only where an operand is due. -/
theorem step_agrees (grows : limit ≤ larger) (reading : Reading) (terminal : Terminal)
    : AgreesUpTo limit (reading.step ⟨limit, associativity⟩ terminal)
        (reading.step ⟨larger, associativity⟩ terminal) := by
  have due
      : AgreesUpTo limit
          (reading.withinDepth ⟨limit, associativity⟩ >>= (·.begin terminal))
          (reading.withinDepth ⟨larger, associativity⟩ >>= (·.begin terminal)) :=
    (withinDepth_agrees grows reading).bind fun _ => Or.inl rfl
  unfold step
  split
  · exact Or.inl rfl
  · exact due
  · exact due
  · exact Or.inl rfl
  · exact Or.inl rfl
  · exact Or.inl rfl

theorem finish_agrees (grows : limit ≤ larger) (reading : Reading)
    : AgreesUpTo limit (reading.finish ⟨limit, associativity⟩)
        (reading.finish ⟨larger, associativity⟩) := by
  have due
      : AgreesUpTo limit
          (reading.withinDepth ⟨limit, associativity⟩ >>= fun _ => (.error .unexpectedEnd
            : Except SyntaxError Expr))
          (reading.withinDepth ⟨larger, associativity⟩ >>= fun _ => .error .unexpectedEnd) :=
    (withinDepth_agrees grows reading).bind fun _ => Or.inl rfl
  unfold finish
  split
  · exact due
  · exact due
  · exact Or.inl rfl
  · exact Or.inl rfl
  · exact Or.inl rfl
  · exact Or.inl rfl

theorem foldlM_agrees (grows : limit ≤ larger) (terminals : List Terminal) (reading : Reading)
    : AgreesUpTo limit (terminals.foldlM (step ⟨limit, associativity⟩) reading)
        (terminals.foldlM (step ⟨larger, associativity⟩) reading) := by
  induction terminals generalizing reading with
  | nil => exact Or.inl rfl
  | cons terminal rest ih =>
      rw [List.foldlM_cons, List.foldlM_cons]
      exact (step_agrees grows reading terminal).bind ih

-----------------------------------------------------------------------------------------
-- Depth and length
-----------------------------------------------------------------------------------------

theorem depth_complete_le (reading : Reading) (operand : Expr)
    : (reading.complete operand).depth associativity ≤ reading.depth associativity := by
  obtain ⟨enclosures, ⟨links, negations⟩, phase⟩ := reading
  simp only [complete, depth]
  rw [depth_negations _ _ negations]
  omega

theorem innerDepth_le (associativity : PowerAssociativity) (reading : Reading)
    : Enclosure.innerDepth associativity reading.enclosures ≤ reading.depth associativity :=
  Nat.le_add_left _ _

theorem depth_leave_le {reading : Reading} {before : Pending} {bracket : Bracket}
    {outer : List Enclosure} (inside : reading.enclosures = ⟨before, bracket⟩ :: outer)
    (operand : Expr)
    : (leave outer before operand).depth associativity ≤ reading.depth associativity := by
  have inner := innerDepth_le associativity reading
  refine Nat.le_trans (depth_complete_le _ operand) (Nat.le_trans ?_ inner)
  simp only [inside, depth, Enclosure.innerDepth]
  omega

theorem depth_operate_le (associativity : PowerAssociativity) (reading : Reading)
    (op : BinaryOperator)
    : (reading.operate op).depth associativity ≤ reading.depth associativity + 1 := by
  obtain ⟨enclosures, ⟨links, negations⟩, phase⟩ := reading
  have longer (run : Nat) : nextRun associativity run op ≤ run + 1 := by
    unfold nextRun
    split <;> omega
  cases phase with
  | continuation last =>
      have run := longer (Pending.depth associativity ⟨links, 0⟩)
      simp only [operate, depth, depth_links_cons]
      rw [depth_negations _ _ negations]
      omega
  | _ => exact Nat.le_succ _

theorem depth_begin_le {reading next : Reading} {terminal : Terminal}
    (accepted : reading.begin terminal = .ok next)
    : next.depth associativity ≤ reading.depth associativity + 1 := by
  obtain ⟨role, text⟩ := terminal
  cases role with
  | number | reference =>
      cases accepted
      exact Nat.le_succ_of_le (depth_complete_le reading _)
  | function =>
      cases accepted
      exact Nat.le_succ _
  | opening =>
      cases accepted
      exact Nat.le_of_eq (depth_enter associativity reading .group .operand)
  | operator op =>
      cases op with
      | subtract =>
          cases accepted
          exact Nat.le_of_eq (depth_negate associativity reading)
      | _ => cases accepted
  | closing | separator | stray => cases accepted

theorem depth_extend_le {options : ReaderOptions} {reading next : Reading} {operand : Expr}
    {terminal : Terminal} (following : reading.phase = .continuation operand)
    (accepted : reading.extend options operand terminal = .ok next)
    : next.depth associativity ≤ reading.depth associativity + 1 := by
  unfold extend at accepted
  split at accepted
  · rename_i op _
    cases accepted
    have operated := depth_operate_le associativity reading op
    rwa [operate, following] at operated
  · rename_i inside
    cases accepted
    exact Nat.le_succ_of_le (depth_leave_le inside _)
  · rename_i inside
    cases accepted
    exact Nat.le_succ_of_le (depth_leave_le inside _)
  · rename_i inside
    cases accepted
    have inner := innerDepth_le associativity reading
    rw [inside] at inner
    cases associativity <;> simpa [depth, Pending.depth, Enclosure.innerDepth] using
      Nat.le_succ_of_le inner
  · cases accepted

/-- Every terminal leads at most one level deeper. -/
theorem depth_step_le {options : ReaderOptions} {reading next : Reading} {terminal : Terminal}
    (accepted : reading.step options terminal = .ok next)
    : next.depth associativity ≤ reading.depth associativity + 1 := by
  have due (begun : (reading.withinDepth options >>= (·.begin terminal)) = .ok next)
      : next.depth associativity ≤ reading.depth associativity + 1 :=
    depth_begin_le (withinDepth_bind_eq_ok begun).2
  unfold step at accepted
  split at accepted
  · rename_i inside _
    cases accepted
    exact Nat.le_succ_of_le (depth_leave_le inside _)
  · exact due accepted
  · exact due accepted
  · cases accepted
    exact Nat.le_of_eq (depth_enter associativity reading _ _)
  · cases accepted
  · rename_i following
    exact depth_extend_le following accepted

/-- Where there is a level left, a step does not fail for the depth. -/
theorem step_ne_tooDeep {options : ReaderOptions} {reading : Reading} (terminal : Terminal)
    (within : reading.depth options.powerAssociativity < options.maxDepth) (limit : Nat)
    : reading.step options terminal ≠ .error (.tooDeep limit) := by
  have begun : reading.begin terminal ≠ .error (.tooDeep limit) := by
    unfold begin
    split <;> simp
  have refused : reading.refusal terminal ≠ .tooDeep limit := by
    unfold refusal
    split <;> simp
  unfold step
  rw [withinDepth, if_pos within]
  split
  · simp
  · exact begun
  · exact begun
  · simp
  · simp
  · unfold extend
    split
    · simp
    · simp
    · simp
    · simp
    · simpa using refused

theorem finish_ne_tooDeep {options : ReaderOptions} {reading : Reading}
    (within : reading.depth options.powerAssociativity < options.maxDepth) (limit : Nat)
    : reading.finish options ≠ .error (.tooDeep limit) := by
  unfold finish
  rw [withinDepth, if_pos within]
  split <;> simp [bind, Except.bind]

/-- A run that could not come to the limit even if every terminal led a level deeper does not
fail for the depth.
-/
theorem run_ne_tooDeep {options : ReaderOptions} {terminals : List Terminal} {reading : Reading}
    (within
      : reading.depth options.powerAssociativity + terminals.length < options.maxDepth)
    (limit : Nat)
    : (terminals.foldlM (step options) reading >>= (·.finish options))
        ≠ .error (.tooDeep limit) := by
  induction terminals generalizing reading with
  | nil => exact finish_ne_tooDeep within limit
  | cons terminal rest ih =>
      rw [List.length_cons] at within
      rw [List.foldlM_cons]
      cases stepped : reading.step options terminal with
      | error error =>
          intro failed
          have shallow : reading.depth options.powerAssociativity < options.maxDepth := by omega
          refine step_ne_tooDeep terminal shallow limit ?_
          rw [stepped]
          exact congrArg _ (Except.error.inj failed)
      | ok next =>
          have deeper : next.depth options.powerAssociativity
              ≤ reading.depth options.powerAssociativity + 1 :=
            depth_step_le stepped
          exact ih (by omega)

end Reading

-----------------------------------------------------------------------------------------
-- Results
-----------------------------------------------------------------------------------------

theorem ofTerminals_agrees (grows : limit ≤ larger) (terminals : List Terminal)
    : AgreesUpTo limit (ofTerminals terminals ⟨limit, associativity⟩)
        (ofTerminals terminals ⟨larger, associativity⟩) :=
  (Reading.foldlM_agrees grows terminals {}).bind (Reading.finish_agrees grows)

theorem ofTerminals_ne_tooDeep {options : ReaderOptions} {terminals : List Terminal}
    (within : terminals.length < options.maxDepth) (limit : Nat)
    : ofTerminals terminals options ≠ .error (.tooDeep limit) := by
  have start : Reading.depth options.powerAssociativity {} = 0 := by
    cases options.powerAssociativity <;> rfl
  exact Reading.run_ne_tooDeep (by rwa [start, Nat.zero_add]) limit

end Expr

theorem Terminal.length_fuseAll_le (tokens : List Token)
    : (fuseAll tokens).length ≤ tokens.length := by
  fun_induction fuseAll tokens with
  | case1 => exact Nat.le_refl _
  | case2 => exact Nat.le_refl _
  | case3 token next rest op fused ih =>
      simp only [List.length_cons]
      omega
  | case4 token next rest fused ih => exact Nat.succ_le_succ ih

theorem Terminal.length_ofTokens_le (tokens : List Token)
    : (ofTokens tokens).length ≤ tokens.length :=
  Nat.le_trans (length_fuseAll_le _) (List.length_filter_le _ _)

/-- The limit on depth only ever puts its own error in the place of a result: under a smaller
limit, tokens are read as the same expression or refused with the same error, or else the error
is about the smaller limit. From one more than their number on the limit makes no difference,
and nothing is too deep.
-/
theorem Expr.ofTokens_under_limits (tokens : List Token) (associativity : PowerAssociativity)
    : (∀ limit larger : Nat, limit ≤ larger
        → Expr.ofTokens tokens ⟨limit, associativity⟩
              = Expr.ofTokens tokens ⟨larger, associativity⟩
          ∨ Expr.ofTokens tokens ⟨limit, associativity⟩ = .error (.tooDeep limit))
      ∧ ∀ limit : Nat, tokens.length < limit
          → Expr.ofTokens tokens ⟨limit, associativity⟩
                = Expr.ofTokens tokens ⟨tokens.length + 1, associativity⟩
            ∧ ∀ other, Expr.ofTokens tokens ⟨limit, associativity⟩ ≠ .error (.tooDeep other) := by
  have agrees {limit larger : Nat} (grows : limit ≤ larger)
      : Expr.AgreesUpTo limit (Expr.ofTokens tokens ⟨limit, associativity⟩)
          (Expr.ofTokens tokens ⟨larger, associativity⟩) :=
    Expr.ofTerminals_agrees grows (Terminal.ofTokens tokens)
  have shallow {limit : Nat} (enough : tokens.length < limit) (other : Nat)
      : Expr.ofTokens tokens ⟨limit, associativity⟩ ≠ .error (.tooDeep other) :=
    Expr.ofTerminals_ne_tooDeep
      (Nat.lt_of_le_of_lt (Terminal.length_ofTokens_le tokens) enough) other
  refine ⟨fun limit larger => agrees, fun limit enough => ⟨?_, shallow enough⟩⟩
  rcases agrees (Nat.succ_le_of_lt enough) with same | tooDeep
  · exact same.symm
  · exact absurd tooDeep (shallow (Nat.lt_succ_self _) _)

/-- The tokens of `2^-a1`, with powers grouped from the right: the reference lies at the third
level, so two levels are too few, and three are as good as seven.
-/
theorem ofTokens_under_limits_exponent
    : let tokens : List Token :=
        [⟨.number, "2", 0⟩, ⟨.operator, "^", 1⟩, ⟨.operator, "-", 2⟩, ⟨.reference, "A1", 3⟩]
      let e : Expr := .binary .power (.number "2") (.negate (.reference "A1"))
      2 ≤ 3
      ∧ Expr.ofTokens tokens ⟨2, .right⟩ = .error (.tooDeep 2)
      ∧ Expr.ofTokens tokens ⟨3, .right⟩ = .ok e
      ∧ tokens.length < 7
      ∧ Expr.ofTokens tokens ⟨7, .right⟩ = .ok e := by
  intro tokens e
  obtain ⟨agree, constant⟩ := Expr.ofTokens_under_limits tokens .right
  have three : Expr.ofTokens tokens ⟨3, .right⟩ = .ok e := rfl
  have tooDeep : Expr.ofTokens tokens ⟨2, .right⟩ = .error (.tooDeep 2) :=
    (agree 2 3 (by decide)).resolve_left nofun
  exact ⟨by decide, tooDeep, three, by decide, (constant 7 (by decide)).1.trans rfl⟩

end FormulaLatex
