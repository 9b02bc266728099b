import FormulaLatex.Proofs.Expr.Grouping

/-! What a reading holds. Every step keeps the terminals read so far, in order, inside the
brackets that are still open, and every operand held is ranked and within the limit. So an
expression that has been read is ranked, within the limit, and has the terminals read.
-/

namespace FormulaLatex.Expr

-----------------------------------------------------------------------------------------
-- The terminals that a reading holds
-----------------------------------------------------------------------------------------

def precedingTerminals : List (Expr × BinaryOperator) → List Terminal
  | [] => []
  | (operand, op) :: earlier =>
      precedingTerminals earlier ++ (operand.terminals ++ [.ofOperator op])

def Pending.terminals (pending : Pending) : List Terminal :=
  precedingTerminals pending.links
    ++ List.replicate pending.negations (.ofOperator .subtract)

def Bracket.arguments : Bracket → List Expr
  | .group => []
  | .call _ arguments => arguments

/-- The terminals of an open bracket. Each argument that it holds has been separated from the
one that follows.
-/
def Bracket.terminals : Bracket → List Terminal
  | .group => [.opening]
  | .call name arguments =>
      ⟨.function, Text.upperCase name⟩ :: .opening
        :: arguments.reverse.flatMap fun argument => argument.terminals ++ [.separator]

def enclosureTerminals : List Enclosure → List Terminal
  | [] => []
  | enclosure :: outer =>
      enclosureTerminals outer ++ (enclosure.pending.terminals ++ enclosure.bracket.terminals)

def Phase.terminals : Phase → List Terminal
  | .operand | .argument => []
  | .opening function => [⟨.function, Text.upperCase function⟩]
  | .continuation last => last.terminals

/-- All terminals that a reading holds, in the order in which they were read. -/
def Reading.terminals (reading : Reading) : List Terminal :=
  enclosureTerminals reading.enclosures
    ++ (reading.pending.terminals ++ reading.phase.terminals)

theorem terminals_ofLinks (links : List (Expr × BinaryOperator)) (last : Expr)
    : (Chain.ofLinks links last).terminals = precedingTerminals links ++ last.terminals := by
  have held
      : ∀ chain : Chain,
          (links.foldl (fun chain link => chain.cons link.1 link.2) chain).terminals
            = precedingTerminals links ++ chain.terminals := by
    induction links with
    | nil => exact fun _ => rfl
    | cons link earlier ih =>
        intro chain
        simp [ih, precedingTerminals, Chain.terminals_cons]
  rw [Chain.ofLinks, held]
  simp [Chain.terminals, Chain.linkTerminals]

theorem furtherTerminals_eq {arguments : List Expr} (some : arguments ≠ [])
    : furtherTerminals arguments = .separator :: argumentTerminals arguments := by
  cases arguments with
  | nil => contradiction
  | cons first rest => rfl

theorem argumentTerminals_snoc (arguments : List Expr) (last : Expr)
    : argumentTerminals (arguments ++ [last])
        = (arguments.flatMap fun argument => argument.terminals ++ [.separator])
          ++ last.terminals := by
  induction arguments with
  | nil => simp [argumentTerminals, furtherTerminals]
  | cons first rest ih =>
      rw [List.cons_append, argumentTerminals, furtherTerminals_eq (by simp), ih]
      simp

-----------------------------------------------------------------------------------------
-- Operands held are ranked and within the limit
-----------------------------------------------------------------------------------------

variable {options : ReaderOptions}

/-- Every operand held inside a bracket is a primary that fits where it stands. -/
def LinksFit (options : ReaderOptions) (base : Nat) : List (Expr × BinaryOperator) → Prop
  | [] => True
  | (operand, _) :: earlier =>
      Fits options .primary (base + Pending.depth options.powerAssociativity ⟨earlier, 0⟩)
        operand
      ∧ LinksFit options base earlier

/-- Every operand and every argument held by the open brackets fits where it stands, and the
brackets themselves are within the limit.
-/
def EnclosuresFit (options : ReaderOptions) : List Enclosure → Prop
  | [] => True
  | enclosure :: outer =>
      LinksFit options (Enclosure.innerDepth options.powerAssociativity outer)
        enclosure.pending.links
      ∧ Enclosure.innerDepth options.powerAssociativity (enclosure :: outer) ≤ options.maxDepth
      ∧ (∀ argument ∈ enclosure.bracket.arguments,
          Fits options (.chain .comparison)
            (Enclosure.innerDepth options.powerAssociativity (enclosure :: outer)) argument)
      ∧ EnclosuresFit options outer

/-- What a phase takes for granted about the reading that is in it. -/
def PhaseFits (options : ReaderOptions) (reading : Reading) : Phase → Prop
  | .operand => True
  | .argument =>
      reading.pending = {}
      ∧ ∃ pending name outer, reading.enclosures = ⟨pending, .call name []⟩ :: outer
  | .opening _ => reading.depth options.powerAssociativity < options.maxDepth
  | .continuation operand =>
      reading.pending.negations = 0
      ∧ Fits options .primary (reading.depth options.powerAssociativity) operand

/-- The invariant of reading: whatever is held is ranked and within the limit. -/
structure Reading.Fits (options : ReaderOptions) (reading : Reading) : Prop where
  enclosures : EnclosuresFit options reading.enclosures
  links
    : LinksFit options
        (Enclosure.innerDepth options.powerAssociativity reading.enclosures)
        reading.pending.links
  phase : PhaseFits options reading reading.phase

theorem depth_links_cons (associativity : PowerAssociativity) (operand : Expr)
    (op : BinaryOperator) (links : List (Expr × BinaryOperator))
    : Pending.depth associativity ⟨(operand, op) :: links, 0⟩
        = nextRun associativity (Pending.depth associativity ⟨links, 0⟩) op := by
  cases associativity <;> cases op <;> simp [Pending.depth, nextRun]

theorem depth_negations (associativity : PowerAssociativity)
    (links : List (Expr × BinaryOperator)) (count : Nat)
    : Pending.depth associativity ⟨links, count⟩
        = count + Pending.depth associativity ⟨links, 0⟩ := by
  simp [Pending.depth]

theorem LinksFit.ofLinks {base : Nat} {links : List (Expr × BinaryOperator)} {last : Expr}
    (fits : LinksFit options base links)
    (lastFits
      : FormulaLatex.Expr.Fits options .primary
          (base + Pending.depth options.powerAssociativity ⟨links, 0⟩) last)
    : Chain.PrimariesFit options base 0 (Chain.ofLinks links last).first
        (Chain.ofLinks links last).rest := by
  have held
      : ∀ chain : Chain,
          Chain.PrimariesFit options base
            (Pending.depth options.powerAssociativity ⟨links, 0⟩) chain.first chain.rest
          → Chain.PrimariesFit options base 0
              (links.foldl (fun chain link => chain.cons link.1 link.2) chain).first
              (links.foldl (fun chain link => chain.cons link.1 link.2) chain).rest := by
    clear lastFits
    induction links with
    | nil =>
        intro chain chainFits
        cases grouping : options.powerAssociativity <;>
          simpa [Pending.depth, grouping] using chainFits
    | cons link earlier ih =>
        intro chain chainFits
        obtain ⟨operandFits, earlierFit⟩ := fits
        rw [depth_links_cons] at chainFits
        exact ih earlierFit (chain.cons link.1 link.2) ⟨operandFits, chainFits⟩
  exact held ⟨last, []⟩ lastFits

namespace Reading

theorem expression_fits {reading : Reading} {operand : Expr}
    (links
      : LinksFit options (Enclosure.innerDepth options.powerAssociativity reading.enclosures)
          reading.pending.links)
    (whole : PhaseFits options reading (.continuation operand))
    : FormulaLatex.Expr.Fits options (.chain .comparison)
        (Enclosure.innerDepth options.powerAssociativity reading.enclosures)
        (reading.expression options operand) := by
  obtain ⟨enclosures, ⟨held, negations⟩, phase⟩ := reading
  obtain ⟨none, operandFits⟩ := whole
  obtain rfl : negations = 0 := none
  rw [depth, Nat.add_comm] at operandFits
  exact (links.ofLinks operandFits).toExpr

theorem terminals_expression (options : ReaderOptions) (reading : Reading) (operand : Expr)
    : (reading.expression options operand).terminals
        = precedingTerminals reading.pending.links ++ operand.terminals := by
  rw [expression, Chain.terminals_toExpr, terminals_ofLinks]

-----------------------------------------------------------------------------------------
-- Steps
-----------------------------------------------------------------------------------------

/-- A step from one reading to another keeps the invariant and adds a terminal. -/
structure Advances (options : ReaderOptions) (reading : Reading) (terminal : Terminal)
    (next : Reading)
    : Prop where
  fits : next.Fits options
  terminals : next.terminals = reading.terminals ++ [terminal.canonical]

theorem complete_fits {reading : Reading} {operand : Expr}
    (enclosures : EnclosuresFit options reading.enclosures)
    (links
      : LinksFit options (Enclosure.innerDepth options.powerAssociativity reading.enclosures)
          reading.pending.links)
    (operandFits
      : FormulaLatex.Expr.Fits options .primary (reading.depth options.powerAssociativity)
          operand)
    : (reading.complete operand).Fits options := by
  refine ⟨enclosures, links, rfl, operandFits.ranked.negateTimes _, ?_⟩
  have within := operandFits.within
  simp only [complete, depth, depth_negateTimes] at within ⊢
  rw [depth_negations]
  rw [show reading.pending = ⟨reading.pending.links, reading.pending.negations⟩ from rfl,
    depth_negations] at within
  omega

theorem terminals_complete (reading : Reading) (operand : Expr)
    : (reading.complete operand).terminals
        = enclosureTerminals reading.enclosures
          ++ (reading.pending.terminals ++ operand.terminals) := by
  simp [complete, terminals, Pending.terminals, Phase.terminals, terminals_negateTimes]

theorem leave_fits {enclosure : Enclosure} {outer : List Enclosure} {operand : Expr}
    (enclosures : EnclosuresFit options (enclosure :: outer))
    (ranked : Ranked options.powerAssociativity .primary operand)
    (within
      : Enclosure.innerDepth options.powerAssociativity (enclosure :: outer)
            + operand.depth options.powerAssociativity
          ≤ options.maxDepth + 1)
    : (leave outer enclosure.pending operand).Fits options := by
  obtain ⟨links, _, _, outerFit⟩ := enclosures
  refine complete_fits outerFit links ⟨ranked, ?_⟩
  simp only [Enclosure.innerDepth] at within
  simp only [depth]
  omega

theorem enter_fits {reading : Reading} {bracket : Bracket} {phase : Phase}
    (enclosures : EnclosuresFit options reading.enclosures)
    (links
      : LinksFit options (Enclosure.innerDepth options.powerAssociativity reading.enclosures)
          reading.pending.links)
    (within : reading.depth options.powerAssociativity < options.maxDepth)
    (fresh : bracket.arguments = [])
    (phaseFits : PhaseFits options (reading.enter bracket phase) phase)
    : (reading.enter bracket phase).Fits options := by
  refine ⟨⟨links, ?_, by simp [fresh], enclosures⟩, trivial, phaseFits⟩
  simp only [depth] at within
  simp only [Enclosure.innerDepth]
  omega

theorem withinDepth_eq_ok {reading other : Reading}
    (accepted : reading.withinDepth options = .ok other)
    : other = reading ∧ reading.depth options.powerAssociativity < options.maxDepth := by
  unfold withinDepth at accepted
  split at accepted
  · rename_i within
    cases accepted
    exact ⟨rfl, within⟩
  · cases accepted

/-- What comes out where an operand is due comes within the limit. -/
theorem withinDepth_bind_eq_ok {α : Type} {reading : Reading}
    {next : Reading → Except SyntaxError α} {result : α}
    (accepted : (reading.withinDepth options >>= next) = .ok result)
    : reading.depth options.powerAssociativity < options.maxDepth
        ∧ next reading = .ok result := by
  cases checked : reading.withinDepth options with
  | error error =>
      rw [checked] at accepted
      cases accepted
  | ok other =>
      obtain ⟨rfl, within⟩ := withinDepth_eq_ok checked
      rw [checked] at accepted
      exact ⟨within, accepted⟩

theorem begin_advances {reading next : Reading} {terminal : Terminal}
    (fits : reading.Fits options) (due : reading.phase.terminals = [])
    (within : reading.depth options.powerAssociativity < options.maxDepth)
    (accepted : reading.begin terminal = .ok next)
    : Advances options reading terminal next := by
  have held : reading.terminals
      = enclosureTerminals reading.enclosures ++ reading.pending.terminals := by
    simp [terminals, due]
  have whole {operand : Expr} (ranked : Ranked options.powerAssociativity .primary operand)
      (flat : operand.depth options.powerAssociativity = 1)
      : (reading.complete operand).Fits options :=
    complete_fits fits.enclosures fits.links ⟨ranked, by omega⟩
  obtain ⟨role, text⟩ := terminal
  cases role with
  | number =>
      cases accepted
      refine ⟨whole .number rfl, ?_⟩
      rw [terminals_complete, held, List.append_assoc]
      rfl
  | reference =>
      cases accepted
      refine ⟨whole .reference rfl, ?_⟩
      rw [terminals_complete, held, List.append_assoc]
      rfl
  | function =>
      cases accepted
      refine ⟨⟨fits.enclosures, fits.links, within⟩, ?_⟩
      rw [held, List.append_assoc]
      rfl
  | opening =>
      cases accepted
      refine ⟨enter_fits fits.enclosures fits.links within rfl trivial, ?_⟩
      rw [held]
      simp [terminals, enter, enclosureTerminals, Bracket.terminals, Phase.terminals,
        Pending.terminals, precedingTerminals, Terminal.canonical]
  | operator op =>
      cases op with
      | subtract =>
          cases accepted
          refine ⟨⟨fits.enclosures, fits.links, trivial⟩, ?_⟩
          rw [held]
          simp [terminals, Phase.terminals, Pending.terminals, Terminal.canonical,
            List.replicate_succ']
      | _ => cases accepted
  | closing | separator | stray => cases accepted

/-- A call whose arguments fit inside its bracket fits where the bracket was opened. -/
theorem call_fits {before : Pending} {name : String} {held arguments : List Expr}
    {outer : List Enclosure}
    (enclosures : EnclosuresFit options (⟨before, .call name held⟩ :: outer))
    (fits
      : ∀ argument ∈ arguments,
          FormulaLatex.Expr.Fits options (.chain .comparison)
            (Enclosure.innerDepth options.powerAssociativity (⟨before, .call name held⟩ :: outer))
            argument)
    : (leave outer before (.call (Text.upperCase name) arguments)).Fits options := by
  have open_ := enclosures.2.1
  refine leave_fits enclosures (.call fun argument member => (fits argument member).ranked) ?_
  have bound := argumentDepth_le_iff.mpr fun argument member =>
    Nat.le_sub_of_add_le' (fits argument member).within
  simp only [Expr.depth]
  omega

theorem extend_advances {reading next : Reading} {operand : Expr} {terminal : Terminal}
    (fits : reading.Fits options) (following : reading.phase = .continuation operand)
    (accepted : reading.extend options operand terminal = .ok next)
    : Advances options reading terminal next := by
  have phaseFits : PhaseFits options reading (.continuation operand) :=
    following ▸ fits.phase
  have inner := expression_fits fits.links phaseFits
  have held : reading.terminals
      = enclosureTerminals reading.enclosures
        ++ (reading.expression options operand).terminals := by
    rw [terminals_expression]
    simp [terminals, following, Phase.terminals, Pending.terminals, phaseFits.1]
  obtain ⟨role, text⟩ := terminal
  cases role with
  | operator op =>
      cases accepted
      have operandFits := phaseFits.2
      rw [depth, show reading.pending = ⟨reading.pending.links, 0⟩ by rw [← phaseFits.1],
        Nat.add_comm] at operandFits
      refine ⟨⟨fits.enclosures, ⟨operandFits, fits.links⟩, trivial⟩, ?_⟩
      rw [held, terminals_expression]
      simp [terminals, Pending.terminals, precedingTerminals, Phase.terminals,
        Terminal.canonical]
  | closing =>
      obtain ⟨enclosures, pending, phase⟩ := reading
      have enclosuresFit := fits.enclosures
      cases enclosures with
      | nil => cases accepted
      | cons enclosure outer =>
          obtain ⟨before, bracket⟩ := enclosure
          cases bracket with
          | group =>
              cases accepted
              have within := inner.within
              refine ⟨leave_fits enclosuresFit (.group inner.ranked) ?_, ?_⟩
              · exact Nat.succ_le_succ within
              · rw [held, leave, terminals_complete]
                simp [Expr.terminals, enclosureTerminals, Bracket.terminals,
                  Terminal.canonical]
          | call name arguments =>
              cases accepted
              refine ⟨call_fits enclosuresFit ?_, ?_⟩
              · intro argument member
                rcases List.mem_cons.mp (List.mem_reverse.mp member) with same | earlier
                · exact same ▸ inner
                · exact enclosuresFit.2.2.1 argument earlier
              · rw [held, leave, terminals_complete, List.reverse_cons]
                simp [Expr.terminals, argumentTerminals_snoc, enclosureTerminals,
                  Bracket.terminals, Terminal.canonical]
  | separator =>
      obtain ⟨enclosures, pending, phase⟩ := reading
      have enclosuresFit := fits.enclosures
      cases enclosures with
      | nil => cases accepted
      | cons enclosure outer =>
          obtain ⟨before, bracket⟩ := enclosure
          cases bracket with
          | group => cases accepted
          | call name arguments =>
              cases accepted
              obtain ⟨links, within, argumentsFit, outerFit⟩ := enclosuresFit
              refine ⟨⟨⟨links, within, ?_, outerFit⟩, trivial, trivial⟩, ?_⟩
              · exact List.forall_mem_cons.mpr ⟨inner, argumentsFit⟩
              · rw [held]
                simp [terminals, enclosureTerminals, Bracket.terminals, Pending.terminals,
                  precedingTerminals, Phase.terminals, Terminal.canonical]
  | number | reference | function | opening | stray => cases accepted

/-- Every step keeps the invariant and holds one terminal more. -/
theorem step_advances {reading next : Reading} {terminal : Terminal}
    (fits : reading.Fits options) (accepted : reading.step options terminal = .ok next)
    : Advances options reading terminal next := by
  have phaseFits := fits.phase
  have operand (due : reading.phase.terminals = [])
      (accepted : (do (← reading.withinDepth options).begin terminal) = .ok next)
      : Advances options reading terminal next := by
    obtain ⟨within, begun⟩ := withinDepth_bind_eq_ok accepted
    exact begin_advances fits due within begun
  obtain ⟨enclosures, pending, phase⟩ := reading
  cases phase with
  | operand => exact operand rfl accepted
  | argument =>
      obtain ⟨rfl, before, name, outer, rfl⟩ := phaseFits
      obtain ⟨role, text⟩ := terminal
      cases role with
      | closing =>
          cases accepted
          refine ⟨call_fits fits.enclosures (by simp), ?_⟩
          rw [leave, terminals_complete]
          simp [Expr.terminals, argumentTerminals, terminals, enclosureTerminals,
            Bracket.terminals, Pending.terminals, precedingTerminals, Phase.terminals,
            Terminal.canonical]
      | _ => exact operand rfl accepted
  | opening function =>
      obtain ⟨role, text⟩ := terminal
      cases role with
      | opening =>
          cases accepted
          refine ⟨enter_fits fits.enclosures fits.links phaseFits rfl ⟨rfl, _, _, _, rfl⟩, ?_⟩
          simp [terminals, enter, enclosureTerminals, Bracket.terminals, Phase.terminals,
            Pending.terminals, precedingTerminals, Terminal.canonical]
      | _ => cases accepted
  | continuation last => exact extend_advances fits rfl accepted

/-- Every run from a reading that fits ends in one that fits and holds all terminals read. -/
theorem foldlM_advances {reading next : Reading} {terminals : List Terminal}
    (fits : reading.Fits options)
    (accepted : terminals.foldlM (step options) reading = .ok next)
    : next.Fits options
      ∧ next.terminals = reading.terminals ++ terminals.map Terminal.canonical := by
  induction terminals generalizing reading with
  | nil =>
      cases accepted
      exact ⟨fits, by simp⟩
  | cons terminal rest ih =>
      rw [List.foldlM_cons] at accepted
      cases stepped : reading.step options terminal with
      | error error => simp [stepped, bind, Except.bind] at accepted
      | ok middle =>
          have advances := step_advances fits stepped
          obtain ⟨nextFits, held⟩ := ih advances.fits
            (by simpa [stepped, bind, Except.bind] using accepted)
          exact ⟨nextFits, by simp [held, advances.terminals]⟩

theorem finish_eq_ok {reading : Reading} {e : Expr}
    (accepted : reading.finish options = .ok e)
    : ∃ operand,
        reading.enclosures = []
        ∧ reading.phase = .continuation operand
        ∧ e = reading.expression options operand := by
  obtain ⟨enclosures, pending, phase⟩ := reading
  cases phase with
  | operand | argument =>
      simp only [finish, bind, Except.bind] at accepted
      split at accepted <;> cases accepted
  | opening function => cases accepted
  | continuation operand =>
      cases enclosures with
      | nil =>
          cases accepted
          exact ⟨operand, rfl, rfl, rfl⟩
      | cons enclosure outer =>
          obtain ⟨before, bracket⟩ := enclosure
          cases bracket with
          | group => cases accepted
          | call name arguments => cases accepted

end Reading

/-- What is read as an expression is ranked, lies within the limit, and was written by the
terminals of the expression: none is lost, repeated or moved.
-/
theorem ofTerminals_sound {terminals : List Terminal} {e : Expr}
    (accepted : ofTerminals terminals options = .ok e)
    : Ranked options.powerAssociativity (.chain .comparison) e
      ∧ e.depth options.powerAssociativity ≤ options.maxDepth
      ∧ terminals.map Terminal.canonical = e.terminals := by
  have start : Reading.Fits options {} := ⟨trivial, trivial, trivial⟩
  unfold ofTerminals at accepted
  cases run : terminals.foldlM (Reading.step options) {} with
  | error error => simp [run, bind, Except.bind] at accepted
  | ok reading =>
      obtain ⟨fits, held⟩ := Reading.foldlM_advances start run
      replace accepted : reading.finish options = .ok e := by
        simpa [run, bind, Except.bind] using accepted
      obtain ⟨operand, outside, following, rfl⟩ := Reading.finish_eq_ok accepted
      have phaseFits : PhaseFits options reading (.continuation operand) :=
        following ▸ fits.phase
      have whole := Reading.expression_fits fits.links phaseFits
      refine ⟨whole.ranked, Nat.le_of_add_left_le whole.within, ?_⟩
      rw [Reading.terminals_expression]
      simpa [Reading.terminals, outside, following, enclosureTerminals, Pending.terminals,
        Phase.terminals, phaseFits.1, precedingTerminals] using held.symm

end FormulaLatex.Expr
