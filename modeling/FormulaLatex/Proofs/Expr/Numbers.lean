import FormulaLatex.Proofs.Latex.PassOver

/-! The numbers of a formula. Reading does not look at how they are written: if the numbers among
the terminals are written otherwise, the expression is the same but for its numbers, and an error
is the same but for the text that it reports.
-/

namespace FormulaLatex

/-- A terminal with its text written otherwise, if it is a number. -/
def Terminal.mapNumber (form : String → String) (terminal : Terminal) : Terminal :=
  if terminal.role = .number then { terminal with text := form terminal.text } else terminal

/-- A syntax error with the text that it reports written otherwise. -/
def SyntaxError.mapText (form : String → String) : SyntaxError → SyntaxError
  | .unexpectedToken text => .unexpectedToken (form text)
  | error => error

namespace Expr

variable (form : String → String)

-----------------------------------------------------------------------------------------
-- Expressions
-----------------------------------------------------------------------------------------

/-- An expression with its numbers written otherwise. -/
def mapNumbers (e : Expr) : Expr :=
  e.rebuild (fun text => .number (form text)) .call .group

theorem mapNumbers_call (name : String) (arguments : List Expr)
    : (Expr.call name arguments).mapNumbers form = .call name (arguments.map (mapNumbers form)) := by
  rw [mapNumbers, rebuild, rebuildAll_eq_map]
  rfl

theorem mapNumbers_negateTimes (count : Nat) (operand : Expr)
    : (negateTimes count operand).mapNumbers form = negateTimes count (operand.mapNumbers form) := by
  induction count with
  | zero => rfl
  | succ count ih => exact congrArg Expr.negate ih

namespace Chain

/-- A chain with the numbers of its operands written otherwise. -/
def mapNumbers (chain : Chain) : Chain :=
  ⟨chain.first.mapNumbers form, chain.rest.map fun link => (link.1, link.2.mapNumbers form)⟩

theorem ofLinks_mapNumbers (links : List (Expr × BinaryOperator)) (last : Expr)
    : ofLinks (links.map fun link => (link.1.mapNumbers form, link.2)) (last.mapNumbers form)
        = (ofLinks links last).mapNumbers form := by
  suffices folded : ∀ chain : Chain,
      (links.map fun link => (link.1.mapNumbers form, link.2)).foldl
          (fun chain link => chain.cons link.1 link.2) (chain.mapNumbers form)
        = (links.foldl (fun chain link => chain.cons link.1 link.2) chain).mapNumbers form from
    folded ⟨last, []⟩
  induction links with
  | nil => exact fun _ => rfl
  | cons link links ih => exact fun chain => ih (chain.cons link.1 link.2)

theorem groupLeft_mapNumbers (rank : Precedence) (first : Expr)
    (rest : List (BinaryOperator × Expr))
    : groupLeft rank (first.mapNumbers form)
          (rest.map fun link => (link.1, link.2.mapNumbers form))
        = (groupLeft rank first rest).mapNumbers form := by
  fun_induction groupLeft rank first rest with
  | case1 first => rfl
  | case2 first op second rest ranked ih =>
      rw [List.map_cons, groupLeft, if_pos ranked]
      exact ih
  | case3 first op second rest other ih =>
      rw [List.map_cons, groupLeft, if_neg other, ih]
      rfl

theorem groupRight_mapNumbers (rank : Precedence) (first : Expr)
    (rest : List (BinaryOperator × Expr))
    : groupRight rank (first.mapNumbers form)
          (rest.map fun link => (link.1, link.2.mapNumbers form))
        = (groupRight rank first rest).mapNumbers form := by
  induction rest generalizing first with
  | nil => rfl
  | cons link rest ih =>
      obtain ⟨op, second⟩ := link
      rw [List.map_cons, groupRight, groupRight, ih]
      split <;> rfl

theorem join_mapNumbers (chain : Chain)
    : (chain.mapNumbers form).join = chain.join.mapNumbers form := by
  obtain ⟨first, rest⟩ := chain
  induction rest generalizing first with
  | nil => rfl
  | cons link rest ih => exact ih (.binary link.1 first link.2)

theorem toExpr_mapNumbers (associativity : PowerAssociativity) (chain : Chain)
    : (chain.mapNumbers form).toExpr associativity
        = (chain.toExpr associativity).mapNumbers form := by
  have powers : (chain.mapNumbers form).groupPowers associativity
      = (chain.groupPowers associativity).mapNumbers form := by
    cases associativity with
    | left => exact groupLeft_mapNumbers form .power chain.first chain.rest
    | right => exact groupRight_mapNumbers form .power chain.first chain.rest
  have ranked (rank : Precedence) (chain : Chain)
      : groupLeft rank (chain.mapNumbers form).first (chain.mapNumbers form).rest
        = (groupLeft rank chain.first chain.rest).mapNumbers form :=
    groupLeft_mapNumbers form rank chain.first chain.rest
  rw [toExpr, toExpr, powers]
  simp only [ranked, join_mapNumbers]

end Chain

-----------------------------------------------------------------------------------------
-- Readings
-----------------------------------------------------------------------------------------

def Pending.mapNumbers (pending : Pending) : Pending :=
  { pending with links := pending.links.map fun link => (link.1.mapNumbers form, link.2) }

def Bracket.mapNumbers : Bracket → Bracket
  | .group => .group
  | .call name arguments => .call name (arguments.map (Expr.mapNumbers form))

def Enclosure.mapNumbers (enclosure : Enclosure) : Enclosure :=
  ⟨enclosure.pending.mapNumbers form, enclosure.bracket.mapNumbers form⟩

def Phase.mapNumbers : Phase → Phase
  | .continuation last => .continuation (last.mapNumbers form)
  | phase => phase

/-- A reading with the numbers of all that has been read written otherwise. -/
def Reading.mapNumbers (reading : Reading) : Reading :=
  ⟨reading.enclosures.map (Enclosure.mapNumbers form), reading.pending.mapNumbers form,
    reading.phase.mapNumbers form⟩

/-- What reading comes to, with numbers written otherwise. -/
def mapOutcome {α : Type} (f : α → α) (outcome : Except SyntaxError α) : Except SyntaxError α :=
  (outcome.map f).mapError (SyntaxError.mapText form)

theorem Pending.depth_mapNumbers (associativity : PowerAssociativity) (pending : Pending)
    : (pending.mapNumbers form).depth associativity = pending.depth associativity := by
  cases associativity with
  | left => rfl
  | right => simp [depth, mapNumbers, List.takeWhile_map, Function.comp_def]

theorem Enclosure.innerDepth_mapNumbers (associativity : PowerAssociativity)
    (enclosures : List Enclosure)
    : innerDepth associativity (enclosures.map (mapNumbers form))
        = innerDepth associativity enclosures := by
  induction enclosures with
  | nil => rfl
  | cons enclosure outer ih =>
      rw [List.map_cons, innerDepth, innerDepth, ih, mapNumbers, Pending.depth_mapNumbers]

namespace Reading

theorem withinDepth_mapNumbers (options : ReaderOptions) (reading : Reading)
    : (reading.mapNumbers form).withinDepth options
        = mapOutcome form (mapNumbers form) (reading.withinDepth options) := by
  have same : (reading.mapNumbers form).depth options.powerAssociativity
      = reading.depth options.powerAssociativity := by
    rw [depth, depth, mapNumbers, Pending.depth_mapNumbers, Enclosure.innerDepth_mapNumbers]
  rw [withinDepth, withinDepth, same]
  split <;> rfl

theorem complete_mapNumbers (reading : Reading) (operand : Expr)
    : (reading.mapNumbers form).complete (operand.mapNumbers form)
        = (reading.complete operand).mapNumbers form := by
  rw [complete, complete, mapNumbers, mapNumbers, Phase.mapNumbers, mapNumbers_negateTimes]
  rfl

theorem expression_mapNumbers (options : ReaderOptions) (reading : Reading) (operand : Expr)
    : (reading.mapNumbers form).expression options (operand.mapNumbers form)
        = (reading.expression options operand).mapNumbers form := by
  rw [expression, expression, ← Chain.toExpr_mapNumbers, ← Chain.ofLinks_mapNumbers]
  rfl

theorem leave_mapNumbers (outer : List Enclosure) (pending : Pending) (operand : Expr)
    : leave (outer.map (Enclosure.mapNumbers form)) (pending.mapNumbers form)
          (operand.mapNumbers form)
        = (leave outer pending operand).mapNumbers form :=
  complete_mapNumbers form ⟨outer, pending, .operand⟩ operand

section Steps

variable {terminal : Terminal}
  (plain : terminal.role ≠ .number → form terminal.text = terminal.text)

include plain

theorem begin_mapNumbers (reading : Reading)
    : (reading.mapNumbers form).begin (terminal.mapNumber form)
        = mapOutcome form (mapNumbers form) (reading.begin terminal) := by
  obtain ⟨role, text⟩ := terminal
  have refused (other : role ≠ .number)
      : (.error (.unexpectedToken text) : Except SyntaxError Reading)
        = .error (.unexpectedToken (form text)) := by
    rw [plain other]
  cases role with
  | number => exact congrArg Except.ok (complete_mapNumbers form reading (.number text))
  | reference => exact congrArg Except.ok (complete_mapNumbers form reading (.reference text))
  | function => rfl
  | opening => rfl
  | operator op =>
      cases op with
      | subtract => rfl
      | _ => exact refused nofun
  | closing => exact refused nofun
  | separator => exact refused nofun
  | stray => exact refused nofun

theorem refusal_mapNumbers (reading : Reading)
    : (reading.mapNumbers form).refusal (terminal.mapNumber form)
        = (reading.refusal terminal).mapText form := by
  obtain ⟨enclosures, pending, phase⟩ := reading
  rcases enclosures with _ | ⟨⟨outerPending, bracket⟩, outer⟩
  · by_cases number : terminal.role = .number
    · simp [refusal, mapNumbers, SyntaxError.mapText, Terminal.mapNumber, number]
    · simp [refusal, mapNumbers, SyntaxError.mapText, Terminal.mapNumber, number, plain number]
  · cases bracket <;> rfl

theorem extend_mapNumbers (options : ReaderOptions) (reading : Reading) (operand : Expr)
    : (reading.mapNumbers form).extend options (operand.mapNumbers form)
          (terminal.mapNumber form)
        = mapOutcome form (mapNumbers form) (reading.extend options operand terminal) := by
  have refused := congrArg (Except.error (α := Reading)) (refusal_mapNumbers form plain reading)
  have last := expression_mapNumbers form options reading operand
  obtain ⟨enclosures, pending, phase⟩ := reading
  obtain ⟨role, text⟩ := terminal
  cases role with
  | operator op => rfl
  | closing =>
      rcases enclosures with _ | ⟨⟨outerPending, _ | ⟨name, arguments⟩⟩, outer⟩
      · exact refused
      · have closed := leave_mapNumbers form outer outerPending
          (.group (expression options ⟨⟨outerPending, .group⟩ :: outer, pending, phase⟩ operand))
        exact congrArg Except.ok ((congrArg (leave _ _ <| .group ·) last).trans closed)
      · have closed := leave_mapNumbers form outer outerPending (.call (Text.upperCase name)
          (expression options ⟨⟨outerPending, .call name arguments⟩ :: outer, pending, phase⟩ operand
            :: arguments).reverse)
        rw [mapNumbers_call, List.map_reverse, List.map_cons, ← last] at closed
        exact congrArg Except.ok closed
  | separator =>
      rcases enclosures with _ | ⟨⟨outerPending, _ | ⟨name, arguments⟩⟩, outer⟩
      · exact refused
      · exact refused
      · let next (argument : Expr) : Reading :=
          ⟨⟨outerPending.mapNumbers form,
              .call name (argument :: arguments.map (Expr.mapNumbers form))⟩
            :: outer.map (Enclosure.mapNumbers form), {}, .operand⟩
        exact congrArg (Except.ok <| next ·) last
  | number => exact refused
  | reference => exact refused
  | function => exact refused
  | opening => exact refused
  | stray => exact refused

/-- One more terminal is read alike, whatever the numbers are. -/
theorem step_mapNumbers (options : ReaderOptions) (reading : Reading)
    : (reading.mapNumbers form).step options (terminal.mapNumber form)
        = mapOutcome form (mapNumbers form) (reading.step options terminal) := by
  have due : (reading.mapNumbers form).withinDepth options >>= (·.begin (terminal.mapNumber form))
      = mapOutcome form (mapNumbers form)
          (reading.withinDepth options >>= (·.begin terminal)) := by
    rw [withinDepth_mapNumbers]
    cases reading.withinDepth options with
    | error cause => rfl
    | ok within => exact begin_mapNumbers form plain within
  have extended := extend_mapNumbers form plain options reading
  obtain ⟨enclosures, pending, phase⟩ := reading
  obtain ⟨role, text⟩ := terminal
  cases phase with
  | operand => exact due
  | argument =>
      rcases enclosures with _ | ⟨⟨outerPending, _ | ⟨name, arguments⟩⟩, outer⟩
      · exact due
      · exact due
      · cases role with
        | closing =>
            exact congrArg Except.ok
              (leave_mapNumbers form outer outerPending (.call (Text.upperCase name) []))
        | _ => exact due
  | opening function => cases role <;> rfl
  | continuation operand => exact extended operand

end Steps

/-- Terminals are read alike, whatever their numbers are. -/
theorem foldlM_mapNumbers (options : ReaderOptions) {terminals : List Terminal}
    (plain : ∀ terminal ∈ terminals,
      terminal.role ≠ .number → form terminal.text = terminal.text)
    (reading : Reading)
    : (terminals.map (Terminal.mapNumber form)).foldlM (step options) (reading.mapNumbers form)
        = mapOutcome form (mapNumbers form) (terminals.foldlM (step options) reading) := by
  induction terminals generalizing reading with
  | nil => rfl
  | cons terminal rest ih =>
      obtain ⟨first, others⟩ := List.forall_mem_cons.mp plain
      rw [List.map_cons, List.foldlM_cons, List.foldlM_cons, step_mapNumbers form first]
      cases reading.step options terminal with
      | error cause => rfl
      | ok next => exact ih others next

theorem finish_mapNumbers (options : ReaderOptions) (reading : Reading)
    : (reading.mapNumbers form).finish options
        = mapOutcome form (Expr.mapNumbers form) (reading.finish options) := by
  have due {α : Type} (f : α → α) : (reading.mapNumbers form).withinDepth options
        >>= (fun _ => .error .unexpectedEnd)
      = mapOutcome form f (reading.withinDepth options >>= fun _ => .error .unexpectedEnd) := by
    rw [withinDepth_mapNumbers]
    cases reading.withinDepth options <;> rfl
  have last := expression_mapNumbers form options reading
  obtain ⟨enclosures, pending, phase⟩ := reading
  cases phase with
  | operand => exact due _
  | argument => exact due _
  | opening function => rfl
  | continuation operand =>
      rcases enclosures with _ | ⟨⟨outerPending, _ | ⟨name, arguments⟩⟩, outer⟩
      · exact congrArg Except.ok (last operand)
      · rfl
      · rfl

end Reading

/-- What terminals are read as does not depend on how their numbers are written, but for these
numbers themselves.
-/
theorem ofTerminals_mapNumber (options : ReaderOptions) {terminals : List Terminal}
    (plain : ∀ terminal ∈ terminals,
      terminal.role ≠ .number → form terminal.text = terminal.text)
    : ofTerminals (terminals.map (Terminal.mapNumber form)) options
        = mapOutcome form (mapNumbers form) (ofTerminals terminals options) := by
  have run := Reading.foldlM_mapNumbers form options plain {}
  change (terminals.map (Terminal.mapNumber form)).foldlM (Reading.step options) {} = _ at run
  rw [ofTerminals, ofTerminals, run]
  cases terminals.foldlM (Reading.step options) {} with
  | error cause => rfl
  | ok reading => exact Reading.finish_mapNumbers form options reading

end Expr

end FormulaLatex
