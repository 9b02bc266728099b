import FormulaLatex.Proofs.Expr.References
import FormulaLatex.Proofs.RenameTable.Lookup
import FormulaLatex.Proofs.Session.Seeding

/-! The entries of a session. A run of a session adds names to its table and gives symbols to
them, but conversions leave alone what they find there, and how far they get makes no difference.
The names that a conversion adds are those that the expression of its formula refers to.
-/

namespace FormulaLatex.Session

open RenameTable

/-- The session after steps one after another. -/
def after (session : Session) (steps : List Step) : Session :=
  steps.foldl (fun session step => (session.perform step).2) session

/-- The formula that a step converts. -/
def Step.formula? : Step → Option String
  | .convert formula | .tryConvert formula => some formula
  | .rename _ _ | .withOptions _ => none

/-- The symbol that a step gives to a canonical name. -/
def Step.symbol? (name : String) : Step → Option String
  | .rename reference symbol => if canonical reference = name then some symbol else none
  | .convert _ | .tryConvert _ | .withOptions _ => none

/-- The formula that was converted last: by one of the steps, or before them. -/
def Step.formulaAfter (formula : String) (steps : List Step) : String :=
  (steps.filterMap formula?).getLast?.getD formula

/-- The symbol that the last renaming of a name among steps gives to it. -/
def Step.lastSymbol? (name : String) (steps : List Step) : Option String :=
  (steps.filterMap (symbol? name)).getLast?

/-- The names in the formula that a step converts. -/
def Step.names (options : ConvertOptions) (step : Step) : List String :=
  step.formula?.elim [] fun formula => detectReferences formula options.tokenizer

/-- The names in the formulas that steps convert, each under the options then in force. -/
def Step.namesIn (options : ConvertOptions) : List Step → List String
  | [] => []
  | step :: rest => step.names options ++ namesIn (optionsAfter options [step]) rest

theorem Step.lastSymbol?_cons (name : String) (step : Step) (rest : List Step)
    : lastSymbol? name (step :: rest) = (lastSymbol? name rest).or (step.symbol? name) := by
  rw [lastSymbol?, List.filterMap_cons]
  cases step.symbol? name with
  | none => exact Option.or_none.symm
  | some symbol => rw [List.getLast?_cons, Option.or_some]; rfl

theorem Step.lastSymbol?_isSome {name : String} {steps : List Step}
    : (lastSymbol? name steps).isSome
        ↔ ∃ reference symbol, .rename reference symbol ∈ steps ∧ canonical reference = name := by
  rw [lastSymbol?, List.getLast?_isSome, Ne, List.filterMap_eq_nil_iff]
  push Not
  constructor
  · rintro ⟨step, member, given⟩
    cases step with
    | rename reference symbol =>
        refine ⟨reference, symbol, member, ?_⟩
        by_contra other
        exact given (if_neg other)
    | convert formula => exact absurd rfl given
    | tryConvert formula => exact absurd rfl given
    | withOptions options => exact absurd rfl given
  · rintro ⟨reference, symbol, member, same⟩
    refine ⟨.rename reference symbol, member, ?_⟩
    rw [symbol?, if_pos same]
    exact nofun

/-- A name is detected in a run if one of its conversions meets it. -/
theorem Step.mem_namesIn {name : String} {options : ConvertOptions} {steps : List Step}
    : name ∈ namesIn options steps
        ↔ ∃ earlier step later,
            steps = earlier ++ step :: later ∧ name ∈ step.names (optionsAfter options earlier)
    := by
  induction steps generalizing options with
  | nil => simp [namesIn]
  | cons head rest ih =>
      rw [namesIn, List.mem_append, ih]
      constructor
      · rintro (met | ⟨earlier, step, later, rfl, met⟩)
        · exact ⟨[], head, rest, rfl, met⟩
        · refine ⟨head :: earlier, step, later, rfl, ?_⟩
          rwa [optionsAfter_cons]
      · rintro ⟨earlier, step, later, divided, met⟩
        cases earlier with
        | nil =>
            obtain ⟨rfl, rfl⟩ := List.cons.inj divided
            exact Or.inl met
        | cons first earlier =>
            obtain ⟨rfl, rfl⟩ := List.cons.inj divided
            rw [optionsAfter_cons] at met
            exact Or.inr ⟨earlier, step, later, rfl, met⟩

-----------------------------------------------------------------------------------------
-- Steps
-----------------------------------------------------------------------------------------

/-- What a name has after a step: the symbol that the step gives to it, or what it had before,
or itself if the step meets it. Neither the mode nor the outcome of a conversion matters.
-/
theorem getElem?_perform (session : Session) (step : Step) (name : String)
    : (session.perform step).2.renames.symbols[name]?
        = (step.symbol? name).or
            (session.renames.symbols[name]?.or
              (if name ∈ step.names session.options then some name else none)) := by
  cases step with
  | convert formula => exact getElem?_seed _ _ _ _
  | tryConvert formula => exact getElem?_seed _ _ _ _
  | rename reference symbol =>
      simp only [perform, Session.rename, RenameTable.insert, Std.ExtTreeMap.getElem?_insert,
        Std.compare_eq_iff_eq, Step.symbol?, Step.names, Step.formula?, Option.elim,
        List.not_mem_nil, if_false, Option.or_none]
      split <;> rfl
  | withOptions options => exact Option.or_none.symm

/-- A conversion leaves every entry as it is. -/
theorem getElem?_perform_of_formula? {session : Session} {step : Step} {formula : String}
    (converts : step.formula? = some formula) {name : String}
    (member : name ∈ session.renames.symbols)
    : (session.perform step).2.renames.symbols[name]? = session.renames.symbols[name]? := by
  obtain ⟨symbol, entry⟩ := Option.isSome_iff_exists.mp
    (Std.ExtTreeMap.mem_iff_isSome_getElem?.mp member)
  rw [getElem?_perform, entry]
  cases step with
  | convert formula => rfl
  | tryConvert formula => rfl
  | rename reference symbol => cases converts
  | withOptions options => cases converts

theorem options_perform (session : Session) (step : Step)
    : (session.perform step).2.options = Step.optionsAfter session.options [step] := by
  cases step <;> rfl

theorem lastFormula_perform (session : Session) (step : Step)
    : (session.perform step).2.lastFormula = step.formula?.getD session.lastFormula := by
  cases step <;> rfl

-----------------------------------------------------------------------------------------
-- Runs
-----------------------------------------------------------------------------------------

theorem options_after (session : Session) (steps : List Step)
    : (session.after steps).options = Step.optionsAfter session.options steps := by
  induction steps generalizing session with
  | nil => rfl
  | cons step rest ih =>
      rw [Step.optionsAfter_cons, ← options_perform]
      exact ih _

theorem lastFormula_after (session : Session) (steps : List Step)
    : (session.after steps).lastFormula = Step.formulaAfter session.lastFormula steps := by
  induction steps generalizing session with
  | nil => rfl
  | cons step rest ih =>
      rw [Step.formulaAfter, List.filterMap_cons]
      refine (ih _).trans ?_
      rw [lastFormula_perform, Step.formulaAfter]
      cases step.formula? with
      | none => rfl
      | some formula => rw [List.getLast?_cons]; rfl

/-- What a name has after a run. Renamings count before and after the name has been met, and a
name that was there keeps what it had.
-/
theorem getElem?_after (session : Session) (steps : List Step) (name : String)
    : (session.after steps).renames.symbols[name]?
        = (Step.lastSymbol? name steps).or
            (session.renames.symbols[name]?.or
              (if name ∈ Step.namesIn session.options steps then some name else none)) := by
  induction steps generalizing session with
  | nil => exact Option.or_none.symm
  | cons step rest ih =>
      refine (ih _).trans ?_
      rw [getElem?_perform, options_perform, Step.lastSymbol?_cons, Step.namesIn]
      simp only [Option.or_assoc, List.mem_append]
      congr 3
      by_cases met : name ∈ step.names session.options <;> simp [met]

/-- What a session has become by steps, told from the session before and the steps alone. -/
structure Became (before : Session) (steps : List Step) (session : Session) : Prop where
  /-- The names with entries: those from before, those that were renamed, and those that
  conversions met under the options then in force. -/
  keys : ∀ name : String, name ∈ session.renames.symbols
    ↔ name ∈ before.renames.symbols
      ∨ (∃ reference symbol, .rename reference symbol ∈ steps ∧ canonical reference = name)
      ∨ ∃ earlier step later,
          steps = earlier ++ step :: later
          ∧ name ∈ step.names (Step.optionsAfter before.options earlier)
  /-- The symbol of each: the one given last, else the one from before, else the name. -/
  symbols : ∀ name ∈ session.renames.symbols,
    session.renames.symbols[name]?
      = some (((Step.lastSymbol? name steps).or before.renames.symbols[name]?).getD name)
  /-- Each conversion leaves alone what it finds. -/
  kept : ∀ earlier step later formula,
    steps = earlier ++ step :: later →
    step.formula? = some formula →
    ∀ name ∈ (before.after earlier).renames.symbols,
      (before.after (earlier ++ [step])).renames.symbols[name]?
        = (before.after earlier).renames.symbols[name]?
  /-- The names in the formula that was converted last come in order and once each. -/
  references_ascending : session.references.Pairwise (· < ·)
  mem_references : ∀ name, name ∈ session.references
    ↔ ∃ token ∈ tokenize (Step.formulaAfter before.lastFormula steps)
          (Step.optionsAfter before.options steps).tokenizer,
        token.kind = .reference ∧ token.text = name

/-- After any run the entries of a session, and the names it lists, are those that its steps call
for. It makes no difference in which mode a formula was converted and whether that succeeded.
-/
theorem after_became (session : Session) (steps : List Step)
    : Became session steps (session.after steps) := by
  refine ⟨?_, ?_, ?_, ascending_sortNames _, ?_⟩
  · intro name
    rw [Std.ExtTreeMap.mem_iff_isSome_getElem?, getElem?_after, Option.isSome_or,
      Option.isSome_or, Std.ExtTreeMap.mem_iff_isSome_getElem?, ← Step.lastSymbol?_isSome,
      ← Step.mem_namesIn]
    by_cases met : name ∈ Step.namesIn session.options steps <;> simp [met, or_comm]
  · intro name member
    rw [Std.ExtTreeMap.mem_iff_isSome_getElem?] at member
    rw [getElem?_after] at member ⊢
    rw [← Option.or_assoc] at member ⊢
    cases given : (Step.lastSymbol? name steps).or session.renames.symbols[name]? with
    | some symbol => rfl
    | none =>
        rw [given, Option.none_or] at member
        rw [Option.none_or]
        split at member
        · rename_i met
          rw [if_pos met, Option.getD_none]
        · cases member
  · intro earlier step later formula _ converts name member
    rw [after, List.foldl_append]
    exact getElem?_perform_of_formula? converts member
  · intro name
    rw [← options_after, ← lastFormula_after]
    exact mem_detectReferences

-----------------------------------------------------------------------------------------
-- References of expressions
-----------------------------------------------------------------------------------------

/-- Every name of a formula has an entry once the formula has been seen, however it is scanned. -/
theorem mem_symbols_see {name formula : String} {options : TokenizerOptions}
    (met : name ∈ detectReferences formula options) (session : Session)
    : name ∈ (session.see formula).renames.symbols := by
  rw [detectReferences_options formula options session.options.tokenizer] at met
  rw [Std.ExtTreeMap.mem_iff_isSome_getElem?, see, getElem?_seed, if_pos met, Option.isSome_or]
  exact Bool.or_true _

/-- Scanning a formula and reading it find the same references: an expression refers to what the
reference tokens say, in their order and as often, the listing of a formula has the same names in
ascending order and once each, and each of them has an entry after a conversion. Characters
without a meaning may have been left out in reading.
-/
theorem references_eq_scanned {formula : String} {options : TokenizerOptions}
    {reader : ReaderOptions} {e : Expr}
    (read : Expr.ofTokens (tokenize formula options) reader = .ok e)
    : e.references = Token.references (tokenize formula options)
      ∧ (detectReferences formula options).Pairwise (· < ·)
      ∧ (∀ name, name ∈ detectReferences formula options ↔ name ∈ e.references)
      ∧ ∀ session : Session, ∀ name ∈ e.references,
          name ∈ (session.convert formula).2.renames.symbols
          ∧ name ∈ (session.tryConvert formula).2.renames.symbols := by
  have same := Expr.references_of_ofTokens read
  have listed (name : String)
      : name ∈ detectReferences formula options ↔ name ∈ e.references := by
    rw [same, detectReferences, mem_sortNames]
  refine ⟨same, ascending_sortNames _, listed, fun session name member => ?_⟩
  have entered := mem_symbols_see ((listed name).mpr member) session
  exact ⟨entered, entered⟩

/-- A formula with a repeated reference, and with a character that is left out in reading. -/
theorem references_eq_scanned_repeated
    : let e : Expr :=
        .binary .add (.binary .multiply (.reference "B1") (.reference "A1"))
          (.call "SQRT" [.reference "B1", .number "2"])
      Expr.ofTokens (tokenize "=b1*A1 # + sqrt($B$1; 2)") = .ok e
      ∧ e.references = Token.references (tokenize "=b1*A1 # + sqrt($B$1; 2)")
      ∧ e.references = ["B1", "A1", "B1"]
      ∧ detectReferences "=b1*A1 # + sqrt($B$1; 2)" = ["A1", "B1"]
      ∧ "B1" ∈ (({} : Session).convert "=b1*A1 # + sqrt($B$1; 2)").2.renames.symbols := by
  intro e
  have tokens : tokenize "=b1*A1 # + sqrt($B$1; 2)" =
      [⟨.reference, "B1", 1⟩, ⟨.operator, "*", 3⟩, ⟨.reference, "A1", 4⟩, ⟨.unknown, "#", 7⟩,
        ⟨.operator, "+", 9⟩, ⟨.function, "SQRT", 11⟩, ⟨.opening, "(", 15⟩,
        ⟨.reference, "B1", 16⟩, ⟨.separator, ",", 20⟩, ⟨.number, "2", 22⟩,
        ⟨.closing, ")", 23⟩] := by
    decide +kernel
  have read : Expr.ofTokens (tokenize "=b1*A1 # + sqrt($B$1; 2)") = .ok e := by
    rw [tokens]
    rfl
  obtain ⟨same, _, _, entered⟩ := references_eq_scanned read
  refine ⟨read, same, rfl, ?_, (entered {} "B1" (by simp [e, Expr.references])).1⟩
  rw [detectReferences, tokens]
  decide +kernel

end FormulaLatex.Session
