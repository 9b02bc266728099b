import FormulaLatex.Session

/-! Sessions seen from outside. A session enters every name that it meets into its table, but
such an entry shows the name as it would be shown without it. So each answer of a session is
that of a conversion by itself, under the renamings made so far.
-/

namespace FormulaLatex

namespace RenameTable

/-- A seeded table has the entries of a plain one, and besides them only names that stand for
themselves.
-/
def Seeds (plain seeded : RenameTable) : Prop :=
  ∀ name : String, seeded.symbols[name]? = plain.symbols[name]?
    ∨ (plain.symbols[name]? = none ∧ seeded.symbols[name]? = some name)

theorem Seeds.refl (table : RenameTable) : table.Seeds table :=
  fun _ => Or.inl rfl

/-- A renaming takes the place of a seeded entry, as it does of any other. -/
theorem Seeds.insert {plain seeded : RenameTable} (seeds : plain.Seeds seeded)
    (reference symbol : String)
    : (plain.insert reference symbol).Seeds (seeded.insert reference symbol) := by
  intro name
  simp only [RenameTable.insert, Std.ExtTreeMap.getElem?_insert, Std.compare_eq_iff_eq]
  by_cases renamed : canonical reference = name
  · left
    simp only [renamed, if_true]
  · simp only [renamed, if_false]
    exact seeds name

/-- Entering a name as its own symbol keeps a table seeded, unless the name stands for
something else.
-/
theorem Seeds.enter {plain seeded : RenameTable} (seeds : plain.Seeds seeded) {name : String}
    (free : seeded.symbols[name]?.getD name = name)
    : plain.Seeds ⟨seeded.symbols.insert name name⟩ := by
  intro other
  simp only [Std.ExtTreeMap.getElem?_insert, Std.compare_eq_iff_eq]
  by_cases same : name = other
  · subst same
    rw [if_pos rfl]
    rcases seeds name with kept | ⟨absent, _⟩
    · -- A plain entry that agrees with the name may well have been a renaming.
      rw [kept] at free
      cases entry : plain.symbols[name]? with
      | none => exact Or.inr ⟨rfl, rfl⟩
      | some symbol =>
          rw [entry, Option.getD_some] at free
          exact Or.inl (by rw [free])
    · exact Or.inr ⟨absent, rfl⟩
  · rw [if_neg same]
    exact seeds other

theorem Seeds.enterAll {plain seeded : RenameTable} (seeds : plain.Seeds seeded)
    {names : List String} (free : ∀ name ∈ names, seeded.symbols[name]?.getD name = name)
    : plain.Seeds
        ⟨names.foldl (fun symbols name => symbols.insert name name) seeded.symbols⟩ := by
  induction names generalizing seeded with
  | nil => exact seeds
  | cons name names ih =>
      refine ih (seeds.enter (free name List.mem_cons_self)) ?_
      intro other member
      change (seeded.symbols.insert name name)[other]?.getD other = other
      simp only [Std.ExtTreeMap.getElem?_insert, Std.compare_eq_iff_eq]
      by_cases same : name = other
      · rw [if_pos same, Option.getD_some, same]
      · rw [if_neg same]
        exact free other (List.mem_cons_of_mem _ member)

/-- Seeding a table with the names of a formula adds only names that stand for themselves. -/
theorem Seeds.seed {plain seeded : RenameTable} (seeds : plain.Seeds seeded)
    (formula : String) (options : TokenizerOptions)
    : plain.Seeds (seeded.seed formula options) := by
  refine seeds.enterAll ?_
  intro name member
  obtain ⟨_, absent⟩ := List.mem_filter.mp member
  have lacking : name ∉ seeded.symbols := by
    intro present
    rw [Std.ExtTreeMap.mem_iff_contains.mp present] at absent
    cases absent
  rw [Std.ExtTreeMap.getElem?_eq_none lacking, Option.getD_none]

/-- What is shown for a name does not depend on seeding. -/
theorem Seeds.resolve {plain seeded : RenameTable} (seeds : plain.Seeds seeded)
    (reference : String)
    : seeded.resolve reference = plain.resolve reference := by
  simp only [RenameTable.resolve, get?, stored?]
  rcases seeds (canonical reference) with same | ⟨absent, itself⟩
  · rw [same]
  · rw [absent, itself]
    cases empty : (canonical reference).isEmpty <;> simp [Option.filter, empty]

end RenameTable

mutual

/-- The notation of an expression depends on a table only by what it shows for names. -/
theorem Expr.toLatex_congr {left right : RenameTable}
    (same : ∀ reference, left.resolve reference = right.resolve reference)
    (options : RenderOptions) (e : Expr)
    : e.toLatex left options = e.toLatex right options := by
  cases e with
  | number text => rfl
  | reference name => exact same name
  | binary op first second =>
      rw [toLatex, toLatex, first.toLatex_congr same options, second.toLatex_congr same options]
  | negate operand => rw [toLatex, toLatex, operand.toLatex_congr same options]
  | call name arguments => rw [toLatex, toLatex, toLatexAll_congr same options arguments]
  | group inner => rw [toLatex, toLatex, inner.toLatex_congr same options]

theorem Expr.toLatexAll_congr {left right : RenameTable}
    (same : ∀ reference, left.resolve reference = right.resolve reference)
    (options : RenderOptions) (es : List Expr)
    : toLatexAll left options es = toLatexAll right options es := by
  cases es with
  | nil => rfl
  | cons first rest =>
      rw [toLatexAll, toLatexAll, first.toLatex_congr same options,
        toLatexAll_congr same options rest]

end

theorem RenameTable.Seeds.tryConvert {plain seeded : RenameTable} (seeds : plain.Seeds seeded)
    (formula : String) (options : ConvertOptions)
    : FormulaLatex.tryConvert formula seeded options
        = FormulaLatex.tryConvert formula plain options := by
  have shown : ∀ e : Expr, e.toLatex seeded options.render = e.toLatex plain options.render :=
    fun e => e.toLatex_congr seeds.resolve options.render
  simp only [FormulaLatex.tryConvert, shown]

theorem RenameTable.Seeds.convert {plain seeded : RenameTable} (seeds : plain.Seeds seeded)
    (formula : String) (options : ConvertOptions)
    : FormulaLatex.convert formula seeded options
        = FormulaLatex.convert formula plain options := by
  rw [FormulaLatex.convert, FormulaLatex.convert, seeds.tryConvert]

namespace Session

/-- One use of a session. -/
inductive Step
  | convert (formula : String)
  | tryConvert (formula : String)
  | rename (reference symbol : String)
  | withOptions (options : ConvertOptions)

/-- What a step gives back. -/
inductive Answer
  | latex (text : String)
  | outcome (result : Except FormulaError String)
  | done

/-- A step of a session: its answer, and the session afterwards. -/
def perform (session : Session) : Step → Answer × Session
  | .convert formula => (session.convert formula).map .latex id
  | .tryConvert formula => (session.tryConvert formula).map .outcome id
  | .rename reference symbol => (.done, session.rename reference symbol)
  | .withOptions options => (.done, session.withOptions options)

/-- The answers of a session to steps one after another. -/
def answers (session : Session) : List Step → List Answer
  | [] => []
  | step :: rest => (session.perform step).1 :: (session.perform step).2.answers rest

/-- A table with the renamings among steps and nothing else that they do to a session. -/
def Step.tableAfter (table : RenameTable) (steps : List Step) : RenameTable :=
  table.insertAll <| steps.filterMap fun
    | .rename reference symbol => some (reference, symbol)
    | _ => none

/-- The options that are in force after steps: the last that a step brought in, or those from
before the steps.
-/
def Step.optionsAfter (options : ConvertOptions) (steps : List Step) : ConvertOptions :=
  (steps.filterMap fun
    | .withOptions changed => some changed
    | _ => none).getLast?.getD options

/-- What a step gives back under a table and options when nothing else is kept between
conversions.
-/
def Step.answerUnder (table : RenameTable) (options : ConvertOptions) : Step → Answer
  | .convert formula => .latex (FormulaLatex.convert formula table options)
  | .tryConvert formula => .outcome (FormulaLatex.tryConvert formula table options)
  | .rename _ _ | .withOptions _ => .done

theorem Step.tableAfter_cons (table : RenameTable) (step : Step) (rest : List Step)
    : tableAfter table (step :: rest) = tableAfter (tableAfter table [step]) rest := by
  cases step <;> rfl

theorem Step.optionsAfter_cons (options : ConvertOptions) (step : Step) (rest : List Step)
    : optionsAfter options (step :: rest) = optionsAfter (optionsAfter options [step]) rest := by
  cases step with
  | withOptions changed => simp [optionsAfter, List.getLast?_cons]
  | convert formula => rfl
  | tryConvert formula => rfl
  | rename reference symbol => rfl

/-- A step answers under a seeded table as it does under the plain one, and leaves the one
seeded from the other.
-/
theorem perform_of_seeds {plain : RenameTable} {session : Session}
    (seeds : plain.Seeds session.renames) (step : Step)
    : (session.perform step).1 = step.answerUnder plain session.options
      ∧ (Step.tableAfter plain [step]).Seeds (session.perform step).2.renames
      ∧ (session.perform step).2.options = Step.optionsAfter session.options [step] := by
  cases step with
  | convert formula =>
      have seen := seeds.seed formula session.options.tokenizer
      exact ⟨congrArg Answer.latex (seen.convert formula session.options), seen, rfl⟩
  | tryConvert formula =>
      have seen := seeds.seed formula session.options.tokenizer
      exact ⟨congrArg Answer.outcome (seen.tryConvert formula session.options), seen, rfl⟩
  | rename reference symbol => exact ⟨rfl, seeds.insert reference symbol, rfl⟩
  | withOptions options => exact ⟨rfl, seeds, rfl⟩

theorem answers_of_seeds {plain : RenameTable} {session : Session}
    (seeds : plain.Seeds session.renames) (steps : List Step)
    : session.answers steps
        = steps.mapIdx fun place step =>
            step.answerUnder (Step.tableAfter plain (steps.take place))
              (Step.optionsAfter session.options (steps.take place)) := by
  induction steps generalizing plain session with
  | nil => rfl
  | cons step rest ih =>
      -- What is in force at a later step is what this step and those between leave in force.
      obtain ⟨answer, kept, inForce⟩ := perform_of_seeds seeds step
      rw [answers, List.mapIdx_cons, answer, ih kept, inForce]
      simp only [List.take_succ_cons, ← Step.tableAfter_cons, ← Step.optionsAfter_cons]
      rfl

/-- Nothing of a session shows in its answers but the table that it began with, the renamings
since, and the options in force: each answer is that of a conversion by itself.
-/
theorem answers_eq_answerUnder (session : Session) (steps : List Step)
    : session.answers steps
        = steps.mapIdx fun place step =>
            step.answerUnder (Step.tableAfter session.renames (steps.take place))
              (Step.optionsAfter session.options (steps.take place)) :=
  answers_of_seeds (RenameTable.Seeds.refl session.renames) steps

end Session

end FormulaLatex
