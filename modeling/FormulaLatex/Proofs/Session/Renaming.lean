import FormulaLatex.Proofs.Expr.Spacing
import FormulaLatex.Proofs.Latex.Template
import FormulaLatex.Proofs.Session.Entries

/-! Renamings in a session. A table knows a reference by its upper-case form, and formulas know
it by its upper-case form without dollar signs. The two agree where a reference is written bare,
in whatever case: then its symbol stands in the notation of every later formula, in the place of
each of its occurrences that is shown.
-/

namespace FormulaLatex

open Text Lexeme Latex

/-- Whether a reference is written without dollar signs, without an equals sign in front of it,
and without white space around it.
-/
def IsBare (reference : String) : Prop :=
  ∀ c ∈ reference.toList, c ≠ '$' ∧ c ≠ '=' ∧ isBlank c = false

-----------------------------------------------------------------------------------------
-- Names
-----------------------------------------------------------------------------------------

/-- A bare text that is one reference is the name itself, but for its case. -/
theorem canonical_of_tokenize {reference name : String} {offset : Nat}
    {options : TokenizerOptions} (bare : IsBare reference)
    (single : tokenize reference options = [⟨.reference, name, offset⟩])
    : RenameTable.canonical reference = name := by
  rw [IsBare] at bare
  rw [RenameTable.canonical]
  rw [← String.ofList_toList (s := reference)] at single ⊢
  generalize reference.toList = chars at bare single
  cases chars with
  | nil =>
      rw [tokenize, ofFormula_plain options (by simp), ofText] at single
      cases single
  | cons c rest =>
      have unled : (c :: rest).head? ≠ some '=' :=
        mt Option.some.inj (bare c List.mem_cons_self).2.1
      rw [tokenize, ofFormula_plain options unled, List.map_eq_singleton_iff] at single
      obtain ⟨lexeme, alone, token⟩ := single
      have named := text_of_named (Or.inl (congrArg Token.kind token))
      have unmarked : (c :: rest).filter (fun d => d != '$') = c :: rest :=
        List.filter_eq_self.mpr fun d member => bne_iff_ne.mpr (bare d member).1
      have whole := (span_of_ofText_eq_singleton (fun d member => (bare d member).2.2) alone).2
      rw [whole, canonicalName, unmarked] at named
      exact named.symm.trans (congrArg Token.text token)

-----------------------------------------------------------------------------------------
-- Conversions
-----------------------------------------------------------------------------------------

theorem Expr.ofTokens_nil_ne_ok (options : ReaderOptions) (e : Expr)
    : ofTokens [] options ≠ .ok e := by
  change (({} : Reading).withinDepth options).bind _ ≠ .ok e
  cases ({} : Reading).withinDepth options <;> nofun

/-- What is converted precisely is what is read. -/
theorem tryConvert_of_read {options : ConvertOptions} (precise : options.mode = .precise)
    {formula : String} {e : Expr}
    (read : Expr.ofKnownTokens (tokenize formula options.tokenizer) options.reader = .ok e)
    (renames : RenameTable)
    : tryConvert formula renames options = .ok (e.toLatex renames options.render) := by
  have some : (tokenize formula options.tokenizer).isEmpty = false := by
    cases tokens : tokenize formula options.tokenizer with
    | nil =>
        rw [tokens, Expr.ofKnownTokens] at read
        cases outcome : Expr.ofTokens [] options.reader with
        | ok other => exact absurd outcome (Expr.ofTokens_nil_ne_ok options.reader other)
        | error cause =>
            rw [outcome] at read
            cases read
    | cons token rest => rfl
  rw [tryConvert_of_precise precise, some, read]
  rfl

-----------------------------------------------------------------------------------------
-- Sessions
-----------------------------------------------------------------------------------------

namespace Session

open RenameTable

/-- A symbol that is given to a name is shown for it until the name is given another. -/
theorem resolve_after_rename (session : Session) {reference symbol : String} {steps : List Step}
    (visible : symbol ≠ "")
    (kept : ∀ other replaced, .rename other replaced ∈ steps
      → canonical other ≠ canonical reference)
    : ((session.rename reference symbol).after steps).renames.resolve (canonical reference)
        = symbol := by
  have none : Step.lastSymbol? (canonical reference) steps = none := by
    rw [← Option.not_isSome_iff_eq_none, Step.lastSymbol?_isSome]
    rintro ⟨other, replaced, member, same⟩
    exact kept other replaced member same
  have entered : (session.rename reference symbol).renames.symbols[canonical reference]?
      = some symbol := by
    rw [rename, RenameTable.insert, Std.ExtTreeMap.getElem?_insert_self]
  have stays : canonical (canonical reference) = canonical reference := upperCase_upperCase _
  rw [resolve, get?, stored?, stays, getElem?_after, none, entered]
  simp [Option.filter, visible]

/-- A session answers under its table as it does under the table in which the names of the
formula have entries already.
-/
theorem tryConvert_fst (session : Session) (formula : String)
    : (session.tryConvert formula).1
        = FormulaLatex.tryConvert formula session.renames session.options :=
  ((Seeds.refl session.renames).seed formula _).tryConvert formula session.options

theorem convert_fst (session : Session) (formula : String)
    : (session.convert formula).1
        = FormulaLatex.convert formula session.renames session.options :=
  ((Seeds.refl session.renames).seed formula _).convert formula session.options

/-- A renaming takes effect in every later formula, however the reference is written there. The
notation of a formula that is read has one template for all tables, with a hole for each of its
references that is shown. After a reference has been renamed under a bare spelling in whatever
case, the holes of the reference hold the symbol, until the reference is renamed again.
-/
theorem shows_symbol_after_rename {reference name symbol : String} {offset : Nat}
    {options : TokenizerOptions} (bare : IsBare reference)
    (single : tokenize reference options = [⟨.reference, name, offset⟩]) (visible : symbol ≠ "")
    (session : Session) {steps : List Step}
    (kept : ∀ other replaced, .rename other replaced ∈ steps → canonical other ≠ name)
    {later : Session} (run : later = (session.rename reference symbol).after steps)
    (precise : later.options.mode = .precise) {formula : String} {e : Expr}
    (read : Expr.ofKnownTokens (tokenize formula later.options.tokenizer) later.options.reader
      = .ok e)
    : later.renames.resolve name = symbol
      ∧ ∃ template,
          (holes template).Perm e.shownReferences
          ∧ (∀ table, e.toLatex table later.options.render = fill table.resolve template)
          ∧ (later.tryConvert formula).1 = .ok (fill later.renames.resolve template)
          ∧ (later.convert formula).1 = fill later.renames.resolve template := by
  obtain rfl := canonical_of_tokenize bare single
  have shown := resolve_after_rename session visible kept
  rw [← run] at shown
  obtain ⟨template, bears, filled⟩ := e.hasTemplate_toLatex later.options.render
  have converted : FormulaLatex.tryConvert formula later.renames later.options
      = .ok (fill later.renames.resolve template) :=
    (tryConvert_of_read precise read later.renames).trans (congrArg Except.ok (filled _))
  refine ⟨shown, template, bears, filled, ?_, ?_⟩
  · rw [tryConvert_fst, converted]
  · rw [convert_fst, FormulaLatex.convert, converted]

/-- A renaming takes effect over other steps, and a reference may be dropped where it is not
shown.
-/
theorem shows_symbol_after_rename_lower_case
    : let session : Session := ({} : Session).after [.convert "=B2 + 1"]
      let later := (session.rename "b2" "x").after [.tryConvert "=SQRT(", .rename "a1" "y"]
      let e : Expr := .binary .multiply (.call "ROUND" [.reference "B2", .reference "B2"])
        (.reference "A1")
      Expr.ofKnownTokens (tokenize "=ROUND($b$2; B2) * A1") = .ok e
      ∧ later.renames.resolve "B2" = "x"
      ∧ ∃ template,
          (holes template).Perm ["B2", "A1"]
          ∧ (later.tryConvert "=ROUND($b$2; B2) * A1").1
              = .ok (fill later.renames.resolve template)
          ∧ fill later.renames.resolve template = "x \\cdot y" := by
  intro session later e
  have tokens : tokenize "=ROUND($b$2; B2) * A1" =
      [⟨.function, "ROUND", 1⟩, ⟨.opening, "(", 6⟩, ⟨.reference, "B2", 7⟩, ⟨.separator, ",", 11⟩,
        ⟨.reference, "B2", 13⟩, ⟨.closing, ")", 15⟩, ⟨.operator, "*", 17⟩,
        ⟨.reference, "A1", 19⟩] := by
    decide +kernel
  have read : Expr.ofKnownTokens (tokenize "=ROUND($b$2; B2) * A1") = .ok e := by
    rw [tokens]
    rfl
  have kept : ∀ other replaced,
      .rename other replaced ∈ [Step.tryConvert "=SQRT(", .rename "a1" "y"]
      → canonical other ≠ "B2" := by
    intro other replaced member
    simp only [List.mem_cons, reduceCtorEq, Step.rename.injEq, List.not_mem_nil, or_false,
      false_or] at member
    rw [member.1]
    decide +kernel
  have bare : IsBare "b2" := by
    intro c member
    have read : c = 'b' ∨ c = '2' := by
      simpa using member
    rcases read with rfl | rfl <;> decide
  have single : tokenize "b2" = [⟨.reference, "B2", 0⟩] := by
    decide +kernel
  have run : later = (session.rename "b2" "x").after [.tryConvert "=SQRT(", .rename "a1" "y"] :=
    rfl
  have precise : later.options.mode = .precise := by
    decide +kernel
  obtain ⟨shown, template, bears, _, converted, _⟩ :=
    shows_symbol_after_rename bare single (by decide) session kept run precise read
  have written : (later.tryConvert "=ROUND($b$2; B2) * A1").1 = .ok "x \\cdot y" := by
    decide +kernel
  exact ⟨read, shown, template, bears, converted,
    Except.ok.inj (converted.symm.trans written)⟩

/-- A spelling with dollar signs, with white space, or with an equals sign in front is entered as
it is, and there no reference of a formula finds the symbol.
-/
theorem not_shows_symbol_after_rename_marked
    : tokenize "$A$1" = [⟨.reference, "A1", 0⟩]
      ∧ tokenize " A1" = [⟨.reference, "A1", 1⟩]
      ∧ tokenize "=A1" = [⟨.reference, "A1", 1⟩]
      ∧ Expr.ofKnownTokens (tokenize "=A1") = .ok (.reference "A1")
      ∧ ((({} : Session).rename "$A$1" "x").tryConvert "=A1").1 = .ok "A1"
      ∧ ((({} : Session).rename " A1" "x").tryConvert "=A1").1 = .ok "A1"
      ∧ ((({} : Session).rename "=A1" "x").tryConvert "=A1").1 = .ok "A1" := by
  have lead : tokenize "=A1" = [⟨.reference, "A1", 1⟩] := by
    decide +kernel
  refine ⟨?_, ?_, lead, ?_, ?_, ?_, ?_⟩
  · decide +kernel
  · decide +kernel
  · rw [lead]
    rfl
  · decide +kernel
  · decide +kernel
  · decide +kernel

end Session

end FormulaLatex
