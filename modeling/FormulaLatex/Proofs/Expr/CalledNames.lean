import FormulaLatex.Proofs.Expr.Spacing
import FormulaLatex.Proofs.Expr.ViablePrefix

/-! Names that are called. A name in a formula is that of a function exactly where the token right
after it opens a parenthesis, so no formula has a function without its parenthesis, and that
error is only for tokens that come from elsewhere.
-/

namespace FormulaLatex

open Text

-----------------------------------------------------------------------------------------
-- Names and what follows them
-----------------------------------------------------------------------------------------

/-- In a list of kinds of tokens, the name of a function is always followed by an opening
parenthesis, and a reference never is.
-/
def CallsFollowNames (kinds : List TokenKind) : Prop :=
  ∀ front kind back, kinds = front ++ kind :: back →
    (kind = .function → back.head? = some .opening)
    ∧ (kind = .reference → back.head? ≠ some .opening)

theorem CallsFollowNames.nil : CallsFollowNames [] := by
  intro front kind back split
  simp at split

theorem CallsFollowNames.cons {first : TokenKind} {rest : List TokenKind}
    (called : first = .function → rest.head? = some .opening)
    (uncalled : first = .reference → rest.head? ≠ some .opening)
    (later : CallsFollowNames rest)
    : CallsFollowNames (first :: rest) := by
  intro front kind back split
  rcases List.cons_eq_append_iff.mp split with ⟨rfl, same⟩ | ⟨more, rfl, same⟩
  · obtain ⟨rfl, rfl⟩ := List.cons.inj same
    exact ⟨called, uncalled⟩
  · exact later more kind back same

namespace Lexeme

theorem characterKind_eq_opening_iff (comparisons : Bool) (c : Char)
    : characterKind comparisons c = .opening ↔ c = '(' := by
  by_cases same : c = '('
  · subst same
    exact iff_of_true rfl rfl
  · refine iff_of_false ?_ same
    rw [characterKind]
    split
    · decide
    · split
      · cases comparisons <;> decide
      · rw [if_neg (by simpa using same)]
        split
        · decide
        · split <;> decide

theorem nameKind_ne_opening (span rest : List Char) : nameKind span rest ≠ .opening := by
  rw [nameKind]
  split
  · decide
  · split <;> decide

/-- Only an opening parenthesis is a lexeme that opens one. -/
theorem kindOf_eq_opening_iff (options : TokenizerOptions) (c : Char) (more rest : List Char)
    : kindOf options c more rest = .opening ↔ c = '(' := by
  rw [kindOf]
  split
  · rename_i digit
    refine iff_of_false (by decide) ?_
    rintro rfl
    cases digit
  · split
    · rename_i begins
      refine iff_of_false (nameKind_ne_opening _ _) ?_
      rintro rfl
      revert begins
      decide
    · exact characterKind_eq_opening_iff options.comparisons c

/-- Looking ahead over white space for an opening parenthesis finds what is read next. -/
theorem head?_kind_ofText (options : TokenizerOptions) (offset : Nat) (text : List Char)
    : ((ofText options offset text).map kind).head? = some .opening
        ↔ callFollows text = true := by
  fun_induction ofText options offset text with
  | case1 => simp [callFollows, trimStart]
  | case2 offset c rest blank ih =>
      rw [ih, callFollows, callFollows, trimStart, trimStart, List.dropWhile_cons_of_pos blank]
  | case3 offset c rest visible lexeme ih =>
      rw [List.map_cons, List.head?_cons, Option.some_inj, callFollows, trimStart,
        List.dropWhile_cons_of_neg visible, List.head?_cons, beq_iff_eq, Option.some_inj]
      rw [show lexeme = next options offset c rest from rfl, next_eq_kindOf]
      exact kindOf_eq_opening_iff options c _ _

/-- The kind of a name depends on what is read next. -/
theorem callFollows_of_kindOf (options : TokenizerOptions) (c : Char) (more rest : List Char)
    : (kindOf options c more rest = .function → callFollows rest = true)
      ∧ (kindOf options c more rest = .reference → callFollows rest = false) := by
  have other := characterKind_ne options.comparisons c
  rw [kindOf]
  split
  · simp
  · split
    · rw [nameKind]
      split
      · simp
      · split
        · rename_i follows
          exact ⟨fun _ => follows, by simp⟩
        · rename_i absent
          exact ⟨by simp, fun _ => Bool.eq_false_iff.mpr absent⟩
    · exact ⟨fun same => absurd same other.2.2, fun same => absurd same other.2.1⟩

theorem callsFollowNames_ofText (options : TokenizerOptions) (offset : Nat) (text : List Char)
    : CallsFollowNames ((ofText options offset text).map kind) := by
  fun_induction ofText options offset text with
  | case1 => exact .nil
  | case2 offset c rest blank ih => exact ih
  | case3 offset c rest visible lexeme ih =>
      have ahead := head?_kind_ofText options (offset + byteLength lexeme.span)
        (rest.drop lexeme.more.length)
      obtain ⟨called, uncalled⟩ :=
        callFollows_of_kindOf options c lexeme.more (rest.drop lexeme.more.length)
      have sort : lexeme.kind = kindOf options c lexeme.more (rest.drop lexeme.more.length) :=
        congrArg kind (next_eq_kindOf options offset c rest)
      rw [List.map_cons]
      refine .cons (fun function => ?_) (fun reference => ?_) ih
      · exact ahead.mpr (called (sort.symm.trans function))
      · rw [Ne, ahead, uncalled (sort.symm.trans reference)]
        exact Bool.false_ne_true

end Lexeme

theorem callsFollowNames_tokenize (formula : String) (options : TokenizerOptions)
    : CallsFollowNames ((tokenize formula options).map Token.kind) := by
  rw [tokenize, List.map_map, Lexeme.ofFormula]
  split
  · exact Lexeme.callsFollowNames_ofText options _ _
  · exact Lexeme.callsFollowNames_ofText options _ _

-----------------------------------------------------------------------------------------
-- Reading
-----------------------------------------------------------------------------------------

namespace Expr

variable {options : ReaderOptions}

/-- An opening parenthesis is missed only right after the name of a function. -/
theorem ofTerminals_eq_missingOpening {terminals : List Terminal} {function : String}
    (failed : ofTerminals terminals options = .error (.missingOpening function))
    : ∃ front back,
        terminals = front ++ ⟨.function, function⟩ :: back
        ∧ (back.map Terminal.role).head? ≠ some .opening := by
  have shallow : ∀ limit, SyntaxError.missingOpening function ≠ .tooDeep limit := by simp
  rw [ofTerminals] at failed
  cases run : terminals.foldlM (Reading.step options) {} with
  | ok reading =>
      rw [run] at failed
      obtain ⟨_, named, _⟩ := Reading.finish_eq_error shallow failed
      obtain ⟨front, rfl⟩ := Reading.foldlM_opening run named
      exact ⟨front, [], rfl, by simp⟩
  | error error =>
      rw [run] at failed
      obtain rfl : error = .missingOpening function := Except.error.inj failed
      obtain ⟨_, terminal, back, reading, rfl, frontRun, refused⟩ := Reading.foldlM_eq_error run
      obtain ⟨_, named, _⟩ := Reading.step_eq_error shallow refused
      obtain ⟨front, rfl⟩ := Reading.foldlM_opening frontRun named
      refine ⟨front, terminal :: back, by simp, fun opens => ?_⟩
      have role : terminal.role = .opening := Option.some.inj opens
      have phase : reading.phase = .opening function := named
      simp [Reading.step, phase, role] at refused

end Expr

/-- The terminal of a function comes from its name, and the terminal after it from the token that
is next in the list, since neither of the two is left out or fused.
-/
theorem Terminal.head?_role_of_callsFollowNames {tokens : List Token} {function : String}
    {front back : List Terminal} (calls : CallsFollowNames (tokens.map Token.kind))
    (same : ofTokens tokens = front ++ ⟨.function, function⟩ :: back)
    : (back.map role).head? = some .opening := by
  rw [ofTokens] at same
  obtain ⟨left, right, known, _, rightSame⟩ := fuseAll_eq_append same
  rcases fuseAll_eq_cons rightSame with
    ⟨name, after, rfl, alone, rfl, _⟩ | ⟨_, _, _, _, _, _, fused, _⟩
  · obtain ⟨early, late, rfl, _, lateSame⟩ := List.filter_eq_append_iff.mp known
    obtain ⟨dropped, rest, rfl, _, _, rfl⟩ := List.filter_eq_cons_iff.mp lateSame
    have kind : name.kind = .function :=
      Token.kind_of_role (by rw [show name.role = .function from congrArg role alone]; rfl)
    have opens := (calls ((early ++ dropped).map Token.kind) name.kind (rest.map Token.kind)
      (by simp)).1 kind
    rw [List.head?_map, Option.map_eq_some_iff] at opens
    obtain ⟨opening, first, openingKind⟩ := opens
    obtain ⟨rest, rfl⟩ := List.head?_eq_some_iff.mp first
    rw [List.filter_cons_of_pos (by simp [openingKind]),
      fuseAll_cons fun next _ => by simp [Token.fuse?, openingKind]]
    simp [ofToken, Token.role, openingKind]
  · cases fused

/-- Where calls follow names, no opening parenthesis is missing. -/
theorem CallsFollowNames.ofTokens_ne_missingOpening {tokens : List Token}
    (calls : CallsFollowNames (tokens.map Token.kind)) (options : ReaderOptions)
    (function : String)
    : Expr.ofTokens tokens options ≠ .error (.missingOpening function) := by
  intro failed
  obtain ⟨front, back, same, absent⟩ := Expr.ofTerminals_eq_missingOpening failed
  exact absent (Terminal.head?_role_of_callsFollowNames calls same)

-----------------------------------------------------------------------------------------
-- Reports
-----------------------------------------------------------------------------------------

/-- Whether a report begins as that of a missing opening parenthesis does. -/
def ReportsMissingOpening (message : String) : Prop :=
  "Expected '(' after".toList <+: message.toList

/-- What the reports of all other errors begin with. -/
def otherHeadings : List String :=
  ["Unexpected end of formula", "Unexpected token: ", "Expected ')' to close '('",
   "Expected ')' after arguments of ", "Maximum nesting depth of ", "Invalid character: "]

theorem otherHeadings_apart
    : ∀ heading ∈ otherHeadings,
      ¬ "Expected '(' after".toList <+: heading.toList
        ∧ ¬ heading.toList <+: "Expected '(' after".toList := by
  decide +kernel

theorem not_reportsMissingOpening {heading : String} (other : heading ∈ otherHeadings)
    (rest : String)
    : ¬ ReportsMissingOpening (heading ++ rest) := by
  intro begins
  obtain ⟨notBefore, notAfter⟩ := otherHeadings_apart heading other
  rw [ReportsMissingOpening, String.toList_append] at begins
  rcases List.prefix_or_prefix_of_prefix begins (List.prefix_append _ _) with before | after
  · exact notBefore before
  · exact notAfter after

/-- Only the error about a missing opening parenthesis is reported as one. -/
theorem FormulaError.reportsMissingOpening_iff (error : FormulaError)
    : ReportsMissingOpening error.message
        ↔ ∃ function, error = .malformed (.missingOpening function) := by
  constructor
  · intro reports
    have whole {heading : String} (other : heading ∈ otherHeadings)
        : ¬ ReportsMissingOpening heading := by
      simpa using not_reportsMissingOpening other ""
    cases error with
    | invalidCharacter c => exact absurd reports (not_reportsMissingOpening (by decide) _)
    | malformed cause =>
        cases cause with
        | missingOpening function => exact ⟨function, rfl⟩
        | unexpectedEnd => exact absurd reports (whole (by decide))
        | unclosedGroup => exact absurd reports (whole (by decide))
        | unexpectedToken text => exact absurd reports (not_reportsMissingOpening (by decide) _)
        | unclosedCall name => exact absurd reports (not_reportsMissingOpening (by decide) _)
        | tooDeep limit =>
            have split : (FormulaError.malformed (.tooDeep limit)).message
                = "Maximum nesting depth of " ++ (Nat.repr limit ++ " exceeded") :=
              String.append_assoc
            rw [split] at reports
            exact absurd reports (not_reportsMissingOpening (by decide) _)
  · rintro ⟨function, rfl⟩
    have heading : "Expected '(' after".toList <+: "Expected '(' after ".toList := by
      decide +kernel
    have begins : "Expected '(' after".toList <+: ("Expected '(' after " ++ function).toList := by
      rw [String.toList_append]
      exact heading.trans (List.prefix_append _ _)
    exact begins

section Formulas

variable {formula : String} {options : TokenizerOptions} {reader : ReaderOptions}

theorem Expr.not_reportsMissingOpening_of_tokens {cause : SyntaxError}
    (failed : Expr.ofTokens (tokenize formula options) reader = .error cause)
    : ¬ ReportsMissingOpening cause.message := by
  intro reports
  obtain ⟨function, same⟩ :=
    (FormulaError.reportsMissingOpening_iff (.malformed cause)).mp reports
  obtain rfl : cause = .missingOpening function := FormulaError.malformed.inj same
  have calls := callsFollowNames_tokenize formula options
  exact calls.ofTokens_ne_missingOpening reader function failed

theorem Expr.not_reportsMissingOpening_of_knownTokens {error : FormulaError}
    (failed : Expr.ofKnownTokens (tokenize formula options) reader = .error error)
    : ¬ ReportsMissingOpening error.message := by
  rw [Expr.ofKnownTokens] at failed
  split at failed
  · cases failed
    exact not_reportsMissingOpening (by decide) _
  · cases outcome : Expr.ofTokens (tokenize formula options) reader with
    | ok e =>
        rw [outcome] at failed
        cases failed
    | error cause =>
        rw [outcome] at failed
        cases failed
        exact Expr.not_reportsMissingOpening_of_tokens outcome

theorem not_reportsMissingOpening_of_tryConvert {renames : RenameTable} {options : ConvertOptions}
    {error : FormulaError} (failed : tryConvert formula renames options = .error error)
    : ¬ ReportsMissingOpening error.message := by
  cases mode : options.mode with
  | quick =>
      simp only [tryConvert, mode] at failed
      cases failed
  | precise =>
      rw [tryConvert_of_precise mode] at failed
      split at failed
      · cases failed
      · cases outcome : Expr.ofKnownTokens (tokenize formula options.tokenizer) options.reader with
        | ok e =>
            rw [outcome] at failed
            cases failed
        | error other =>
            rw [outcome] at failed
            cases failed
            exact Expr.not_reportsMissingOpening_of_knownTokens outcome

end Formulas

/-- A formula is never refused for a missing opening parenthesis. Each of its functions is
followed by one and no reference is, and so reading its tokens never reports one as missing, not
even where tokens with no meaning are left out, and neither does converting it.
-/
theorem formula_calls_follow_names (formula : String) (renames : RenameTable)
    (options : ConvertOptions)
    : CallsFollowNames ((tokenize formula options.tokenizer).map Token.kind)
      ∧ (∀ reader cause,
          Expr.ofTokens (tokenize formula options.tokenizer) reader = .error cause
          → ¬ ReportsMissingOpening cause.message)
      ∧ (∀ error,
          Expr.ofFormula formula = .error error → ¬ ReportsMissingOpening error.message)
      ∧ ∀ error,
          tryConvert formula renames options = .error error
          → ¬ ReportsMissingOpening error.message :=
  ⟨callsFollowNames_tokenize formula options.tokenizer,
    fun _ _ => Expr.not_reportsMissingOpening_of_tokens,
    fun _ => Expr.not_reportsMissingOpening_of_knownTokens,
    fun _ => not_reportsMissingOpening_of_tryConvert⟩

/-- In `=f ($a1#(g (2` both names of functions are followed by a parenthesis over white space, and
the reference is one as a character with no meaning follows it. Where that is left out the
reference stands right before a parenthesis, and it is the closing one of `f` that is missing.
-/
theorem formula_calls_follow_names_unknown
    : let formula := "=f\u2003($a1#(g (2"
      let tokens := tokenize formula
      tokens.map Token.kind
          = [.function, .opening, .reference, .unknown, .opening, .function, .opening, .number]
      ∧ CallsFollowNames (tokens.map Token.kind)
      ∧ Expr.ofTokens tokens = .error (.unclosedCall "F")
      ∧ ¬ ReportsMissingOpening (SyntaxError.unclosedCall "F").message
      ∧ Expr.ofFormula formula = .error (.invalidCharacter '#')
      ∧ tryConvert formula .empty = .error (.invalidCharacter '#')
      ∧ ¬ ReportsMissingOpening (FormulaError.invalidCharacter '#').message := by
  intro formula tokens
  have listed : tokens =
      [⟨.function, "F", 1⟩, ⟨.opening, "(", 5⟩, ⟨.reference, "A1", 6⟩, ⟨.unknown, "#", 9⟩,
        ⟨.opening, "(", 10⟩, ⟨.function, "G", 11⟩, ⟨.opening, "(", 13⟩, ⟨.number, "2", 14⟩] := by
    decide +kernel
  have read : Expr.ofTokens tokens = .error (.unclosedCall "F") := by
    rw [listed]
    rfl
  have refused : Expr.ofFormula formula = .error (.invalidCharacter '#') := by
    rw [Expr.ofFormula, show tokenize formula = tokens from rfl, listed]
    rfl
  have unconverted : tryConvert formula .empty = .error (.invalidCharacter '#') := by
    decide +kernel
  obtain ⟨calls, tokensReport, _, conversionReports⟩ :=
    formula_calls_follow_names formula .empty {}
  exact ⟨by rw [listed]; rfl, calls, read, tokensReport {} _ read, refused, unconverted,
    conversionReports _ unconverted⟩

end FormulaLatex
