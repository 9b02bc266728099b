import FormulaLatex.Proofs.Quick.Compositional

/-! What a quick conversion leaves alone. Where a text has no call, only its operators are replaced
and its white space is tidied, and all other characters stay, in order. The two characters that
stand in for parentheses do not: they come out as parentheses wherever they come from.
-/

namespace FormulaLatex.Quick

open Text

variable {text : List Char}

-----------------------------------------------------------------------------------------
-- White space
-----------------------------------------------------------------------------------------

theorem sublist_trim (text : List Char) : (trim text).Sublist text := by
  have ending : trim text <+: trimStart text := List.rdropWhile_prefix isBlank _
  exact ending.sublist.trans (List.dropWhile_sublist isBlank)

theorem sublist_formulaText (text : List Char) : (formulaText text).Sublist text := by
  refine List.Sublist.trans ?_ (sublist_trim text)
  rw [formulaText]
  refine List.filter_sublist.trans ?_
  split
  · rename_i rest begins
    rw [begins]
    exact List.sublist_cons_self '=' rest
  · exact List.Sublist.refl _

section visible

variable {kept : Char → Bool} (skips : ∀ c, isBlank c = true → kept c = false)
include skips

theorem filter_dropWhile_isBlank (text : List Char)
    : (text.dropWhile isBlank).filter kept = text.filter kept := by
  have dropped : (text.takeWhile isBlank).filter kept = [] := by
    rw [List.filter_eq_nil_iff]
    intro c member
    simp [skips c (List.mem_takeWhile_imp member)]
  have whole := congrArg (List.filter kept)
    (List.takeWhile_append_dropWhile (p := isBlank) (l := text))
  rwa [List.filter_append, dropped, List.nil_append] at whole

theorem filter_trim (text : List Char) : (trim text).filter kept = text.filter kept := by
  rw [trim, trimEnd, List.filter_reverse, filter_dropWhile_isBlank skips, ← List.filter_reverse,
    List.reverse_reverse, trimStart, filter_dropWhile_isBlank skips]

theorem filter_collapseBlanksFrom (afterBlank : Bool) (text : List Char)
    : (collapseBlanksFrom afterBlank text).filter kept = text.filter kept := by
  have space : kept ' ' = false :=
    skips ' ' (by decide)
  fun_induction collapseBlanksFrom afterBlank text with
  | case1 => rfl
  | case2 c rest blank ih => rw [ih, List.filter_cons_of_neg (by simp [skips c blank])]
  | case3 afterBlank c rest blank written ih =>
      rw [List.filter_cons_of_neg (by simp [space]), ih,
        List.filter_cons_of_neg (by simp [skips c blank])]
  | case4 afterBlank c rest visible ih => rw [List.filter_cons, List.filter_cons, ih]

/-- Tidying a text leaves all that is visible. -/
theorem filter_tidy (text : List Char)
    : (collapseBlanks (trim text)).filter kept = text.filter kept := by
  rw [collapseBlanks, filter_collapseBlanksFrom skips, filter_trim skips]

end visible

-----------------------------------------------------------------------------------------
-- Operators
-----------------------------------------------------------------------------------------

/-- Whether a character belongs to no operator that is replaced and is not white space. -/
def isOther (c : Char) : Bool :=
  !isBlank c && c ∉ ['<', '>', '=', '*']

theorem isOther_eq_false_of_isBlank (c : Char) (blank : isBlank c = true) : isOther c = false := by
  simp [isOther, blank]

/-- All that belongs to no operator is displayed as it is. -/
theorem sublist_displayOperators (text : List Char)
    : (text.filter isOther).Sublist (displayOperators text) := by
  have replaced : ∀ (operator : List Char) {command rest : List Char},
      operator.filter isOther = [] → (rest.filter isOther).Sublist (displayOperators rest) →
      ((operator ++ rest).filter isOther).Sublist (command ++ displayOperators rest) := by
    intro operator command rest noOther ih
    rw [List.filter_append, noOther]
    exact List.sublist_append_of_sublist_right ih
  fun_induction displayOperators text with
  | case1 rest ih => exact replaced ['<', '>'] (by decide) ih
  | case2 rest ih => exact replaced ['<', '='] (by decide) ih
  | case3 rest ih => exact replaced ['>', '='] (by decide) ih
  | case4 rest ih => exact replaced ['*'] (by decide) ih
  | case5 c rest _ _ _ _ ih =>
      rw [List.filter_cons]
      split
      · exact ih.cons_cons c
      · exact ih.cons c
  | case6 => exact List.Sublist.refl _

/-- Whether no stage of a conversion takes a character away or adds it, the notation of calls apart:
it is not white space, neither an equals or dollar sign nor of an operator, and of no command that
displays one.
-/
def isLasting (c : Char) : Bool :=
  !isBlank c
    && c ∉ ['=', '$', '<', '>', '*'] ++ ['\\', 'n', 'e', 'q', 'l', 'g', 'c', 'd', 'o', 't']

theorem isLasting_eq_false_of_isBlank (c : Char) (blank : isBlank c = true)
    : isLasting c = false := by
  simp [isLasting, blank]

theorem filter_isLasting_displayOperators (text : List Char)
    : (displayOperators text).filter isLasting = text.filter isLasting := by
  have replaced : ∀ (command operator : List Char) {rest : List Char},
      (command ++ operator).filter isLasting = [] →
      (displayOperators rest).filter isLasting = rest.filter isLasting →
      (command ++ displayOperators rest).filter isLasting
        = (operator ++ rest).filter isLasting := by
    intro command operator rest passing ih
    rw [List.filter_append, List.append_eq_nil_iff] at passing
    rw [List.filter_append, List.filter_append, passing.1, passing.2, ih]
  fun_induction displayOperators text with
  | case1 rest ih => exact replaced [' ', '\\', 'n', 'e', 'q', ' '] ['<', '>'] (by decide) ih
  | case2 rest ih => exact replaced [' ', '\\', 'l', 'e', 'q', ' '] ['<', '='] (by decide) ih
  | case3 rest ih => exact replaced [' ', '\\', 'g', 'e', 'q', ' '] ['>', '='] (by decide) ih
  | case4 rest ih => exact replaced [' ', '\\', 'c', 'd', 'o', 't', ' '] ['*'] (by decide) ih
  | case5 c rest _ _ _ _ ih => rw [List.filter_cons, List.filter_cons, ih]
  | case6 => rfl

theorem filter_isLasting_formulaText (text : List Char)
    : (formulaText text).filter isLasting = text.filter isLasting := by
  have signs : isLasting '=' = false ∧ isLasting '$' = false := by
    decide
  have noDollar : ∀ text : List Char,
      (text.filter fun c => c != '$').filter isLasting = text.filter isLasting := by
    intro text
    rw [List.filter_filter]
    refine List.filter_congr fun c _ => ?_
    by_cases dollar : c = '$'
    · simp [dollar, signs.2]
    · simp [dollar]
  rw [formulaText, noDollar, ← filter_trim isLasting_eq_false_of_isBlank text]
  split
  · rename_i rest begins
    rw [begins, List.filter_cons_of_neg (by simp [signs.1])]
  · rfl

/-- The lasting characters of a formula after a quick conversion. -/
theorem filter_isLasting_convert (formula : String)
    : (convert formula).toList.filter isLasting
        = (restoreParentheses (settle (formulaText formula.toList))).filter isLasting := by
  rw [convert, String.toList_ofList, filter_tidy isLasting_eq_false_of_isBlank,
    replaceOperators_eq, filter_isLasting_displayOperators]

-----------------------------------------------------------------------------------------
-- Texts without calls
-----------------------------------------------------------------------------------------

theorem noStandIn_iff
    : NoStandIn text ↔ Function.keptOpening ∉ text ∧ Function.keptClosing ∉ text := by
  constructor
  · intro noStandIn
    exact ⟨fun member => (noStandIn _ member).1 rfl, fun member => (noStandIn _ member).2 rfl⟩
  · rintro ⟨noOpening, noClosing⟩ c member
    exact ⟨fun same => noOpening (same ▸ member), fun same => noClosing (same ▸ member)⟩

theorem noStandIn_restoreParentheses (text : List Char)
    : NoStandIn (restoreParentheses text) := by
  intro c member
  obtain ⟨d, _, rfl⟩ := List.mem_map.mp member
  split
  · decide
  · split
    · decide
    · rename_i noOpening noClosing
      exact ⟨noOpening, noClosing⟩

/-- The text of a formula as it is shown if nothing in it is a call: its operators are displayed in
one scan, and its white space is tidied.
-/
def displayText (text : List Char) : List Char :=
  collapseBlanks (trim (displayOperators text))

theorem sublist_displayText (text : List Char)
    : (text.filter isOther).Sublist (displayText text) := by
  have displayed := (sublist_displayOperators text).filter isOther
  rw [List.filter_filter, ← filter_tidy isOther_eq_false_of_isBlank] at displayed
  simp only [Bool.and_self] at displayed
  exact displayed.trans List.filter_sublist

theorem noStandIn_displayText_iff : NoStandIn (displayText text) ↔ NoStandIn text := by
  have lasting : isLasting Function.keptOpening = true ∧ isLasting Function.keptClosing = true := by
    decide
  have same : (displayText text).filter isLasting = text.filter isLasting := by
    rw [displayText, filter_tidy isLasting_eq_false_of_isBlank, filter_isLasting_displayOperators]
  have stays : ∀ c, isLasting c = true → (c ∈ displayText text ↔ c ∈ text) := by
    intro c lasts
    have member := congrArg (c ∈ ·) same
    simpa [lasts] using member
  rw [noStandIn_iff, noStandIn_iff, stays _ lasting.1, stays _ lasting.2]

/-- Where no call is recognized in the text of a formula, the conversion shows that text: operators
are displayed, white space is tidied, and every other character is kept, in order. Only the two
stand-ins for parentheses are not, wherever they stand: they are shown as the parentheses.
-/
theorem convert_without_calls (formula : String)
    (noCall : ∀ function front body back,
      ¬ HasCall function front body back (formulaText formula.toList))
    : convert formula
          = String.ofList (displayText (restoreParentheses (formulaText formula.toList)))
      ∧ (convert formula = String.ofList (displayText (formulaText formula.toList))
          ↔ NoStandIn (formulaText formula.toList))
      ∧ ((restoreParentheses (formulaText formula.toList)).filter isOther).Sublist
          (convert formula).toList := by
  have shown : convert formula
      = String.ofList (displayText (restoreParentheses (formulaText formula.toList))) := by
    rw [convert, settle_eq_self noCall, replaceOperators_eq, displayText]
  refine ⟨shown, ⟨fun same => ?_, fun noStandIn => ?_⟩, ?_⟩
  · rw [shown, String.ofList_inj] at same
    rw [← noStandIn_displayText_iff, ← same, noStandIn_displayText_iff]
    exact noStandIn_restoreParentheses _
  · rw [shown, restoreParentheses_eq_self noStandIn]
  · rw [shown, String.toList_ofList]
    exact sublist_displayText _

/-- Calls of other functions, a name inside a word, and a call that is not closed. -/
theorem convert_without_calls_unknown
    : let formula := "= VLOOKUP($A1 , RESUME(2*x))<>sin (y  >= \ue000"
      (∀ function front body back,
        ¬ HasCall function front body back (formulaText formula.toList))
      ∧ convert formula
          = String.ofList (displayText (restoreParentheses (formulaText formula.toList)))
      ∧ (convert formula = String.ofList (displayText (formulaText formula.toList))
          ↔ NoStandIn (formulaText formula.toList))
      ∧ ((restoreParentheses (formulaText formula.toList)).filter isOther).Sublist
          (convert formula).toList := by
  intro formula
  have unchanged : ∀ function ∈ Function.all,
      typeset function (formulaText formula.toList) = formulaText formula.toList := by
    decide +kernel
  have noCall : ∀ function front body back,
      ¬ HasCall function front body back (formulaText formula.toList) :=
    fun _ _ _ _ => not_hasCall_of_typeset unchanged
  exact ⟨noCall, convert_without_calls formula noCall⟩

/-- A text of one stand-in has no call, and yet it is not kept. -/
theorem not_convert_without_calls
    : ¬ ∀ formula : String,
        (∀ function front body back,
          ¬ HasCall function front body back (formulaText formula.toList)) →
        convert formula = String.ofList (displayText (formulaText formula.toList)) := by
  intro same
  have unchanged : ∀ function ∈ Function.all,
      typeset function (formulaText "\ue000".toList) = formulaText "\ue000".toList := by
    decide +kernel
  have differ : convert "\ue000"
      ≠ String.ofList (displayText (formulaText "\ue000".toList)) := by
    decide +kernel
  exact differ (same "\ue000" fun _ _ _ _ => not_hasCall_of_typeset unchanged)

end FormulaLatex.Quick
