import Mathlib.Logic.Function.Iterate
import FormulaLatex.Proofs.Quick.OtherText

/-! How many passes it takes until a text has settled. A call has one opening parenthesis more than
its notation, so every pass with a change leaves fewer of them, and the passes come to an end after
at most as many as there are in the text. The last one changes nothing, and then no call is left.
-/

namespace FormulaLatex.Quick

variable {function : Function} {front body back text : List Char}

/-- Whether searching for functions, one after another, is noted to change a text: one of the
searches changes what those before it have left.
-/
def noted : List Function → List Char → Bool
  | [], _ => false
  | function :: rest, text => typeset function text != text || noted rest (typeset function text)

/-- Whether a pass is noted to change a text. -/
def changes (text : List Char) : Bool :=
  noted Function.all text

-----------------------------------------------------------------------------------------
-- One call
-----------------------------------------------------------------------------------------

theorem count_opening_eq_zero {chars : List Char} (plain : ∀ c ∈ chars, isParenthesis c = false)
    : chars.count '(' = 0 := by
  rw [List.count_eq_zero]
  intro member
  cases plain _ member

/-- Typesetting a call takes away one opening parenthesis. -/
theorem HasCall.count_eq (call : HasCall function front body back text)
    : text.count '(' = (front ++ (function.toLatex body ++ back)).count '(' + 1 := by
  obtain ⟨name, blanks, same, named, blank⟩ := call.spelled
  have inName := count_opening_eq_zero fun c member =>
    isParenthesis_eq_false_of_isWordCharacter (isWordCharacter_of_names named c member)
  have inBlanks := count_opening_eq_zero fun c member =>
    isParenthesis_eq_false_of_isBlank (blank c member)
  have inBody := count_opening_eq_zero call.plain
  have inNotation := count_toLatex function call.plain
  rw [same]
  simp [inName, inBlanks, inBody, inNotation]
  omega

/-- A call is not its own notation, and a search for its function changes the text. -/
theorem HasCall.typeset_ne_self (call : HasCall function front body back text)
    : front ++ (function.toLatex body ++ back) ≠ text ∧ typeset function text ≠ text := by
  refine ⟨fun same => ?_, call.typesetFrom_ne_self fun _ => rfl⟩
  have fewer := call.count_eq
  rw [same] at fewer
  omega

-----------------------------------------------------------------------------------------
-- One pass
-----------------------------------------------------------------------------------------

/-- Searches that are noted to change a text take away an opening parenthesis. -/
theorem count_lt_of_noted {functions : List Function} (changed : noted functions text = true)
    : (functions.foldl (fun text function => typeset function text) text).count '('
        < text.count '(' := by
  induction functions generalizing text with
  | nil => cases changed
  | cons function rest ih =>
      rw [List.foldl_cons]
      rcases typesetFrom_eq_or_count_lt function false text with same | fewer
      · have unchanged : typeset function text = text := same
        rw [noted, unchanged, bne_self_eq_false, Bool.false_or] at changed
        rw [unchanged]
        exact ih changed
      · rcases foldl_typeset_eq_or_count_lt rest (typeset function text) with same | later
        · rw [same]
          exact fewer
        · exact later.trans fewer

theorem foldl_typeset_of_not_noted {functions : List Function}
    (unchanged : noted functions text = false)
    : functions.foldl (fun text function => typeset function text) text = text := by
  induction functions generalizing text with
  | nil => rfl
  | cons function rest ih =>
      rw [noted, Bool.or_eq_false_iff, bne_eq_false_iff_eq] at unchanged
      obtain ⟨first, others⟩ := unchanged
      rw [first] at others
      rw [List.foldl_cons, first]
      exact ih others

/-- The searches of a pass do not undo each other: a pass is noted if it changes the text. -/
theorem changes_eq_false_iff : changes text = false ↔ pass text = text := by
  refine ⟨foldl_typeset_of_not_noted, fun same => Bool.eq_false_iff.mpr fun changed => ?_⟩
  have fewer : (pass text).count '(' < text.count '(' := count_lt_of_noted changed
  rw [same] at fewer
  exact Nat.lt_irrefl _ fewer

-----------------------------------------------------------------------------------------
-- All passes
-----------------------------------------------------------------------------------------

/-- A text settles by passes that are noted, each of which takes away an opening parenthesis, until
one is not.
-/
theorem exists_rounds (text : List Char)
    : ∃ rounds, rounds + (settle text).count '(' ≤ text.count '('
        ∧ pass^[rounds] text = settle text
        ∧ (∀ round < rounds, changes (pass^[round] text) = true)
        ∧ changes (settle text) = false := by
  fun_induction settle text with
  | case1 text unchanged =>
      exact ⟨0, by omega, rfl, fun _ before => absurd before (Nat.not_lt_zero _),
        changes_eq_false_iff.mpr unchanged⟩
  | case2 text changed ih =>
      obtain ⟨rounds, bound, reached, noted, settled⟩ := ih
      have fewer := count_pass_lt changed
      refine ⟨rounds + 1, by omega, ?_, fun round before => ?_, settled⟩
      · rw [Function.iterate_succ_apply]
        exact reached
      · cases round with
        | zero => exact Bool.ne_false_iff.mp fun same => changed (changes_eq_false_iff.mp same)
        | succ round =>
            rw [Function.iterate_succ_apply]
            exact noted round (Nat.lt_of_succ_lt_succ before)

/-- A conversion ends on every text. Each pass that is noted takes away an opening parenthesis, and
every call changes the text in which it is found; so after at most as many noted passes as the
formula has opening parentheses there is one that is not, and the text it leaves has no call.
-/
theorem settle_within_openings (formula : String)
    : (∀ text, changes text = true → (pass text).count '(' < text.count '(')
      ∧ (∀ function front body back text, HasCall function front body back text →
        front ++ (function.toLatex body ++ back) ≠ text ∧ typeset function text ≠ text)
      ∧ ∃ rounds ≤ formula.toList.count '(',
          (∀ round < rounds, changes (pass^[round] (formulaText formula.toList)) = true)
          ∧ changes (pass^[rounds] (formulaText formula.toList)) = false
          ∧ settle (formulaText formula.toList) = pass^[rounds] (formulaText formula.toList)
          ∧ ∀ function front body back,
              ¬ HasCall function front body back (settle (formulaText formula.toList)) := by
  refine ⟨fun text changed => count_lt_of_noted changed,
    fun function front body back text call => call.typeset_ne_self, ?_⟩
  obtain ⟨rounds, bound, reached, noted, settled⟩ := exists_rounds (formulaText formula.toList)
  have fewer := (sublist_formulaText formula.toList).count_le '('
  refine ⟨rounds, by omega, noted, ?_, reached.symm, fun _ _ _ _ => not_hasCall_settle⟩
  rw [reached]
  exact settled

/-- Calls in each other, one of which a single pass leaves, and one that is never closed. -/
theorem settle_within_openings_nested
    : let text := "SQRT ( sin(PI( )) )*LOG(2".toList
      changes text = true ∧ (pass text).count '(' < text.count '('
      ∧ HasCall .pi "SQRT ( sin(".toList [' '] ") )*LOG(2".toList text
      ∧ typeset .pi text ≠ text
      ∧ ∃ rounds ≤ 4, settle text = pass^[rounds] text := by
  intro text
  obtain ⟨fewer, matched, rounds, bound, _, _, settled, _⟩ :=
    settle_within_openings "=$SQRT ( sin(PI( )) )*LOG(2"
  have changed : changes text = true := by
    decide +kernel
  have call : HasCall .pi "SQRT ( sin(".toList [' '] ") )*LOG(2".toList text := by
    rw [hasCall_iff]
    exact ⟨by decide +kernel, "PI( )) )*LOG(2".toList, by decide, by decide +kernel⟩
  have shown : formulaText "=$SQRT ( sin(PI( )) )*LOG(2".toList = text := by
    decide +kernel
  rw [shown] at settled
  exact ⟨changed, fewer text changed, call, (matched _ _ _ _ text call).2, rounds, bound, settled⟩

end FormulaLatex.Quick
