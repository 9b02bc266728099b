import FormulaLatex.Quick.Call

/-! Typesetting the calls of a text until none is left. Every call that is typeset takes away an
opening parenthesis, so this comes to an end.
-/

namespace FormulaLatex.Quick

open Text

/-- A text in which the calls of a function are typeset, the leftmost first. A call begins
where a word begins; `inWord` tells whether a word character precedes the text.
-/
def typesetFrom (function : Function) (inWord : Bool) (text : List Char) : List Char :=
  match text with
  | [] => []
  | c :: tail =>
      match _found : if inWord then none else call? function (c :: tail) with
      | some (body, rest) => function.toLatex body ++ typesetFrom function false rest
      | none => c :: typesetFrom function (isWordCharacter c) tail
termination_by text.length
decreasing_by
  · split at _found
    · simp at _found
    · obtain ⟨front, same, _⟩ := call?_append _found
      rw [same]
      simp only [List.length_append, List.length_cons]
      omega
  · simp

/-- A text in which the calls of a function are typeset. -/
def typeset (function : Function) (text : List Char) : List Char :=
  typesetFrom function false text

/-- The notation of a call has no opening parenthesis if the text between the parentheses of
the call has none.
-/
theorem count_toLatex (function : Function) {body : List Char}
    (inner : ∀ c ∈ body, isParenthesis c = false)
    : (function.toLatex body).count '(' = 0 := by
  have absent : '(' ∉ body := by
    intro member
    have parenthesis := inner '(' member
    simp [isParenthesis] at parenthesis
  rw [List.count_eq_zero]
  cases function <;>
    simp [Function.toLatex, Function.command, Function.keptOpening, Function.keptClosing, absent]

/-- Typesetting leaves a text alone or takes away an opening parenthesis. -/
theorem typesetFrom_eq_or_count_lt (function : Function) (inWord : Bool) (text : List Char)
    : typesetFrom function inWord text = text
        ∨ (typesetFrom function inWord text).count '(' < text.count '(' := by
  fun_induction typesetFrom function inWord text with
  | case1 => exact Or.inl rfl
  | case2 inWord c tail body rest found ih =>
      right
      split at found
      · simp at found
      · obtain ⟨front, same, inner⟩ := call?_append found
        have shorter : (typesetFrom function false rest).count '(' ≤ rest.count '(' := by
          rcases ih with unchanged | fewer
          · exact Nat.le_of_eq (by rw [unchanged])
          · exact Nat.le_of_lt fewer
        rw [same]
        simp only [List.count_append, List.count_cons, count_toLatex function inner]
        simp
        omega
  | case3 inWord c tail _ ih =>
      rcases ih with unchanged | fewer
      · exact Or.inl (by rw [unchanged])
      · exact Or.inr (by simp only [List.count_cons]; omega)

/-- A text in which the calls of each function are typeset once, function by function. -/
def pass (text : List Char) : List Char :=
  Function.all.foldl (fun text function => typeset function text) text

/-- Typesetting function by function leaves a text alone or takes away an opening parenthesis. -/
theorem foldl_typeset_eq_or_count_lt (functions : List Function) (text : List Char)
    : functions.foldl (fun text function => typeset function text) text = text
        ∨ (functions.foldl (fun text function => typeset function text) text).count '('
            < text.count '(' := by
  induction functions generalizing text with
  | nil => exact Or.inl rfl
  | cons function functions ih =>
      simp only [List.foldl_cons]
      rcases typesetFrom_eq_or_count_lt function false text with first | first
      · rw [typeset, first]
        exact ih text
      · right
        rcases ih (typeset function text) with later | later
        · rw [later]
          exact first
        · exact Nat.lt_trans later first

/-- A pass that changes a text takes away an opening parenthesis. -/
theorem count_pass_lt {text : List Char} (changed : pass text ≠ text)
    : (pass text).count '(' < text.count '(' :=
  (foldl_typeset_eq_or_count_lt Function.all text).resolve_left changed

/-- A text in which no call is left. -/
def settle (text : List Char) : List Char :=
  if _changed : pass text = text then text else settle (pass text)
termination_by text.count '('
decreasing_by exact count_pass_lt _changed

end FormulaLatex.Quick
