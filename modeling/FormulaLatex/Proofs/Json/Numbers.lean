import Mathlib.Data.List.Basic
import Mathlib.Data.List.TakeWhile
import FormulaLatex.Json.Lexeme

/-! Numbers in JSON text. A number goes on for as long as the text continues it, so before anything
that cannot do so it is read as it is by itself.
-/

namespace FormulaLatex.Json

/-- Whether a value may end where a text goes on as given: the text ends there, or space, a comma
or a closing bracket follows.
-/
def Stops (rest : List Char) : Prop :=
  ∀ c ∈ rest.head?, isSpace c = true ∨ c = ',' ∨ c = ']' ∨ c = '\x7d'

variable {rest : List Char}

/-- What follows a value does not continue a number. -/
theorem Stops.not_continues (stops : Stops rest) {c : Char} (first : rest.head? = some c)
    : c.isDigit = false ∧ c ∉ ['.', 'e', 'E', '+', '-'] := by
  have follows := stops c first
  simp only [isSpace, Bool.or_eq_true, beq_iff_eq] at follows
  rcases follows with (((rfl | rfl) | rfl) | rfl) | rfl | rfl | rfl <;> decide

/-- A text with such an end begins with what continues a number only if it did so before. -/
theorem Stops.head?_append_ne (stops : Stops rest) {c : Char}
    (continues : c ∈ ['0', '.', 'e', 'E', '+', '-']) {text : List Char}
    (other : text.head? ≠ some c)
    : (text ++ rest).head? ≠ some c := by
  intro first
  rw [List.head?_append, Option.or_eq_some_iff] at first
  rcases first with first | ⟨-, first⟩
  · exact other first
  · obtain ⟨noDigit, noMark⟩ := stops.not_continues first
    rcases List.mem_cons.mp continues with rfl | mark
    · cases noDigit
    · exact noMark mark

-----------------------------------------------------------------------------------------
-- Parts of a number
-----------------------------------------------------------------------------------------

theorem takeWhile_append_of_head? {test : Char → Bool} (text : List Char)
    (ends : ∀ c, rest.head? = some c → test c = false)
    : (text ++ rest).takeWhile test = text.takeWhile test := by
  induction text with
  | nil =>
      cases rest with
      | nil => rfl
      | cons c rest => exact List.takeWhile_cons_of_neg (by simp [ends c rfl])
  | cons c text ih => rw [List.cons_append, List.takeWhile_cons, List.takeWhile_cons, ih]

theorem takeWhile_isDigit_append (stops : Stops rest) (text : List Char)
    : (text ++ rest).takeWhile Char.isDigit = text.takeWhile Char.isDigit :=
  takeWhile_append_of_head? text fun _ first => (stops.not_continues first).1

theorem takeWhile_minus_append (stops : Stops rest) (text : List Char)
    : (text ++ rest).takeWhile (fun c => c == '-') = text.takeWhile (fun c => c == '-') := by
  refine takeWhile_append_of_head? text fun c first => ?_
  obtain ⟨-, noMark⟩ := stops.not_continues first
  grind

theorem wholePart_of_head? {text : List Char} (noZero : text.head? ≠ some '0')
    : wholePart text = text.takeWhile Char.isDigit := by
  rw [wholePart.eq_2]
  rintro more rfl
  exact noZero rfl

theorem wholePart_append (stops : Stops rest) (text : List Char)
    : wholePart (text ++ rest) = wholePart text := by
  by_cases zero : text.head? = some '0'
  · obtain ⟨more, rfl⟩ := List.head?_eq_some_iff.mp zero
    rfl
  · rw [wholePart_of_head? (stops.head?_append_ne (by decide) zero), wholePart_of_head? zero,
      takeWhile_isDigit_append stops]

/-- After a point, as many digits as there are make up the fraction, but at least one. -/
theorem fractionPart_point (text : List Char)
    : fractionPart ('.' :: text)
        = if text.takeWhile Char.isDigit = [] then []
          else '.' :: text.takeWhile Char.isDigit := by
  cases text with
  | nil => rfl
  | cons c text =>
      rw [fractionPart, List.takeWhile_cons]
      split <;> simp

theorem fractionPart_of_head? {text : List Char} (noPoint : text.head? ≠ some '.')
    : fractionPart text = [] := by
  rw [fractionPart]
  rintro digit more rfl
  exact noPoint rfl

theorem fractionPart_append (stops : Stops rest) (text : List Char)
    : fractionPart (text ++ rest) = fractionPart text := by
  by_cases point : text.head? = some '.'
  · obtain ⟨more, rfl⟩ := List.head?_eq_some_iff.mp point
    rw [List.cons_append, fractionPart_point, fractionPart_point,
      takeWhile_isDigit_append stops]
  · rw [fractionPart_of_head? (stops.head?_append_ne (by decide) point),
      fractionPart_of_head? point]

/-- After a sign, as many digits as there are make up the exponent, but at least one. -/
theorem exponentPart_signed {mark sign : Char} (marks : mark = 'e' ∨ mark = 'E')
    (signs : sign = '+' ∨ sign = '-') (text : List Char)
    : exponentPart (mark :: sign :: text)
        = if text.takeWhile Char.isDigit = [] then []
          else mark :: sign :: text.takeWhile Char.isDigit := by
  have noDigit : ¬ sign.isDigit = true := by
    rcases signs with rfl | rfl <;> decide
  cases text with
  | nil => simp [exponentPart, noDigit]
  | cons c text =>
      rw [exponentPart, if_pos marks, if_neg noDigit, List.takeWhile_cons]
      split <;> simp_all

/-- Without a sign, the digits follow the letter. -/
theorem exponentPart_unsigned {mark : Char} (marks : mark = 'e' ∨ mark = 'E')
    {text : List Char} (noSign : text.head? ≠ some '+' ∧ text.head? ≠ some '-')
    : exponentPart (mark :: text)
        = if text.takeWhile Char.isDigit = [] then []
          else mark :: text.takeWhile Char.isDigit := by
  match text with
  | [] => rfl
  | [digit] =>
      rw [exponentPart, List.takeWhile_cons]
      split <;> simp_all
  | digit :: second :: text =>
      have noSign : ¬ (digit = '+' ∨ digit = '-') := by
        simpa using noSign
      rw [exponentPart, if_pos marks, if_neg (not_and_of_not_left _ noSign)]
      cases digits : digit.isDigit <;> simp [List.takeWhile_cons, digits]

theorem exponentPart_of_head? {text : List Char}
    (noMark : text.head? ≠ some 'e' ∧ text.head? ≠ some 'E')
    : exponentPart text = [] := by
  match text with
  | [] => rfl
  | [_] => rfl
  | [mark, digit] =>
      have noMark : ¬ (mark = 'e' ∨ mark = 'E') := by
        simpa using noMark
      rw [exponentPart, if_neg fun marks => noMark marks.1]
  | mark :: second :: third :: text =>
      have noMark : ¬ (mark = 'e' ∨ mark = 'E') := by
        simpa using noMark
      rw [exponentPart, if_neg noMark]

theorem exponentPart_append (stops : Stops rest) (text : List Char)
    : exponentPart (text ++ rest) = exponentPart text := by
  by_cases marked : text.head? = some 'e' ∨ text.head? = some 'E'
  · obtain ⟨mark, more, rfl, marks⟩ :
        ∃ mark more, text = mark :: more ∧ (mark = 'e' ∨ mark = 'E') := by
      cases text <;> simp_all
    by_cases signed : more.head? = some '+' ∨ more.head? = some '-'
    · obtain ⟨sign, digits, rfl, signs⟩ :
          ∃ sign digits, more = sign :: digits ∧ (sign = '+' ∨ sign = '-') := by
        cases more <;> simp_all
      rw [List.cons_append, List.cons_append, exponentPart_signed marks signs,
        exponentPart_signed marks signs, takeWhile_isDigit_append stops]
    · have noSign := not_or.mp signed
      rw [List.cons_append, exponentPart_unsigned marks noSign,
        exponentPart_unsigned marks ⟨stops.head?_append_ne (by decide) noSign.1,
          stops.head?_append_ne (by decide) noSign.2⟩,
        takeWhile_isDigit_append stops]
  · have noMark := not_or.mp marked
    rw [exponentPart_of_head? noMark, exponentPart_of_head?
      ⟨stops.head?_append_ne (by decide) noMark.1, stops.head?_append_ne (by decide) noMark.2⟩]

-----------------------------------------------------------------------------------------
-- Numbers
-----------------------------------------------------------------------------------------

theorem wholePart_length_le (text : List Char) : (wholePart text).length ≤ text.length := by
  unfold wholePart
  split
  · simp
  · exact (List.takeWhile_sublist _).length_le

theorem fractionPart_length_le (text : List Char) : (fractionPart text).length ≤ text.length := by
  by_cases point : text.head? = some '.'
  · obtain ⟨more, rfl⟩ := List.head?_eq_some_iff.mp point
    have digits := (more.takeWhile_sublist Char.isDigit).length_le
    rw [fractionPart_point]
    split <;> simp [digits]
  · simp [fractionPart_of_head? point]

theorem exponentPart_length_le (text : List Char) : (exponentPart text).length ≤ text.length := by
  have digits := fun text : List Char => (text.takeWhile_sublist Char.isDigit).length_le
  fun_cases exponentPart text <;> grind

/-- Before anything that does not continue it, a number is read as it is by itself. -/
theorem numberLexeme?_append (stops : Stops rest) (text : List Char)
    : numberLexeme? (text ++ rest)
        = (numberLexeme? text).map fun read => (read.1, read.2 ++ rest) := by
  -- No part of a number goes beyond its text, so what follows the text stays behind it.
  have dropped : ∀ {count : Nat} {text : List Char}, count ≤ text.length →
      (text ++ rest).drop count = text.drop count ++ rest :=
    fun le => List.drop_append_of_le_length le
  have sign := (text.takeWhile_sublist fun c => c == '-').length_le
  simp only [numberLexeme?, takeWhile_minus_append stops, dropped sign, wholePart_append stops,
    dropped (wholePart_length_le _), fractionPart_append stops,
    dropped (fractionPart_length_le _), exponentPart_append stops,
    dropped (exponentPart_length_le _)]
  split
  · rfl
  · split <;> rfl

/-- A number begins with a minus sign or a digit. -/
theorem head_of_numberLexeme? {c : Char} {text : List Char} {read : Lexeme × List Char}
    (found : numberLexeme? (c :: text) = some read)
    : c = '-' ∨ c.isDigit = true := by
  refine Decidable.byContradiction fun other => ?_
  obtain ⟨noMinus, noDigit⟩ := not_or.mp other
  have noSign : (c :: text).takeWhile (fun c => c == '-') = [] :=
    List.takeWhile_cons_of_neg (by simpa using noMinus)
  have noZero : (c :: text).head? ≠ some '0' := by
    rintro ⟨⟩
    exact noDigit rfl
  have noWhole : wholePart (c :: text) = [] := by
    rw [wholePart_of_head? noZero, List.takeWhile_cons_of_neg noDigit]
  simp [numberLexeme?, noSign, noWhole] at found

theorem isSpace_of_numberLexeme? {c : Char} {text : List Char} {read : Lexeme × List Char}
    (found : numberLexeme? (c :: text) = some read)
    : isSpace c = false := by
  have first := head_of_numberLexeme? found
  rw [Bool.eq_false_iff]
  intro space
  simp only [isSpace, Bool.or_eq_true, beq_iff_eq] at space
  rcases space with ((rfl | rfl) | rfl) | rfl <;> simp at first

/-- No other lexeme begins like a number. -/
theorem lexeme?_of_numberLexeme? {text : List Char} {read : Lexeme × List Char}
    (found : numberLexeme? text = some read)
    : lexeme? text = some read := by
  rw [lexeme?.eq_def]
  split
  case h_11 => exact found
  all_goals
    have first := head_of_numberLexeme? found
    simp at first

-----------------------------------------------------------------------------------------
-- Natural numbers
-----------------------------------------------------------------------------------------

/-- Only zero is written with a zero in front. -/
theorem eq_zero_of_head?_toDigits {value : Nat}
    (first : (Nat.toDigits 10 value).head? = some '0')
    : value = 0 := by
  induction value using Nat.strongRecOn with
  | ind value ih =>
      by_cases small : value < 10
      · rw [Nat.toDigits_of_lt_base small, List.head?_cons, Option.some.injEq] at first
        have digits : ∀ digit < 10, digit.digitChar = '0' → digit = 0 := by decide
        exact digits value small first
      · have large : 10 ≤ value := Nat.le_of_not_lt small
        rw [Nat.toDigits_of_base_le (by decide) large,
          List.head?_append_of_ne_nil _ Nat.toDigits_ne_nil] at first
        have zero := ih (value / 10) (by omega) first
        omega

theorem isDigit_of_mem_digits {value : Nat} {c : Char} (member : c ∈ Nat.toDigits 10 value)
    : c.isDigit = true :=
  Nat.isDigit_of_mem_toDigits (by decide) (by decide) member

theorem wholePart_toDigits (value : Nat)
    : wholePart (Nat.toDigits 10 value) = Nat.toDigits 10 value := by
  by_cases zero : (Nat.toDigits 10 value).head? = some '0'
  · rw [eq_zero_of_head?_toDigits zero]
    rfl
  · rw [wholePart_of_head? zero, List.takeWhile_eq_self_iff]
    exact fun _ member => isDigit_of_mem_digits member

/-- The digits of a natural number are read as the number. -/
theorem numberLexeme?_toDigits (value : Nat)
    : numberLexeme? (Nat.toDigits 10 value) = some (.natural value, []) := by
  have noSign : (Nat.toDigits 10 value).takeWhile (fun c => c == '-') = [] := by
    rw [List.takeWhile_eq_nil_iff]
    intro positive minus
    have digit := isDigit_of_mem_digits (List.getElem_mem positive)
    rw [List.get_eq_getElem, beq_iff_eq] at minus
    rw [minus] at digit
    cases digit
  have nonempty : (Nat.toDigits 10 value).isEmpty = false :=
    List.isEmpty_eq_false_iff.mpr Nat.toDigits_ne_nil
  simp only [numberLexeme?, noSign, List.length_nil, List.drop_zero, wholePart_toDigits value,
    List.drop_length, fractionPart, exponentPart, nonempty]
  simp [Nat.ofDigitChars_toDigits]

end FormulaLatex.Json
