import FormulaLatex.Latex.Escape

/-! Escaped text can be read back. A backslash begins what is written for a character with a
meaning of its own, and the character after it tells which one that is.
-/

namespace FormulaLatex.Latex

/-- The text that an escaped text stands for. What is left of a longer command is passed over.
-/
def unescape : List Char → List Char
  | [] => []
  | c :: rest =>
      if c = '\\' then
        match rest with
        | [] => []
        | d :: more =>
            if d = 't' then '\\' :: unescape (more.drop "extbackslash\x7b\x7d".toList.length)
            else if d = '^' ∨ d = '~' then d :: unescape (more.drop "\x7b\x7d".toList.length)
            else d :: unescape more
      else c :: unescape rest
termination_by text => text.length
decreasing_by all_goals grind

variable {d : Char}

theorem unescape_backslash (more : List Char)
    : unescape ('\\' :: 't' :: ("extbackslash\x7b\x7d".toList ++ more))
        = '\\' :: unescape more := by
  rw [unescape.eq_def]
  dsimp only
  rw [if_pos rfl, if_pos rfl, List.drop_left]

theorem unescape_accent (accent : d = '^' ∨ d = '~') (more : List Char)
    : unescape ('\\' :: d :: ("\x7b\x7d".toList ++ more)) = d :: unescape more := by
  have noCommand : d ≠ 't' := by
    rcases accent with rfl | rfl <;> decide
  rw [unescape.eq_def]
  dsimp only
  rw [if_pos rfl, if_neg noCommand, if_pos accent, List.drop_left]

theorem unescape_sign (noCommand : d ≠ 't') (noAccent : ¬ (d = '^' ∨ d = '~'))
    (more : List Char)
    : unescape ('\\' :: d :: more) = d :: unescape more := by
  rw [unescape.eq_def]
  dsimp only
  rw [if_pos rfl, if_neg noCommand, if_neg noAccent]

theorem unescape_character (noBackslash : d ≠ '\\') (more : List Char)
    : unescape (d :: more) = d :: unescape more := by
  rw [unescape.eq_def]
  exact if_neg noBackslash

/-- One character is read back, whatever follows it. -/
theorem unescape_escapeChar (c : Char) (rest : List Char)
    : unescape (escapeChar c ++ rest) = c :: unescape rest := by
  unfold escapeChar
  split
  · rename_i backslash
    rw [backslash]
    exact unescape_backslash rest
  · rename_i noBackslash
    split
    · rename_i caret
      rw [caret]
      exact unescape_accent (.inl rfl) rest
    · rename_i noCaret
      split
      · rename_i tilde
        rw [tilde]
        exact unescape_accent (.inr rfl) rest
      · rename_i noTilde
        split
        · rename_i special
          have noCommand : c ≠ 't' := by
            rintro rfl
            simp at special
          exact unescape_sign noCommand (by simp [noCaret, noTilde]) rest
        · exact unescape_character noBackslash rest

/-- An escaped text is read back. -/
theorem unescape_flatMap_escapeChar (text : List Char)
    : unescape (text.flatMap escapeChar) = text := by
  induction text with
  | nil => rw [List.flatMap_nil, unescape]
  | cons c rest ih => rw [List.flatMap_cons, unescape_escapeChar, ih]

end FormulaLatex.Latex
