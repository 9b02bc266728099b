import FormulaLatex.Json.Lexeme
import FormulaLatex.Json.Print

/-! Strings in JSON text. Whatever characters a text has, the string that is written for it is
read as the text again, and reading ends where the string does.
-/

namespace FormulaLatex.Json

/-- The piece of a string that is written for a character: a code unit for a control character
that has no letter, and otherwise the character.
-/
def pieceOf (c : Char) : StringPiece :=
  if c.toNat < 0x20 ∧ c ∉ ['\x08', '\x0c', '\n', '\r', '\t'] then .unit c.toNat else .char c

/-- A character is written by a letter, by its code, or by itself. -/
theorem escapeChar_cases (c : Char)
    : (∃ letter,
          escapeChar c = ['\\', letter] ∧ shortEscape? letter = some c
          ∧ pieceOf c = .char c)
      ∨ (c.toNat < 0x20
        ∧ escapeChar c
            = ['\\', 'u', '0', '0', (c.toNat / 16).digitChar, (c.toNat % 16).digitChar]
        ∧ pieceOf c = .unit c.toNat)
      ∨ ((c ≠ '"' ∧ c ≠ '\\' ∧ ¬ c.toNat < 0x20)
        ∧ escapeChar c = [c] ∧ pieceOf c = .char c) := by
  by_cases short : c ∈ ['"', '\\', '\x08', '\x0c', '\n', '\r', '\t']
  · left
    simp only [List.mem_cons, List.not_mem_nil, or_false] at short
    rcases short with rfl | rfl | rfl | rfl | rfl | rfl | rfl <;>
      exact ⟨_, rfl, rfl, by decide⟩
  · right
    simp only [List.mem_cons, List.not_mem_nil, or_false, not_or] at short
    obtain ⟨quote, backslash, bell, feed, newline, ret, tab⟩ := short
    have plain : c ∉ ['\x08', '\x0c', '\n', '\r', '\t'] := by
      simp [bell, feed, newline, ret, tab]
    simp only [escapeChar, pieceOf, if_neg quote, if_neg backslash, if_neg bell, if_neg feed,
      if_neg newline, if_neg ret, if_neg tab]
    by_cases control : c.toNat < 0x20
    · left
      exact ⟨control, if_pos control, if_pos ⟨control, plain⟩⟩
    · right
      exact ⟨⟨quote, backslash, control⟩, if_neg control, if_neg fun both => control both.1⟩

theorem hexCode?_control
    : ∀ code < 0x20,
        hexCode? '0' '0' (code / 16).digitChar (code % 16).digitChar = some code := by
  decide

theorem stringPieces?_letter {letter c : Char} (short : shortEscape? letter = some c)
    (text : List Char)
    : stringPieces? ('\\' :: letter :: text)
        = (stringPieces? text).map fun read => (.char c :: read.1, read.2) := by
  have noCode : letter ≠ 'u' := by
    rintro rfl
    cases short
  rw [stringPieces?.eq_4 letter text fun _ _ _ _ _ code _ => noCode code, short]
  cases stringPieces? text <;> rfl

theorem stringPieces?_plain {c : Char} (quote : c ≠ '"') (backslash : c ≠ '\\')
    (visible : ¬ c.toNat < 0x20) (text : List Char)
    : stringPieces? (c :: text)
        = (stringPieces? text).map fun read => (.char c :: read.1, read.2) := by
  rw [stringPieces?.eq_5 c text quote (fun _ _ _ _ _ same _ => backslash same)
    (fun _ _ same _ => backslash same), if_neg (not_or.mpr ⟨backslash, visible⟩)]
  cases stringPieces? text <;> rfl

/-- What is written for a character is read as one piece. -/
theorem stringPieces?_escapeChar (c : Char) (text : List Char)
    : stringPieces? (escapeChar c ++ text)
        = (stringPieces? text).map fun read => (pieceOf c :: read.1, read.2) := by
  rcases escapeChar_cases c with
    ⟨letter, written, short, piece⟩ | ⟨control, written, piece⟩
      | ⟨⟨quote, backslash, visible⟩, written, piece⟩
  · rw [written, piece]
    exact stringPieces?_letter short text
  · rw [written, piece]
    simp only [List.cons_append, List.nil_append, stringPieces?, hexCode?_control _ control,
      Option.bind_eq_bind, Option.bind_some]
    cases stringPieces? text <;> rfl
  · rw [written, piece]
    exact stringPieces?_plain quote backslash visible text

theorem joinPieces?_unit {code : Nat} (low : code < 0xD800) (pieces : List StringPiece)
    : joinPieces? (.unit code :: pieces) = (joinPieces? pieces).map (Char.ofNat code :: ·) := by
  have noHigh : isHighSurrogate code = false := by
    simp only [isHighSurrogate, Bool.and_eq_false_iff, decide_eq_false_iff_not]
    omega
  have noLow : isLowSurrogate code = false := by
    simp only [isLowSurrogate, Bool.and_eq_false_iff, decide_eq_false_iff_not]
    omega
  cases pieces with
  | nil => simp [joinPieces?, noHigh, noLow]
  | cons piece rest => cases piece <;> simp [joinPieces?, noHigh, noLow]

/-- The piece that is written for a character stands for it. -/
theorem joinPieces?_pieceOf (c : Char) (pieces : List StringPiece)
    : joinPieces? (pieceOf c :: pieces) = (joinPieces? pieces).map (c :: ·) := by
  rw [pieceOf]
  split
  · rename_i control
    rw [joinPieces?_unit (by omega), Char.ofNat_toNat]
  · rfl

/-- The pieces of a written text are those of its characters, and they stand for the text. -/
theorem stringPieces?_written (text rest : List Char)
    : stringPieces? (text.flatMap escapeChar ++ '"' :: rest)
        = some (text.map pieceOf, rest) := by
  induction text with
  | nil => rfl
  | cons c text ih =>
      rw [List.flatMap_cons, List.append_assoc, stringPieces?_escapeChar, ih]
      rfl

theorem joinPieces?_written (text : List Char) : joinPieces? (text.map pieceOf) = some text := by
  induction text with
  | nil => rfl
  | cons c text ih => rw [List.map_cons, joinPieces?_pieceOf, ih, Option.map_some]

/-- A written string is one lexeme, whatever follows it. -/
theorem lexeme?_quote (text : String) (rest : List Char)
    : lexeme? ((quote text).toList ++ rest) = some (.string (some text), rest) := by
  simp only [quote, String.toList_ofList, List.cons_append, List.append_assoc, List.nil_append,
    lexeme?, stringLexeme?, stringPieces?_written, joinPieces?_written, Option.bind_eq_bind,
    Option.bind_some, Option.map_some, String.ofList_toList]
  rfl

end FormulaLatex.Json
