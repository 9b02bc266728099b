import FormulaLatex.Latex.Render
import FormulaLatex.Proofs.Token.References
import FormulaLatex.Proofs.Token.Spacing

/-! Decimal commas. Where numbers are written with a comma, arguments are separated by semicolons.
A formula that is written so has the tokens of the formula with points and commas, at the same
places: only the numbers have a comma in them.
-/

namespace FormulaLatex

open Text Lexeme

/-- A character as it is written along with decimal commas. -/
def localizeChar (c : Char) : Char :=
  if c = '.' then ',' else if c = ',' then ';' else c

/-- A formula as it is written with decimal commas: with a comma for each point, and a semicolon
for each comma.
-/
def localize (formula : String) : String :=
  String.ofList (formula.toList.map localizeChar)

/-- A token of a formula as it is with decimal commas. -/
def Token.withComma (token : Token) : Token :=
  if token.kind = .number then { token with text := Latex.number .comma token.text } else token

theorem Token.withComma_of_kind_ne {token : Token} (kind : token.kind ≠ .number)
    : token.withComma = token :=
  if_neg kind

namespace Lexeme

/-- A lexeme of a formula as it is written with decimal commas. -/
def localize (lexeme : Lexeme) : Lexeme :=
  { lexeme with first := localizeChar lexeme.first, more := lexeme.more.map localizeChar }

-----------------------------------------------------------------------------------------
-- Characters
-----------------------------------------------------------------------------------------

/-- What does not tell the separators apart does not change with them. -/
theorem apply_localizeChar {β : Type} {f : Char → β} (comma : f ',' = f '.')
    (semicolon : f ';' = f ',') (c : Char)
    : f (localizeChar c) = f c := by
  rw [localizeChar]
  split
  · rename_i point
    rw [point, comma]
  · split
    · rename_i comma
      rw [comma, semicolon]
    · rfl

theorem localizeChar_of_ne {c : Char} (point : c ≠ '.') (comma : c ≠ ',') : localizeChar c = c := by
  rw [localizeChar, if_neg point, if_neg comma]

/-- Every character but a separator comes from itself alone. -/
theorem eq_of_localizeChar_eq {c d : Char} (comma : d ≠ ',') (semicolon : d ≠ ';')
    (same : localizeChar c = d)
    : c = d := by
  rw [localizeChar] at same
  split at same
  · exact absurd same.symm comma
  · split at same
    · exact absurd same.symm semicolon
    · exact same

theorem isBlank_localizeChar (c : Char) : isBlank (localizeChar c) = isBlank c :=
  apply_localizeChar (by decide) (by decide) c

theorem isDigit_localizeChar (c : Char) : (localizeChar c).isDigit = c.isDigit :=
  apply_localizeChar (f := Char.isDigit) (by decide) (by decide) c

theorem beginsName_localizeChar (c : Char) : beginsName (localizeChar c) = beginsName c :=
  apply_localizeChar (by decide) (by decide) c

theorem continuesName_localizeChar (c : Char)
    : continuesName (localizeChar c) = continuesName c :=
  apply_localizeChar (by decide) (by decide) c

theorem utf8Size_localizeChar (c : Char) : (localizeChar c).utf8Size = c.utf8Size :=
  apply_localizeChar (f := Char.utf8Size) (by decide) (by decide) c

theorem takeWhile_localize {p : Char → Bool} (same : ∀ c, p (localizeChar c) = p c)
    (text : List Char)
    : (text.map localizeChar).takeWhile p = (text.takeWhile p).map localizeChar := by
  rw [List.takeWhile_map]
  simp only [Function.comp_def, same]

theorem dropWhile_localize {p : Char → Bool} (same : ∀ c, p (localizeChar c) = p c)
    (text : List Char)
    : (text.map localizeChar).dropWhile p = (text.dropWhile p).map localizeChar := by
  rw [List.dropWhile_map]
  simp only [Function.comp_def, same]

theorem byteLength_localize (text : List Char)
    : byteLength (text.map localizeChar) = byteLength text := by
  induction text with
  | nil => rfl
  | cons c rest ih => rw [List.map_cons, byteLength, byteLength, ih, utf8Size_localizeChar]

/-- Neither a point nor a comma belongs to a name. -/
theorem IsName.map_localizeChar {name : List Char} (isName : IsName name)
    : name.map localizeChar = name := by
  refine (List.map_congr_left fun c member => ?_).trans name.map_id
  refine localizeChar_of_ne ?_ ?_ <;>
    · rintro rfl
      have clash := isName.continues _ member
      revert clash
      decide

-----------------------------------------------------------------------------------------
-- Lexemes
-----------------------------------------------------------------------------------------

theorem span_localize (lexeme : Lexeme) : lexeme.localize.span = lexeme.span.map localizeChar :=
  rfl

section Separators

variable {separators : DecimalSeparators} {comparisons : Bool}

/-- A comma is accepted where a point was. No point is left that could be accepted as well. -/
theorem accepts_localizeChar (commas : separators ≠ .point) (c : Char)
    : separators.accepts (localizeChar c) = DecimalSeparators.point.accepts c := by
  have noPoint : localizeChar c ≠ '.' := by
    rw [localizeChar]
    split
    · decide
    · split
      · decide
      · assumption
  have comma : localizeChar c = ',' ↔ c = '.' := by
    rw [localizeChar]
    split
    · simp [*]
    · split <;> simp [*]
  cases separators with
  | point => exact absurd rfl commas
  | comma => rw [Bool.eq_iff_iff]; simpa [DecimalSeparators.accepts] using comma
  | both => rw [Bool.eq_iff_iff]; simpa [DecimalSeparators.accepts, noPoint] using comma

theorem numberTail_localize (commas : separators ≠ .point) (text : List Char)
    : numberTail separators (text.map localizeChar)
        = (numberTail .point text).map localizeChar := by
  rw [numberTail, numberTail, takeWhile_localize isDigit_localizeChar,
    dropWhile_localize isDigit_localizeChar, List.map_append]
  congr 1
  rcases text.dropWhile Char.isDigit with _ | ⟨separator, _ | ⟨digit, rest⟩⟩
  · rfl
  · rfl
  · simp only [List.map_cons, accepts_localizeChar commas, isDigit_localizeChar,
      takeWhile_localize isDigit_localizeChar]
    split <;> simp

theorem callFollows_localize (text : List Char)
    : callFollows (text.map localizeChar) = callFollows text := by
  rw [callFollows, callFollows, trimStart, trimStart, dropWhile_localize isBlank_localizeChar,
    List.head?_map]
  cases (text.dropWhile isBlank).head? with
  | none => rfl
  | some c => exact apply_localizeChar (f := fun c => some c == some '(') (by decide) (by decide) c

theorem characterKind_localizeChar {c : Char} (meaningful : c ≠ '.')
    : characterKind comparisons (localizeChar c) = characterKind comparisons c := by
  by_cases comma : c = ','
  · subst comma
    cases comparisons <;> rfl
  · rw [localizeChar_of_ne meaningful comma]

/-- The next lexeme is the same but for the separators. -/
theorem next_localize (commas : separators ≠ .point) {c : Char} (meaningful : c ≠ '.')
    (offset : Nat) (rest : List Char)
    : next ⟨separators, comparisons⟩ offset (localizeChar c) (rest.map localizeChar)
        = (next ⟨.point, comparisons⟩ offset c rest).localize := by
  by_cases digit : c.isDigit = true
  · simp only [next, isDigit_localizeChar, if_pos digit, numberTail_localize commas, localize]
  · by_cases begins : beginsName c = true
    · simp only [next, isDigit_localizeChar, if_neg digit, beginsName_localizeChar, if_pos begins,
        takeWhile_localize continuesName_localizeChar,
        dropWhile_localize continuesName_localizeChar, localize, ← List.map_cons,
        (isName_takeWhile begins rest).map_localizeChar, nameKind, callFollows_localize]
    · simp only [next, isDigit_localizeChar, if_neg digit, beginsName_localizeChar, if_neg begins,
        characterKind_localizeChar meaningful, localize, List.map_nil]

/-- The token of the next lexeme is the same but for the comma of a number. -/
theorem token_localize {c : Char} (meaningful : c ≠ '.') (offset : Nat) (rest : List Char)
    : (next ⟨.point, comparisons⟩ offset c rest).localize.token
        = (next ⟨.point, comparisons⟩ offset c rest).token.withComma := by
  by_cases digit : c.isDigit = true
  · have number := isNumber_numberTail .point digit rest
    have written : (c :: numberTail .point rest).map localizeChar
        = (c :: numberTail .point rest).map fun d => if d = '.' then ',' else d := by
      refine List.map_congr_left fun d member => ?_
      rw [localizeChar]
      split
      · rfl
      · refine if_neg ?_
        rintro rfl
        rcases number.digit_or_separator _ member with digit | accepted
        · cases digit
        · cases accepted
    simp only [next, if_pos digit, Lexeme.token, Lexeme.text, localize, Token.withComma, if_true,
      Latex.number, span, String.toList_ofList, ← List.map_cons, written]
  · by_cases begins : beginsName c = true
    · have same := List.cons.inj (isName_takeWhile begins rest).map_localizeChar
      rw [Token.withComma_of_kind_ne]
      · simp only [next, if_neg digit, if_pos begins, localize, same]
      · simp only [next, if_neg digit, if_pos begins, Lexeme.token]
        exact nameKind_ne_number _ _
    · rw [Token.withComma_of_kind_ne]
      · simp only [next, if_neg digit, if_neg begins, localize, List.map_nil]
        by_cases comma : c = ','
        · subst comma
          rfl
        · rw [localizeChar_of_ne meaningful comma]
      · simp only [next, if_neg digit, if_neg begins, Lexeme.token]
        exact (characterKind_ne comparisons c).1

/-- The lexemes of a text are the same but for the separators, if every one of them has a meaning.
A point outside of numbers has none.
-/
theorem ofText_localize (commas : separators ≠ .point) (offset : Nat) {text : List Char}
    (known : ∀ lexeme ∈ ofText ⟨.point, comparisons⟩ offset text, lexeme.kind ≠ .unknown)
    : (ofText ⟨separators, comparisons⟩ offset (text.map localizeChar)).map Lexeme.token
        = (ofText ⟨.point, comparisons⟩ offset text).map fun lexeme => lexeme.token.withComma := by
  fun_induction ofText ⟨.point, comparisons⟩ offset text with
  | case1 => rw [List.map_nil, ofText]; rfl
  | case2 offset c rest blank ih =>
      rw [List.map_cons, ofText_blank _ offset (by rwa [isBlank_localizeChar]),
        utf8Size_localizeChar]
      exact ih known
  | case3 offset c rest visible lexeme ih =>
      obtain ⟨first, others⟩ := List.forall_mem_cons.mp known
      have meaningful : c ≠ '.' := by
        rintro rfl
        refine first ?_
        cases comparisons <;> rfl
      rw [List.map_cons, ofText_visible _ offset (by simpa [isBlank_localizeChar] using visible),
        next_localize commas meaningful, List.map_cons, List.map_cons, token_localize meaningful,
        ← ih others, span_localize, byteLength_localize, localize, List.length_map, List.map_drop]

end Separators

end Lexeme

/-- The tokens of a formula as it is written with decimal commas are those of the formula, with a
comma for the point of a number, if every character of the formula has a meaning.
-/
theorem tokenize_localize {separators : DecimalSeparators} {comparisons : Bool}
    (commas : separators ≠ .point) {formula : String}
    (known : ∀ token ∈ tokenize formula ⟨.point, comparisons⟩, token.kind ≠ .unknown)
    : tokenize (localize formula) ⟨separators, comparisons⟩
        = (tokenize formula ⟨.point, comparisons⟩).map Token.withComma := by
  have lexemes : ∀ lexeme ∈ ofFormula ⟨.point, comparisons⟩ formula, lexeme.kind ≠ .unknown :=
    fun lexeme member => known lexeme.token (List.mem_map_of_mem member)
  rw [tokenize, tokenize, FormulaLatex.localize, List.map_map]
  rw [← String.ofList_toList (s := formula)] at lexemes
  conv => rhs; rw [← String.ofList_toList (s := formula)]
  generalize formula.toList = text at lexemes
  by_cases lead : text.head? = some '='
  · obtain ⟨rest, rfl⟩ := List.head?_eq_some_iff.mp lead
    rw [ofFormula_lead] at lexemes ⊢
    rw [List.map_cons, localizeChar_of_ne (by decide) (by decide), ofFormula_lead]
    exact ofText_localize commas _ lexemes
  · have plain : (text.map localizeChar).head? ≠ some '=' := by
      rw [List.head?_map]
      cases head : text.head? with
      | none => simp
      | some c =>
          intro same
          have first := eq_of_localizeChar_eq (by decide) (by decide) (Option.some.inj same)
          exact lead (head.trans (congrArg some first))
    rw [ofFormula_plain _ lead] at lexemes ⊢
    rw [ofFormula_plain _ plain]
    exact ofText_localize commas _ lexemes

end FormulaLatex
