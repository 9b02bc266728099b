import FormulaLatex.Proofs.Token.LexicalGrammar

/-! The names in a formula. A listing of them is ascending and without repetitions, every name
stands in it in canonical form, and how numbers and comparisons are read makes no difference to
it.
-/

namespace FormulaLatex

open Text Lexeme

-----------------------------------------------------------------------------------------
-- Listings
-----------------------------------------------------------------------------------------

theorem mem_insertName {name other : String} {names : List String}
    : other ∈ insertName name names ↔ other = name ∨ other ∈ names := by
  induction names with
  | nil => simp [insertName]
  | cons head rest ih =>
      rw [insertName]
      split
      · exact List.mem_cons
      · split
        · rename_i same
          simp [same]
        · simp only [List.mem_cons, ih]
          exact or_left_comm

@[simp]
theorem mem_sortNames {name : String} {names : List String}
    : name ∈ sortNames names ↔ name ∈ names := by
  induction names with
  | nil => simp [sortNames]
  | cons head rest ih =>
      rw [sortNames] at ih ⊢
      rw [List.foldr_cons, mem_insertName, ih, List.mem_cons]

/-- A name takes its place in an ascending list. -/
theorem ascending_insertName {name : String} {names : List String}
    (ascending : names.Pairwise (· < ·))
    : (insertName name names).Pairwise (· < ·) := by
  induction names with
  | nil => exact List.pairwise_singleton _ _
  | cons head rest ih =>
      obtain ⟨first, others⟩ := List.pairwise_cons.mp ascending
      rw [insertName]
      split
      · rename_i before
        refine List.pairwise_cons.mpr ⟨?_, ascending⟩
        intro other member
        rcases List.mem_cons.mp member with rfl | later
        · exact before
        · exact String.lt_trans before (first other later)
      · split
        · exact ascending
        · rename_i notBefore different
          have after : head < name :=
            Std.lt_of_le_of_ne (String.not_lt.mp notBefore) (Ne.symm different)
          refine List.pairwise_cons.mpr ⟨?_, ih others⟩
          intro other member
          rcases mem_insertName.mp member with rfl | later
          · exact after
          · exact first other later

theorem ascending_sortNames (names : List String) : (sortNames names).Pairwise (· < ·) := by
  induction names with
  | nil => exact List.Pairwise.nil
  | cons head rest ih => exact ascending_insertName ih

-----------------------------------------------------------------------------------------
-- Names
-----------------------------------------------------------------------------------------

theorem Token.mem_references {tokens : List Token} {name : String}
    : name ∈ references tokens
        ↔ ∃ token ∈ tokens, token.kind = .reference ∧ token.text = name := by
  simp [references, and_assoc]

/-- A name is listed if a reference token of the formula says it. -/
theorem mem_detectReferences {name formula : String} {options : TokenizerOptions}
    : name ∈ detectReferences formula options
        ↔ ∃ token ∈ tokenize formula options, token.kind = .reference ∧ token.text = name := by
  rw [detectReferences, mem_sortNames, Token.mem_references]

/-- A listed name is in upper case already. -/
theorem upperCase_of_mem_detectReferences {name formula : String} {options : TokenizerOptions}
    (member : name ∈ detectReferences formula options)
    : upperCase name = name := by
  obtain ⟨token, inTokens, kind, rfl⟩ := mem_detectReferences.mp member
  obtain ⟨lexeme, _, rfl⟩ := List.mem_map.mp inTokens
  have text : lexeme.token.text = canonicalName lexeme.span := text_of_named (Or.inl kind)
  simp only [text, canonicalName, upperCase_upperCase]

-----------------------------------------------------------------------------------------
-- Options
-----------------------------------------------------------------------------------------

/-- The names that the lexemes of a text refer to. -/
def Lexeme.namesIn (options : TokenizerOptions) (offset : Nat) (text : List Char)
    : List String :=
  Token.references ((ofText options offset text).map token)

/-- Whether a character belongs to a number under some options. -/
def Lexeme.inNumbers (c : Char) : Bool :=
  c.isDigit || c == '.' || c == ','

namespace Lexeme

theorem inNumbers_of_isNumber {separators : DecimalSeparators} {text : List Char}
    (number : IsNumber separators text)
    : ∀ c ∈ text, inNumbers c = true := by
  intro c member
  rcases number.digit_or_separator c member with digit | accepted
  · simp [inNumbers, digit]
  · rcases point_or_comma_of_accepts accepted with rfl | rfl <;> rfl

theorem not_begins_of_inNumbers {c : Char} (inside : inNumbers c = true)
    : isBlank c = false ∧ beginsName c = false := by
  simp only [inNumbers, Bool.or_eq_true, beq_iff_eq] at inside
  rcases inside with (digit | rfl) | rfl
  · exact ⟨isBlank_eq_false_of_isDigit digit, beginsName_eq_false_of_isDigit digit⟩
  · decide
  · decide

theorem namesIn_blank (options : TokenizerOptions) (offset : Nat) {c : Char}
    (blank : isBlank c = true) (rest : List Char)
    : namesIn options offset (c :: rest) = namesIn options (offset + c.utf8Size) rest := by
  simp only [namesIn, ofText_blank options offset blank]

theorem namesIn_visible (options : TokenizerOptions) (offset : Nat) {c : Char}
    (visible : isBlank c = false) (rest : List Char)
    : namesIn options offset (c :: rest)
        = Token.references [(next options offset c rest).token]
          ++ namesIn options (offset + byteLength (next options offset c rest).span)
            (rest.drop (next options offset c rest).more.length) := by
  simp only [namesIn, ofText_visible options offset visible, List.map_cons, Token.references,
    ← List.map_append, ← List.filter_append, List.singleton_append]

theorem beginsName_of_kind_eq_reference {options : TokenizerOptions} {offset : Nat} {c : Char}
    {rest : List Char} (kind : (next options offset c rest).kind = .reference)
    : beginsName c = true := by
  refine Decidable.byContradiction fun other => ?_
  by_cases digit : c.isDigit = true
  · rw [next, if_pos digit] at kind
    cases kind
  · rw [next, if_neg digit, if_neg other] at kind
    exact (characterKind_ne options.comparisons c).2.1 kind

theorem references_next_of_not_begins (options : TokenizerOptions) (offset : Nat) {c : Char}
    (other : beginsName c = false) (rest : List Char)
    : Token.references [(next options offset c rest).token] = [] := by
  have kind : (next options offset c rest).kind ≠ .reference := by
    intro reference
    rw [beginsName_of_kind_eq_reference reference] at other
    cases other
  simp [Token.references, token, kind]

/-- It does not matter where a lexeme stands. -/
theorem references_at (kind : TokenKind) (offset place : Nat) (first : Char)
    (more : List Char)
    : Token.references [token ⟨kind, offset, first, more⟩]
        = Token.references [token ⟨kind, place, first, more⟩] := by
  cases kind <;> rfl

/-- A name is the same lexeme under all options. -/
theorem next_of_beginsName {c : Char} (begins : beginsName c = true) (options : TokenizerOptions)
    (offset : Nat) (rest : List Char)
    : next options offset c rest
        = ⟨nameKind (c :: rest.takeWhile continuesName) (rest.dropWhile continuesName), offset,
          c, rest.takeWhile continuesName⟩ := by
  have noDigit : ¬ c.isDigit = true := by
    intro digit
    rw [beginsName_eq_false_of_isDigit digit] at begins
    cases begins
  rw [next, if_neg noDigit, if_pos begins]

/-- The digits and separators at the beginning of a text hold no names, however they are read. -/
theorem exists_namesIn_dropWhile (options : TokenizerOptions) (offset : Nat) (text : List Char)
    : ∃ place, namesIn options offset text
        = namesIn options place (text.dropWhile inNumbers) := by
  induction length : text.length using Nat.strongRecOn generalizing offset text with
  | ind bound ih =>
      cases text with
      | nil => exact ⟨offset, rfl⟩
      | cons c rest =>
          cases inside : inNumbers c with
          | false => exact ⟨offset, by rw [List.dropWhile_cons_of_neg (by simp [inside])]⟩
          | true =>
              obtain ⟨visible, noName⟩ := not_begins_of_inNumbers inside
              have whole : ∀ d ∈ (next options offset c rest).more, inNumbers d = true := by
                rw [next]
                split
                · rename_i digit
                  have number := isNumber_numberTail options.decimalSeparators digit rest
                  exact fun d member =>
                    inNumbers_of_isNumber number d (List.mem_cons_of_mem _ member)
                · rw [if_neg (Bool.eq_false_iff.mp noName)]
                  intro d member
                  cases member
              obtain ⟨back, same⟩ := next_more_begins options offset c rest
              rw [namesIn_visible options offset visible,
                references_next_of_not_begins options offset noName, List.nil_append,
                List.dropWhile_cons_of_pos inside]
              generalize (next options offset c rest).more = more at *
              subst same
              rw [List.drop_left, List.dropWhile_append_of_pos whole]
              refine ih back.length ?_ _ back rfl
              simp only [List.length_cons, List.length_append] at length
              omega

/-- The names in a text are the same under all options. Both readings pass over the same runs
of digits and separators, though they may divide them differently, and meet again after each.
-/
theorem namesIn_options (options other : TokenizerOptions) (offset place : Nat)
    (text : List Char)
    : namesIn options offset text = namesIn other place text := by
  induction length : text.length using Nat.strongRecOn
    generalizing offset place text with
  | ind bound ih =>
      cases text with
      | nil => simp [namesIn, ofText]
      | cons c rest =>
          rw [List.length_cons] at length
          cases inside : inNumbers c with
          | true =>
              obtain ⟨first, firstSame⟩ := exists_namesIn_dropWhile options offset (c :: rest)
              obtain ⟨second, secondSame⟩ := exists_namesIn_dropWhile other place (c :: rest)
              rw [firstSame, secondSame, List.dropWhile_cons_of_pos inside]
              have shorter := (List.dropWhile_suffix inNumbers (l := rest)).length_le
              exact ih _ (by omega) _ _ _ rfl
          | false =>
              cases blank : isBlank c with
              | true =>
                  rw [namesIn_blank options offset blank, namesIn_blank other place blank]
                  exact ih _ (by omega) _ _ _ rfl
              | false =>
                  rw [namesIn_visible options offset blank, namesIn_visible other place blank]
                  cases begins : beginsName c with
                  | true =>
                      have shorter : (rest.drop (rest.takeWhile continuesName).length).length
                          < bound := by
                        rw [List.length_drop]
                        omega
                      simp only [next_of_beginsName begins]
                      rw [references_at _ offset place, ih _ shorter _ _ _ rfl]
                  | false =>
                      rw [references_next_of_not_begins options offset begins,
                        references_next_of_not_begins other place begins]
                      have noDigit : ¬ c.isDigit = true := by
                        intro digit
                        simp [inNumbers, digit] at inside
                      simp only [next, if_neg noDigit, begins, Bool.false_eq_true, if_false,
                        List.length_nil, List.drop_zero, List.nil_append]
                      exact ih _ (by omega) _ _ _ rfl

end Lexeme

/-- Which names a formula refers to does not depend on the options. -/
theorem detectReferences_options (formula : String) (options other : TokenizerOptions)
    : detectReferences formula options = detectReferences formula other := by
  simp only [detectReferences, tokenize, ofFormula]
  split
  · exact congrArg sortNames (namesIn_options options other _ _ _)
  · exact congrArg sortNames (namesIn_options options other _ _ _)

end FormulaLatex
