import FormulaLatex.Proofs.Expr.Numbers
import FormulaLatex.Proofs.Expr.Spacing
import FormulaLatex.Proofs.Token.DecimalComma

/-! Decimal commas in formulas. A formula and its form with decimal commas are read alike, and
where the decimal separator is not the one that was read, they have the same notation.
-/

namespace FormulaLatex

open Text Lexeme

/-- A formula error with the text that it reports written otherwise. -/
def FormulaError.mapText (form : String → String) : FormulaError → FormulaError
  | .invalidCharacter c => .invalidCharacter c
  | .malformed cause => .malformed (cause.mapText form)

-----------------------------------------------------------------------------------------
-- Tokens
-----------------------------------------------------------------------------------------

theorem Latex.number_comma_of_not_mem {text : String} (pointless : '.' ∉ text.toList)
    : Latex.number .comma text = text := by
  rw [Latex.number, ← String.toList_inj, String.toList_ofList]
  refine (List.map_congr_left fun c member => if_neg ?_).trans (List.map_id _)
  rintro rfl
  exact pointless member

theorem Lexeme.IsName.point_not_mem {span : List Char} (name : IsName span)
    : '.' ∉ (canonicalName span).toList := by
  rw [canonicalName, upperCase, String.toList_ofList, String.toList_ofList]
  intro member
  obtain ⟨c, kept, becomes⟩ := List.mem_flatMap.mp member
  rcases mem_upperCaseChar becomes with capital | ⟨rfl, _⟩
  · revert capital
    decide
  · have clash := name.continues _ (List.mem_filter.mp kept).1
    revert clash
    decide

/-- Only numbers have a point in their texts. -/
theorem Token.number_comma_text {formula : String} {options : TokenizerOptions} {token : Token}
    (member : token ∈ tokenize formula options) (known : token.kind ≠ .unknown)
    (other : token.kind ≠ .number)
    : Latex.number .comma token.text = token.text := by
  refine Latex.number_comma_of_not_mem ?_
  obtain ⟨lexeme, inFormula, rfl⟩ := List.mem_map.mp member
  obtain ⟨offset, c, rest, _, rfl⟩ := exists_next_of_mem_ofFormula inFormula
  rw [Lexeme.token] at known other ⊢
  dsimp only at known other ⊢
  by_cases digit : c.isDigit = true
  · exact absurd (by rw [next, if_pos digit]) other
  · by_cases begins : beginsName c = true
    · rw [next_of_beginsName begins, text_name]
      split
      · decide
      · exact (isName_takeWhile begins rest).point_not_mem
    · rw [next, if_neg digit, if_neg begins] at known ⊢
      rw [text_character]
      split
      · decide
      · rw [String.toList_ofList, List.mem_singleton]
        rintro rfl
        exact known rfl

@[simp]
theorem Token.withComma_kind (token : Token) : token.withComma.kind = token.kind := by
  rw [withComma]
  split <;> rfl

theorem Token.fuse?_withComma (token next : Token)
    : token.withComma.fuse? next.withComma = token.fuse? next := by
  by_cases operators : token.kind = .operator ∧ next.kind = .operator
  · rw [withComma_of_kind_ne (by simp [operators.1]), withComma_of_kind_ne (by simp [operators.2])]
  · rw [fuse?, fuse?, withComma_kind, withComma_kind,
      if_neg fun fused => operators ⟨fused.1, fused.2.1⟩,
      if_neg fun fused => operators ⟨fused.1, fused.2.1⟩]

theorem Terminal.ofToken_withComma (token : Token)
    : ofToken token.withComma = (ofToken token).mapNumber (Latex.number .comma) := by
  obtain ⟨kind, text, offset⟩ := token
  cases kind with
  | operator =>
      have role : (ofToken ⟨.operator, text, offset⟩).role ≠ .number := by
        rw [ofToken, Token.role]
        cases BinaryOperator.ofText? text <;> simp
      exact (if_neg role).symm
  | _ => rfl

theorem Terminal.fuseAll_withComma (tokens : List Token)
    : fuseAll (tokens.map Token.withComma)
        = (fuseAll tokens).map (mapNumber (Latex.number .comma)) := by
  fun_induction fuseAll tokens with
  | case1 => rfl
  | case2 token => exact congrArg (fun terminal => [terminal]) (ofToken_withComma token)
  | case3 token next rest op fused ih =>
      have kind := (Token.fuse?_eq_some fused).2.1.1
      rw [List.map_cons, List.map_cons, fuseAll_fused ((Token.fuse?_withComma _ _).trans fused), ih,
        List.map_cons, Token.withComma_of_kind_ne (by simp [kind])]
      rfl
  | case4 token next rest alone ih =>
      rw [List.map_cons, fuseAll_cons (by simpa [Token.fuse?_withComma] using alone), ih,
        ofToken_withComma, List.map_cons]

/-- What holds of the texts of all tokens but numbers holds of those of all terminals but
numbers.
-/
theorem Terminal.forall_fuseAll_text {p : String → Prop} {tokens : List Token}
    (texts : ∀ token ∈ tokens, token.kind ≠ .number → p token.text)
    : ∀ terminal ∈ fuseAll tokens, terminal.role ≠ .number → p terminal.text := by
  have single : ∀ {token : Token}, (token.kind ≠ .number → p token.text)
      → (ofToken token).role ≠ .number → p (ofToken token).text := by
    intro token text role
    refine text fun kind => role ?_
    rw [ofToken, Token.role, kind]
  fun_induction fuseAll tokens with
  | case1 =>
      intro terminal member
      cases member
  | case2 token => exact List.forall_mem_singleton.mpr (single (texts token List.mem_cons_self))
  | case3 token next rest op fused ih =>
      obtain ⟨first, others⟩ := List.forall_mem_cons.mp texts
      have kind := (Token.fuse?_eq_some fused).2.1.1
      refine List.forall_mem_cons.mpr ⟨fun _ => first (by simp [kind]), ih ?_⟩
      exact (List.forall_mem_cons.mp others).2
  | case4 token next rest alone ih =>
      obtain ⟨first, others⟩ := List.forall_mem_cons.mp texts
      exact List.forall_mem_cons.mpr ⟨single first, ih others⟩

theorem Token.firstUnknown?_of_known {tokens : List Token}
    (known : ∀ token ∈ tokens, token.kind ≠ .unknown)
    : firstUnknown? tokens = none := by
  rw [firstUnknown?, List.find?_eq_none.mpr]
  · rfl
  · simpa using known

-----------------------------------------------------------------------------------------
-- Conversions
-----------------------------------------------------------------------------------------

theorem Latex.number_number_comma {style : DecimalStyle} (chosen : style ≠ .preserve)
    (text : String)
    : Latex.number style (Latex.number .comma text) = Latex.number style text := by
  cases style with
  | preserve => exact absurd rfl chosen
  | comma | point =>
      simp only [number, String.toList_ofList, List.map_map]
      congr 1
      refine List.map_congr_left fun c _ => ?_
      by_cases point : c = '.' <;> simp [point]

/-- The notation does not show how numbers were written if their separator is chosen for all. -/
theorem Expr.toLatex_mapNumbers {options : RenderOptions} {form : String → String}
    (same : ∀ text, Latex.number options.decimalStyle (form text)
      = Latex.number options.decimalStyle text)
    (renames : RenameTable) (e : Expr)
    : (e.mapNumbers form).toLatex renames options = e.toLatex renames options := by
  induction e using inductionOn with
  | number text => exact same text
  | reference name => rfl
  | binary op left right leftIh rightIh => exact congrArg₂ (Latex.binary op) leftIh rightIh
  | negate operand ih => exact congrArg ("-" ++ ·) ih
  | call name arguments ih =>
      rw [mapNumbers_call, toLatex, toLatex, toLatexAll_eq_map, toLatexAll_eq_map, List.map_map]
      exact congrArg (Latex.call name) (List.map_congr_left ih)
  | group inner ih => exact congrArg Latex.parenthesized ih

/-- A formula and its form with decimal commas agree, if every character of the formula has a
meaning. Whether only commas or points as well are accepted in the latter, its tokens are those of
the formula with commas for the points of numbers, and it is read alike. If the decimal separator
that is written is chosen, the conversions have the same notation or the same kind of error.
-/
theorem convert_localize {separators : DecimalSeparators} {comparisons : Bool}
    (commas : separators ≠ .point) {formula : String}
    (known : ∀ token ∈ tokenize formula ⟨.point, comparisons⟩, token.kind ≠ .unknown)
    : tokenize (localize formula) ⟨separators, comparisons⟩
          = (tokenize formula ⟨.point, comparisons⟩).map Token.withComma
      ∧ (∀ reader,
          Expr.ofTokens (tokenize (localize formula) ⟨separators, comparisons⟩) reader
            = Expr.mapOutcome (Latex.number .comma) (Expr.mapNumbers (Latex.number .comma))
                (Expr.ofTokens (tokenize formula ⟨.point, comparisons⟩) reader))
      ∧ ∀ reader render renames, render.decimalStyle ≠ .preserve →
          tryConvert (localize formula) renames
              ⟨⟨separators, comparisons⟩, reader, render, .precise⟩
            = (tryConvert formula renames
                ⟨⟨.point, comparisons⟩, reader, render, .precise⟩).mapError
                  (FormulaError.mapText (Latex.number .comma)) := by
  have tokens := tokenize_localize commas known
  have kinds : ∀ token ∈ (tokenize formula ⟨.point, comparisons⟩).map Token.withComma,
      token.kind ≠ .unknown := by
    simpa using known
  have read (reader : ReaderOptions)
      : Expr.ofTokens (tokenize (localize formula) ⟨separators, comparisons⟩) reader
        = Expr.mapOutcome (Latex.number .comma) (Expr.mapNumbers (Latex.number .comma))
            (Expr.ofTokens (tokenize formula ⟨.point, comparisons⟩) reader) := by
    rw [tokens, Expr.ofTokens_of_known kinds, Expr.ofTokens_of_known known,
      Terminal.fuseAll_withComma]
    refine Expr.ofTerminals_mapNumber _ reader
      (Terminal.forall_fuseAll_text (p := fun text => Latex.number .comma text = text) ?_)
    exact fun token member => Token.number_comma_text member (known token member)
  refine ⟨tokens, read, fun reader render renames chosen => ?_⟩
  rw [tryConvert_of_precise rfl, tryConvert_of_precise rfl]
  dsimp only
  rw [Expr.ofKnownTokens, Expr.ofKnownTokens, Token.firstUnknown?_of_known known,
    Token.firstUnknown?_of_known (tokens ▸ kinds), read, tokens, List.isEmpty_map]
  split
  · rfl
  · cases Expr.ofTokens (tokenize formula ⟨.point, comparisons⟩) reader with
    | error cause => rfl
    | ok e =>
        exact congrArg Except.ok
          (Expr.toLatex_mapNumbers (Latex.number_number_comma chosen) renames e)

/-- A comma between two digits belongs to a number, also where points are accepted. -/
theorem convert_localize_both
    : localize "=SUM(1.5, A1) * 2" = "=SUM(1,5; A1) * 2"
      ∧ (∀ token ∈ tokenize "=SUM(1.5, A1) * 2" ⟨.point, true⟩, token.kind ≠ .unknown)
      ∧ ⟨.number, "1,5", 5⟩ ∈ tokenize "=SUM(1,5; A1) * 2" ⟨.both, true⟩
      ∧ tryConvert "=SUM(1,5; A1) * 2" .empty ⟨⟨.both, true⟩, {}, ⟨.point⟩, .precise⟩
          = .ok "\\text\x7bSUM\x7d(1.5, A1) \\cdot 2" := by
  have localized : localize "=SUM(1.5, A1) * 2" = "=SUM(1,5; A1) * 2" := by
    decide +kernel
  have known : ∀ token ∈ tokenize "=SUM(1.5, A1) * 2" ⟨.point, true⟩, token.kind ≠ .unknown := by
    decide +kernel
  have converted : tryConvert "=SUM(1.5, A1) * 2" .empty
      ⟨⟨.point, true⟩, {}, ⟨.point⟩, .precise⟩ = .ok "\\text\x7bSUM\x7d(1.5, A1) \\cdot 2" := by
    decide +kernel
  have commas : DecimalSeparators.both ≠ .point := nofun
  obtain ⟨tokens, _, outcome⟩ := convert_localize commas known
  rw [localized] at tokens outcome
  refine ⟨localized, known, ?_, ?_⟩
  · rw [tokens]
    decide +kernel
  · rw [outcome {} ⟨.point⟩ .empty (by decide), converted]
    rfl

end FormulaLatex
