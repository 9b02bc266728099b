import FormulaLatex.Proofs.Expr.Spacing
import FormulaLatex.Proofs.Token.Unknown

/-! Invalid characters. The first character without a meaning is what a conversion reports, whatever
else is wrong with the formula, so that none is ever passed over. Where comparisons are not accepted
the signs of comparison are such characters.
-/

namespace FormulaLatex

/-- The options of a conversion that accepts comparisons or does not. -/
def ConvertOptions.withComparisons (options : ConvertOptions) (comparisons : Bool)
    : ConvertOptions :=
  { options with tokenizer := { options.tokenizer with comparisons } }

theorem Expr.ofKnownTokens_eq_invalidCharacter {tokens : List Token} (options : ReaderOptions)
    {c : Char}
    : ofKnownTokens tokens options = .error (.invalidCharacter c)
        ↔ Token.firstUnknown? tokens = some c := by
  rw [ofKnownTokens]
  cases Token.firstUnknown? tokens with
  | some d => simp
  | none =>
      -- What is wrong with tokens that all have a meaning is never a character.
      cases ofTokens tokens options <;> simp [Except.mapError]

variable {formula : String} {renames : RenameTable} {options : ConvertOptions}

theorem tryConvert_eq_invalidCharacter (precise : options.mode = .precise) {c : Char}
    : tryConvert formula renames options = .error (.invalidCharacter c)
        ↔ Token.firstUnknown? (tokenize formula options.tokenizer) = some c := by
  rw [tryConvert_of_precise precise, ← Expr.ofKnownTokens_eq_invalidCharacter options.reader]
  cases tokens : tokenize formula options.tokenizer with
  | nil =>
      rw [Expr.ofKnownTokens_eq_invalidCharacter]
      simp [Token.firstUnknown?]
  | cons token rest =>
      cases Expr.ofKnownTokens (token :: rest) options.reader <;> simp [Except.map]

/-- A formula that is converted has no character without a meaning. -/
theorem firstUnknown?_of_tryConvert (precise : options.mode = .precise) {latex : String}
    (converted : tryConvert formula renames options = .ok latex)
    : Token.firstUnknown? (tokenize formula options.tokenizer) = none := by
  by_contra unknown
  obtain ⟨c, found⟩ := Option.ne_none_iff_exists'.mp unknown
  rw [(tryConvert_eq_invalidCharacter precise).mpr found] at converted
  cases converted

/-- Without signs of comparison it does not matter whether comparisons are accepted. -/
theorem tokenize_comparisons_of_plain (options : TokenizerOptions)
    (plain : ∀ c ∈ afterEqualsSign formula, c ∉ comparisonSigns)
    : tokenize formula { options with comparisons := false }
        = tokenize formula { options with comparisons := true } := by
  rw [tokenize, Lexeme.ofFormula_comparisons, tokenize, List.map_map]
  refine List.map_congr_left fun lexeme member => congrArg Lexeme.token (if_neg fun sign => ?_)
  obtain ⟨c, inside, isSign⟩ :=
    exists_comparesAt_iff.mp ⟨_, _, Lexeme.comparesAt_of_mem member sign⟩
  exact plain c inside isSign

/-- Among the signs of comparison and the characters without a meaning, the earliest is reported
where comparisons are not accepted.
-/
theorem exists_earliest_of_sign (precise : options.mode = .precise)
    (sign : ∃ c ∈ afterEqualsSign formula, c ∈ comparisonSigns)
    : ∃ offset c,
        Earliest (fun offset c =>
          ComparesAt formula offset c
          ∨ UnknownAt (options.withComparisons true).tokenizer formula offset c) offset c
        ∧ tryConvert formula renames (options.withComparisons false)
          = .error (.invalidCharacter c) := by
  obtain ⟨offset, c, compares⟩ := exists_comparesAt_iff.mpr sign
  obtain ⟨_, token, member, unknown, _⟩ :=
    (unknownAt_comparisons options.tokenizer formula offset c).mpr (Or.inl compares)
  have found : ((tokenize formula (options.withComparisons false).tokenizer).find?
      fun token => token.kind == .unknown).isSome :=
    List.find?_isSome.mpr ⟨token, member, beq_iff_eq.mpr unknown⟩
  obtain ⟨first, isFirst⟩ := Option.isSome_iff_exists.mp found
  have firstUnknown := Token.find?_unknown_iff.mp isFirst
  obtain ⟨lexeme, inFormula, rfl⟩ := List.mem_map.mp (List.mem_of_find?_eq_some isFirst)
  have stands := Lexeme.standsAt inFormula
  have earliest := earliest_of_firstUnknown firstUnknown stands
  have refused : tryConvert formula renames (options.withComparisons false)
      = .error (.invalidCharacter lexeme.first) :=
    (@tryConvert_eq_invalidCharacter _ _ (options.withComparisons false) precise _).mpr
      (firstUnknown?_iff.mpr ⟨lexeme.token, firstUnknown, stands⟩)
  refine ⟨_, _, ⟨(unknownAt_comparisons ..).mp earliest.1, fun other d refusedThere => ?_⟩, refused⟩
  exact earliest.2 other d ((unknownAt_comparisons ..).mpr refusedThere)

/-- A conversion reports a character exactly if a token has no meaning, and then the character that
stands where the first such token begins, whatever else is wrong with the formula. So nothing is
left out of a formula that is converted. Where comparisons are not accepted the outcome is the same
if the formula has no sign of comparison after the equals sign that it may begin with, and
otherwise the earliest character is reported that is such a sign or has no meaning anyway.
-/
theorem tryConvert_invalidCharacter (formula : String) (renames : RenameTable)
    {options : ConvertOptions} (precise : options.mode = .precise)
    : let tokens := tokenize formula options.tokenizer
      (∀ c,
        tryConvert formula renames options = .error (.invalidCharacter c)
          ↔ ∃ token, Token.FirstUnknown tokens token ∧ StandsAt formula token.offset c)
      ∧ (∀ latex, tryConvert formula renames options = .ok latex →
        tokens.filter (fun token => token.kind != .unknown) = tokens)
      ∧ ((∀ c ∈ afterEqualsSign formula, c ∉ comparisonSigns) →
        tryConvert formula renames (options.withComparisons false)
          = tryConvert formula renames (options.withComparisons true))
      ∧ ((∃ c ∈ afterEqualsSign formula, c ∈ comparisonSigns) →
        ∃ offset c,
          Earliest (fun offset c =>
            ComparesAt formula offset c
            ∨ UnknownAt (options.withComparisons true).tokenizer formula offset c) offset c
          ∧ tryConvert formula renames (options.withComparisons false)
            = .error (.invalidCharacter c)) := by
  intro tokens
  refine ⟨fun c => ?_, fun latex converted => ?_, fun plain => ?_,
    exists_earliest_of_sign precise⟩
  · rw [tryConvert_eq_invalidCharacter precise]
    exact firstUnknown?_iff
  · have known := Token.kind_ne_unknown (firstUnknown?_of_tryConvert precise converted)
    exact List.filter_eq_self.mpr fun token member => bne_iff_ne.mpr (known token member)
  · have same : tokenize formula (options.withComparisons false).tokenizer
        = tokenize formula (options.withComparisons true).tokenizer :=
      tokenize_comparisons_of_plain options.tokenizer plain
    rw [@tryConvert_of_precise (options.withComparisons false) precise, same,
      @tryConvert_of_precise (options.withComparisons true) precise]
    rfl

/-- The unclosed parenthesis of `=A1<(#` goes unreported, and so does the last character where the
sign of comparison is refused.
-/
theorem tryConvert_invalidCharacter_unclosed
    : let formula := "=A1<(#"
      let refusing := ConvertOptions.withComparisons {} false
      tryConvert formula .empty = .error (.invalidCharacter '#')
      ∧ Token.FirstUnknown (tokenize formula refusing.tokenizer) ⟨.unknown, "<", 3⟩
      ∧ tryConvert formula .empty refusing = .error (.invalidCharacter '<') := by
  intro formula refusing
  have last : Token.FirstUnknown (tokenize formula {}) ⟨.unknown, "#", 5⟩ :=
    Token.find?_unknown_iff.mp (by decide +kernel)
  have sign : Token.FirstUnknown (tokenize formula refusing.tokenizer) ⟨.unknown, "<", 3⟩ :=
    Token.find?_unknown_iff.mp (by decide +kernel)
  have reported := ((@tryConvert_invalidCharacter formula .empty {} rfl).1 '#').mpr
    ⟨_, last, "=A1<(".toList, [], by decide, by decide⟩
  have refused := ((@tryConvert_invalidCharacter formula .empty refusing rfl).1 '<').mpr
    ⟨_, sign, "=A1".toList, "(#".toList, by decide, by decide⟩
  exact ⟨reported, sign, refused⟩

end FormulaLatex
