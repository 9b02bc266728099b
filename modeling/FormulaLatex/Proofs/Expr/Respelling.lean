import FormulaLatex.Proofs.Expr.Spacing
import FormulaLatex.Proofs.Token.Respelling

/-! The spelling of names in formulas. It makes no difference to what a formula is read as, nor to
the names that are entered for it, nor to its notation.
-/

namespace FormulaLatex

namespace Token

theorem ofToken_congr {token other : Token} (kind : other.kind = token.kind)
    (text : other.text = token.text)
    : Terminal.ofToken other = Terminal.ofToken token := by
  rw [Terminal.ofToken, Terminal.ofToken, role, role, kind, text]

theorem fuse?_congr {token other next otherNext : Token} (kind : other.kind = token.kind)
    (text : other.text = token.text) (nextKind : otherNext.kind = next.kind)
    (nextText : otherNext.text = next.text)
    (adjoins : token.kind = .operator → other.adjoins otherNext = token.adjoins next)
    : other.fuse? otherNext = token.fuse? next := by
  rw [fuse?, fuse?, kind, text, nextKind, nextText]
  by_cases operator : token.kind = .operator
  · rw [adjoins operator]
  · rw [if_neg fun fused => operator fused.1, if_neg fun fused => operator fused.1]

/-- Lists of tokens that are alike have the same terminals. -/
theorem Alike.fuseAll {tokens others : List Token} (alike : Alike tokens others)
    : Terminal.fuseAll others = Terminal.fuseAll tokens := by
  fun_induction Terminal.fuseAll tokens generalizing others with
  | case1 =>
      cases alike
      rfl
  | case2 token =>
      obtain _ | ⟨kind, text, _, _ | _⟩ := alike
      rw [Terminal.fuseAll, ofToken_congr kind text]
  | case3 token next rest op fused ih =>
      obtain _ | ⟨kind, text, adjoins, after⟩ := alike
      have alone := after
      obtain _ | ⟨nextKind, nextText, _, back⟩ := after
      have same := fuse?_congr kind text nextKind nextText fun operator =>
        adjoins operator _ rfl _ rfl
      rw [Terminal.fuseAll_fused (same.trans fused), ih back, text]
  | case4 token next rest alone ih =>
      obtain _ | ⟨kind, text, adjoins, after⟩ := alike
      have whole := ih after
      obtain _ | ⟨nextKind, nextText, _, back⟩ := after
      have same := fuse?_congr kind text nextKind nextText fun operator =>
        adjoins operator _ rfl _ rfl
      rw [Terminal.fuseAll_cons (by simpa [same] using alone), whole, ofToken_congr kind text]

end Token

/-- Formulas that are spelled alike are read alike. -/
theorem Expr.ofKnownTokens_of_alike {formula other : String}
    (alike : SpelledAlike formula.toList other.toList) (options : TokenizerOptions)
    (reader : ReaderOptions)
    : ofKnownTokens (tokenize other options) reader
        = ofKnownTokens (tokenize formula options) reader := by
  have tokens := alike_tokenize alike options
  rw [ofKnownTokens, ofKnownTokens, tokens.firstUnknown?]
  cases known : Token.firstUnknown? (tokenize formula options) with
  | some c => rfl
  | none =>
      have otherKnown := tokens.firstUnknown?.trans known
      rw [ofTokens_of_known (Token.kind_ne_unknown known),
        ofTokens_of_known (Token.kind_ne_unknown otherKnown), tokens.fuseAll]

/-- The spelling of references and of names of functions does not matter. Under all options
formulas that are spelled alike have tokens that say the same, they have the same names, of which
the same are entered into a table, and their precise conversions have the same outcome.
-/
theorem convert_respelled {formula other : String}
    (alike : SpelledAlike formula.toList other.toList)
    : (∀ options : TokenizerOptions,
        List.Forall₂ (fun token other => token.sameContent other = true)
          (tokenize formula options) (tokenize other options)
        ∧ detectReferences other options = detectReferences formula options
        ∧ ∀ table : RenameTable,
            table.missing other options = table.missing formula options
            ∧ table.seed other options = table.seed formula options)
      ∧ ∀ (options : ConvertOptions) (renames : RenameTable),
          options.mode = .precise →
          tryConvert other renames options = tryConvert formula renames options := by
  refine ⟨fun options => ?_, fun options renames precise => ?_⟩
  · have detected := detectReferences_respelled alike options
    have missing : ∀ table : RenameTable,
        table.missing other options = table.missing formula options := by
      intro table
      rw [RenameTable.missing, RenameTable.missing, detected]
    refine ⟨(alike_tokenize alike options).sameContent, detected, fun table => ?_⟩
    rw [RenameTable.seed, RenameTable.seed, missing]
    exact ⟨rfl, rfl⟩
  · rw [tryConvert_of_precise precise, tryConvert_of_precise precise,
      (alike_tokenize alike options.tokenizer).isEmpty, Expr.ofKnownTokens_of_alike alike]

/-- The dollar signs and the letters before a comparison move it and leave it whole. -/
theorem convert_respelled_comparison
    : SpelledAlike "=2*$a$1+sum(b)<=1".toList "=2*A1+Sum($B$)<=1".toList
      ∧ tryConvert "=2*$a$1+sum(b)<=1" .empty = .ok "2 \\cdot A1 + \\text\x7bSUM\x7d(B) \\leq 1"
      ∧ tryConvert "=2*A1+Sum($B$)<=1" .empty
          = .ok "2 \\cdot A1 + \\text\x7bSUM\x7d(B) \\leq 1" := by
  have named : ∀ {first : Char} {more : List Char}, Lexeme.beginsName first = true
      → more.all Lexeme.continuesName = true → Lexeme.IsName (first :: more) :=
    fun begins continues => .intro begins (List.all_eq_true.mp continues)
  have cell : Respells ['$', 'a', '$', '1'] ['A', '1'] :=
    ⟨named (by decide) (by decide), named (by decide) (by decide), by decide⟩
  have function : Respells ['s', 'u', 'm'] ['S', 'u', 'm'] :=
    ⟨named (by decide) (by decide), named (by decide) (by decide), by decide⟩
  have operand : Respells ['b'] ['$', 'B', '$'] :=
    ⟨named (by decide) (by decide), named (by decide) (by decide), by decide⟩
  have alike : SpelledAlike "=2*$a$1+sum(b)<=1".toList "=2*A1+Sum($B$)<=1".toList := by
    have text : "=2*$a$1+sum(b)<=1".toList = '=' :: '2' :: '*' :: (['$', 'a', '$', '1']
        ++ '+' :: (['s', 'u', 'm'] ++ '(' :: (['b'] ++ [')', '<', '=', '1']))) := by
      decide
    have other : "=2*A1+Sum($B$)<=1".toList = '=' :: '2' :: '*' :: (['A', '1']
        ++ '+' :: (['S', 'u', 'm'] ++ '(' :: (['$', 'B', '$'] ++ [')', '<', '=', '1']))) := by
      decide
    rw [text, other]
    refine .character (by decide) (.character (by decide) (.character (by decide) ?_))
    refine .name cell (.cons (by decide) _) (.character (by decide) ?_)
    refine .name function (.cons (by decide) _) (.character (by decide) ?_)
    refine .name operand (.cons (by decide) _) (.character (by decide) ?_)
    exact .character (by decide) (.character (by decide) (.character (by decide) .nil))
  have converted : tryConvert "=2*$a$1+sum(b)<=1" .empty
      = .ok "2 \\cdot A1 + \\text\x7bSUM\x7d(B) \\leq 1" := by
    decide +kernel
  exact ⟨alike, converted, ((convert_respelled alike).2 {} .empty rfl).trans converted⟩

end FormulaLatex
