import FormulaLatex.Proofs.Expr.References
import FormulaLatex.Proofs.Latex.Writing

/-! No notation stands for two formulas. The names and numbers of a formula that has been read
can be found again in its notation, the notation gives the terminals of its outline, and the
outline gives the formula.
-/

namespace FormulaLatex

open Text Latex Lexeme

theorem isPlain_of_continuesName {c : Char} (continues : continuesName c = true)
    (noDollar : c ≠ '$')
    : isPlain c = true := by
  simp only [continuesName, Bool.or_eq_true, beq_iff_eq, noDollar, or_false] at continues
  rcases continues with alphanumeric | rfl
  · simp [isPlain, isPlainCode_of_isAlphanumeric alphanumeric]
  · rfl

theorem isPlain_of_mem_upperCaseChar {c d : Char} (plain : isPlain c = true)
    (member : d ∈ upperCaseChar c)
    : isPlain d = true := by
  rcases mem_upperCaseChar member with capital | ⟨rfl, _⟩
  · have code : IsPlainCode d.toNat := by
      rcases capital.letter with ascii | beyond
      · exact Or.inr (Or.inl ascii)
      · exact Or.inr (Or.inr (Or.inr beyond))
    simp [isPlain, code]
  · exact plain

/-- The canonical form of a name is fit to be written. -/
theorem Lexeme.IsName.plainName {span : List Char} (name : IsName span)
    : PlainName (canonicalName span) := by
  constructor
  · intro d member
    rw [canonicalName, upperCase, String.toList_ofList, String.toList_ofList] at member
    obtain ⟨c, kept, becomes⟩ := List.mem_flatMap.mp member
    obtain ⟨inSpan, noDollar⟩ := List.mem_filter.mp kept
    exact isPlain_of_mem_upperCaseChar
      (isPlain_of_continuesName (name.continues c inSpan) (by simpa using noDollar)) becomes
  · exact upperCase_upperCase _

/-- A number is in the text of its token as it was read, and a name in canonical form. -/
theorem text_of_mem_tokenize {formula : String} {options : TokenizerOptions} {token : Token}
    (member : token ∈ tokenize formula options)
    : (token.kind = .number → IsNumber options.decimalSeparators token.text.toList)
      ∧ (token.kind = .reference ∨ token.kind = .function → PlainName token.text) := by
  obtain ⟨lexeme, inFormula, rfl⟩ := List.mem_map.mp member
  obtain ⟨offset, c, rest, _, rfl⟩ := exists_next_of_mem_ofFormula inFormula
  rw [next]
  by_cases digit : c.isDigit = true
  · rw [if_pos digit]
    constructor
    · intro _
      rw [token, text, String.toList_ofList]
      exact isNumber_numberTail options.decimalSeparators digit rest
    · rintro (kind | kind)
      · cases kind
      · cases kind
  · rw [if_neg digit]
    by_cases begins : beginsName c = true
    · rw [if_pos begins]
      have notNumber := nameKind_ne_number (c :: rest.takeWhile continuesName)
        (rest.dropWhile continuesName)
      have named := isName_takeWhile begins rest
      dsimp only
      generalize nameKind (c :: rest.takeWhile continuesName) (rest.dropWhile continuesName)
        = kind at notNumber
      refine ⟨fun number => absurd number notNumber, fun kind => ?_⟩
      rw [token, text_of_named kind]
      exact named.plainName
    · rw [if_neg begins]
      obtain ⟨number, reference, function⟩ := characterKind_ne options.comparisons c
      refine ⟨fun kind => absurd kind number, ?_⟩
      rintro (kind | kind)
      · exact absurd kind reference
      · exact absurd kind function

theorem Terminal.mem_fuseAll {terminal : Terminal} {tokens : List Token}
    (member : terminal ∈ fuseAll tokens)
    : (∃ token ∈ tokens, terminal = ofToken token) ∨ ∃ op, terminal.role = .operator op := by
  fun_induction fuseAll tokens with
  | case1 => cases member
  | case2 token => exact Or.inl ⟨token, List.mem_cons_self, List.mem_singleton.mp member⟩
  | case3 token next rest op fused ih =>
      rcases List.mem_cons.mp member with rfl | inRest
      · exact Or.inr ⟨op, rfl⟩
      · rcases ih inRest with ⟨found, inTokens, same⟩ | operator
        · exact Or.inl ⟨found, by simp [inTokens], same⟩
        · exact Or.inr operator
  | case4 token next rest fused ih =>
      rcases List.mem_cons.mp member with rfl | inRest
      · exact Or.inl ⟨token, List.mem_cons_self, rfl⟩
      · rcases ih inRest with ⟨found, inTokens, same⟩ | operator
        · exact Or.inl ⟨found, List.mem_cons_of_mem _ inTokens, same⟩
        · exact Or.inr operator

theorem Terminal.canonical_canonical (terminal : Terminal)
    : terminal.canonical.canonical = terminal.canonical := by
  obtain ⟨role, text⟩ := terminal
  cases role with
  | function => simp [canonical]
  | _ => rfl

/-- A terminal of an expression is that of one of its tokens, unless it is an operator. -/
theorem Expr.mem_terminals_of_ofTokens {tokens : List Token} {reader : ReaderOptions} {e : Expr}
    (read : Expr.ofTokens tokens reader = .ok e) {terminal : Terminal}
    (member : terminal ∈ e.terminals)
    : (∃ token ∈ tokens, terminal = (Terminal.ofToken token).canonical)
      ∨ ∃ op, terminal.role = .operator op := by
  obtain ⟨_, _, same⟩ := ofTerminals_eq_ok_iff.mp read
  rw [← same] at member
  obtain ⟨original, inOriginals, rfl⟩ := List.mem_map.mp member
  rcases Terminal.mem_fuseAll inOriginals with ⟨token, known, rfl⟩ | ⟨op, operator⟩
  · exact Or.inl ⟨token, (List.mem_filter.mp known).1, rfl⟩
  · exact Or.inr ⟨op, by rw [Terminal.canonical_role, operator]⟩

/-- What the text of a terminal is like that a token carries. -/
structure Terminal.Lexical (separators : DecimalSeparators) (terminal : Terminal) : Prop where
  number : terminal.role = .number → IsNumber separators terminal.text.toList
  name : terminal.role = .reference ∨ terminal.role = .function → PlainName terminal.text

theorem Terminal.lexical_of_ne {separators : DecimalSeparators} {terminal : Terminal}
    (notNumber : terminal.role ≠ .number) (notReference : terminal.role ≠ .reference)
    (notFunction : terminal.role ≠ .function)
    : terminal.Lexical separators := by
  refine ⟨fun role => absurd role notNumber, ?_⟩
  rintro (role | role)
  · exact absurd role notReference
  · exact absurd role notFunction

/-- Names and numbers of an expression are as the tokens of its formula carry them. -/
theorem Expr.lexical_of_mem_terminals {formula : String} {options : TokenizerOptions}
    {reader : ReaderOptions} {e : Expr}
    (read : Expr.ofTokens (tokenize formula options) reader = .ok e) {terminal : Terminal}
    (member : terminal ∈ e.terminals)
    : terminal.Lexical options.decimalSeparators := by
  rcases mem_terminals_of_ofTokens read member with ⟨token, inTokens, rfl⟩ | ⟨op, operator⟩
  · obtain ⟨number, name⟩ := text_of_mem_tokenize inTokens
    obtain ⟨kind, text, offset⟩ := token
    cases kind with
    | number => exact ⟨fun _ => number rfl, by rintro (role | role) <;> cases role⟩
    | reference => exact ⟨fun role => (by cases role), fun _ => name (Or.inl rfl)⟩
    | function =>
        have named : PlainName text := name (Or.inr rfl)
        refine ⟨fun role => (by cases role), fun _ => ?_⟩
        change PlainName (upperCase text)
        rwa [named.upper]
    | operator =>
        have role : (Terminal.ofToken ⟨.operator, text, offset⟩).canonical.role
            = (BinaryOperator.ofText? text).elim .stray .operator :=
          Terminal.canonical_role _
        refine Terminal.lexical_of_ne ?_ ?_ ?_ <;> rw [role] <;>
          cases BinaryOperator.ofText? text <;> simp
    | _ => exact Terminal.lexical_of_ne nofun nofun nofun
  · exact Terminal.lexical_of_ne (by simp [operator]) (by simp [operator]) (by simp [operator])

theorem Expr.legible_of_ofTokens {formula : String} {options : TokenizerOptions}
    {reader : ReaderOptions} {e : Expr} (point : options.decimalSeparators = .point)
    (read : Expr.ofTokens (tokenize formula options) reader = .ok e)
    (letters : ∀ name ∈ e.references, name.toList.head?.any isAlphabetic = true)
    : e.Legible := by
  intro terminal member
  obtain ⟨number, name⟩ := lexical_of_mem_terminals read member
  rw [point] at number
  obtain ⟨role, text⟩ := terminal
  cases role with
  | number => exact number rfl
  | reference => exact ⟨name (Or.inl rfl), letters text (mem_references member)⟩
  | function => exact name (Or.inr rfl)
  | _ => trivial

/-- Formulas with the same notation are alike. Both are read with a decimal point and under
the same options, their references begin with letters, and no call drops an argument; then they
are the same expression but for names of functions that share a notation.
-/
theorem Expr.alike_of_toLatex_eq {formula otherFormula : String} {options : TokenizerOptions}
    {reader : ReaderOptions} {render : RenderOptions} {e other : Expr}
    (point : options.decimalSeparators = .point)
    (read : Expr.ofTokens (tokenize formula options) reader = .ok e)
    (otherRead : Expr.ofTokens (tokenize otherFormula options) reader = .ok other)
    (letters : ∀ name ∈ e.references, name.toList.head?.any isAlphabetic = true)
    (otherLetters : ∀ name ∈ other.references, name.toList.head?.any isAlphabetic = true)
    (keeps : e.KeepsArguments) (otherKeeps : other.KeepsArguments)
    (same : e.toLatex .empty render = other.toLatex .empty render)
    : Alike e other := by
  have legible := legible_of_ofTokens point read letters
  have otherLegible := legible_of_ofTokens point otherRead otherLetters
  obtain ⟨ranked, _, kept⟩ := ofTerminals_eq_ok_iff.mp read
  obtain ⟨otherRanked, _, _⟩ := ofTerminals_eq_ok_iff.mp otherRead
  have canonical : Canonical e := by
    intro terminal member
    rw [← kept] at member
    obtain ⟨original, _, rfl⟩ := List.mem_map.mp member
    exact original.canonical_canonical
  -- The terminals of both outlines are found again in the one notation.
  have reads : ∀ {e : Expr}, e.Legible → e.KeepsArguments →
      Reads (e.toLatex .empty render).toList (e.outline render.decimalStyle).terminals := by
    intro e legible keeps
    have written := writes_toLatex legible keeps render [] [] .nil .nil
    rwa [List.append_nil, List.append_nil] at written
  have first := reads legible keeps
  rw [same] at first
  have terminals := first.unique (reads otherLegible otherKeeps)
  have outlines := (ranked.outline render.decimalStyle).eq_of_canonical
    (otherRanked.outline render.decimalStyle) (canonical.outline _) terminals
  exact alike_of_outline legible otherLegible keeps otherKeeps outlines.symm

/-- A case distinction under its Portuguese and its English name. -/
theorem alike_of_toLatex_eq_cases
    : let e : Expr :=
        .binary .power
          (.negate
            (.call "SE"
              [.binary .lessEqual (.reference "A1") (.number "1.5"),
                .call "RAIZ" [.reference "B"], .call "SOMA" []]))
          (.number "2")
      let other : Expr :=
        .binary .power
          (.negate
            (.call "IF"
              [.binary .lessEqual (.reference "A1") (.number "1.5"),
                .call "SQRT" [.reference "B"], .call "SOMA" []]))
          (.number "2")
      Expr.ofTokens (tokenize "=-se($a$1<=1.5;raiz(b);soma())^2") = .ok e
      ∧ Expr.ofTokens (tokenize "=-IF(A1 <= 1.5, SQRT(B), SOMA()) ^ 2") = .ok other
      ∧ e.KeepsArguments ∧ other.KeepsArguments
      ∧ e.toLatex .empty {} = other.toLatex .empty {}
      ∧ e.Alike other := by
  intro e other
  have tokens : tokenize "=-se($a$1<=1.5;raiz(b);soma())^2" =
      [⟨.operator, "-", 1⟩, ⟨.function, "SE", 2⟩, ⟨.opening, "(", 4⟩, ⟨.reference, "A1", 5⟩,
        ⟨.operator, "<", 9⟩, ⟨.operator, "=", 10⟩, ⟨.number, "1.5", 11⟩,
        ⟨.separator, ",", 14⟩, ⟨.function, "RAIZ", 15⟩, ⟨.opening, "(", 19⟩,
        ⟨.reference, "B", 20⟩, ⟨.closing, ")", 21⟩, ⟨.separator, ",", 22⟩,
        ⟨.function, "SOMA", 23⟩, ⟨.opening, "(", 27⟩, ⟨.closing, ")", 28⟩,
        ⟨.closing, ")", 29⟩, ⟨.operator, "^", 30⟩, ⟨.number, "2", 31⟩] := by
    decide +kernel
  have otherTokens : tokenize "=-IF(A1 <= 1.5, SQRT(B), SOMA()) ^ 2" =
      [⟨.operator, "-", 1⟩, ⟨.function, "IF", 2⟩, ⟨.opening, "(", 4⟩, ⟨.reference, "A1", 5⟩,
        ⟨.operator, "<", 8⟩, ⟨.operator, "=", 9⟩, ⟨.number, "1.5", 11⟩,
        ⟨.separator, ",", 14⟩, ⟨.function, "SQRT", 16⟩, ⟨.opening, "(", 20⟩,
        ⟨.reference, "B", 21⟩, ⟨.closing, ")", 22⟩, ⟨.separator, ",", 23⟩,
        ⟨.function, "SOMA", 25⟩, ⟨.opening, "(", 29⟩, ⟨.closing, ")", 30⟩,
        ⟨.closing, ")", 31⟩, ⟨.operator, "^", 33⟩, ⟨.number, "2", 35⟩] := by
    decide +kernel
  have read : Expr.ofTokens (tokenize "=-se($a$1<=1.5;raiz(b);soma())^2") = .ok e := by
    rw [tokens]
    rfl
  have otherRead
      : Expr.ofTokens (tokenize "=-IF(A1 <= 1.5, SQRT(B), SOMA()) ^ 2") = .ok other := by
    rw [otherTokens]
    rfl
  have conditional
      : callStyle? "SE" = some .conditional ∧ callStyle? "IF" = some .conditional := by
    decide +kernel
  have radical : callStyle? "RAIZ" = some .radical ∧ callStyle? "SQRT" = some .radical := by
    decide +kernel
  have byName : callStyle? "SOMA" = none := by
    decide +kernel
  have keeps : e.KeepsArguments := by
    simp [e, Expr.KeepsArguments, Expr.AllKeepArguments, conditional, radical, byName,
      CallStyle.Keeps]
  have otherKeeps : other.KeepsArguments := by
    simp [other, Expr.KeepsArguments, Expr.AllKeepArguments, conditional, radical, byName,
      CallStyle.Keeps]
  have same : e.toLatex .empty {} = other.toLatex .empty {} := by
    decide +kernel
  exact ⟨read, otherRead, keeps, otherKeeps, same,
    Expr.alike_of_toLatex_eq rfl read otherRead (by decide +kernel) (by decide +kernel) keeps
      otherKeeps same⟩

end FormulaLatex
