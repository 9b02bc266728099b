import FormulaLatex.Proofs.Token.References
import FormulaLatex.Proofs.Token.Spacing
import Mathlib.Data.List.TakeWhile

/-! Names typed back. The name of a reference, taken as a formula of its own, is that reference
again if the name begins with a letter and upper-casing has put no combining mark into it. The name
of `$1`, or one with such a mark, is read in another way.
-/

namespace FormulaLatex

open Text Lexeme

-----------------------------------------------------------------------------------------
-- Letters in upper case
-----------------------------------------------------------------------------------------

namespace Text

theorem memRanges_of_mem {ranges : List (Nat × Nat)}
    (ascending : ranges.Pairwise fun range later => range.1 ≤ later.1) {range : Nat × Nat}
    (member : range ∈ ranges) {code : Nat} (above : range.1 ≤ code) (below : code ≤ range.2)
    : memRanges ranges code = true := by
  induction ranges with
  | nil => cases member
  | cons head rest ih =>
      obtain ⟨first, others⟩ := List.pairwise_cons.mp ascending
      rw [memRanges]
      rcases List.mem_cons.mp member with rfl | later
      · rw [if_neg (Nat.not_lt.mpr above), if_pos below]
      · rw [if_neg (Nat.not_lt.mpr ((first range later).trans above))]
        split
        · rfl
        · exact ih others later

/-- The combining marks in the upper-case forms of characters that have more than one character
for theirs, in ascending order.
-/
def upperCaseMarks : List Nat :=
  [0x300, 0x301, 0x308, 0x30A, 0x30C, 0x313, 0x331, 0x342]

/-- Whether a character is a combining mark that upper-casing can put into a text. -/
def isUpperCaseMark (c : Char) : Bool :=
  upperCaseMarks.contains c.toNat

theorem alphabeticRanges_ascending
    : alphabeticRanges.Pairwise fun range later => range.1 ≤ later.1 := by
  rw [← List.isChain_iff_pairwise]
  decide +kernel

/-- Whether the upper-case code points of a run are letters: they lie in one range of letters, or
each of them lies in some.
-/
def CaseRun.isLetters (run : CaseRun) : Bool :=
  alphabeticRanges.any (fun range => Nat.ble range.1 run.upper && Nat.ble run.upperLast range.2)
    || (List.range (run.last - run.first + 1)).all fun step =>
        !run.covers (run.first + step) || memRanges alphabeticRanges (run.upper + step)

theorem CaseRun.memRanges_of_isLetters (run : CaseRun) (letters : run.isLetters = true)
    {code : Nat} (covered : run.covers code = true)
    : memRanges alphabeticRanges (run.upper + (code - run.first)) = true := by
  obtain ⟨above, below, _⟩ := covers_eq_true.mp covered
  rw [isLetters, Bool.or_eq_true, List.any_eq_true, List.all_eq_true] at letters
  rcases letters with ⟨range, inRanges, within⟩ | each
  · simp only [upperLast, Bool.and_eq_true, Nat.ble_eq] at within
    exact memRanges_of_mem alphabeticRanges_ascending inRanges (by omega) (by omega)
  · have found := each (code - run.first) (List.mem_range.mpr (by omega))
    rw [Nat.add_sub_cancel' above, covered] at found
    exact found

theorem caseRuns_isLetters : ∀ run ∈ caseRuns, run.isLetters = true := by
  simp only [← List.all_eq_true]
  decide +kernel

theorem expandingCases_isLetters
    : ∀ entry ∈ expandingCases, ∀ code ∈ entry.2,
      memRanges alphabeticRanges code = true ∨ code ∈ upperCaseMarks := by
  decide +kernel

/-- What a letter or a numeral becomes is a letter, a numeral or one of the marks. -/
theorem isAlphanumeric_or_isUpperCaseMark {c d : Char} (alphanumeric : isAlphanumeric c = true)
    (member : d ∈ upperCaseChar c)
    : isAlphanumeric d = true ∨ isUpperCaseMark d = true := by
  cases cased : upperInRuns? caseRuns c.toNat with
  | some code =>
      obtain ⟨run, runMember, covered, rfl⟩ := exists_run_of_upperInRuns? cased
      rw [upperCaseChar, cased, List.mem_singleton] at member
      have alphabetic := run.memRanges_of_isLetters (caseRuns_isLetters run runMember) covered
      rw [← (capital_of_run runMember covered).toNat_ofNat, ← member] at alphabetic
      exact Or.inl (Bool.or_eq_true_iff.mpr (Or.inl alphabetic))
  | none =>
      cases expanded : expandedCase? expandingCases c.toNat with
      | some codes =>
          have entry := mem_of_expandedCase? expanded
          rw [upperCaseChar, cased, expanded] at member
          obtain ⟨code, codeMember, rfl⟩ := List.mem_map.mp member
          have same := ((capital_of_expansion _ entry).2 code codeMember).toNat_ofNat
          refine (expandingCases_isLetters _ entry code codeMember).imp ?_ ?_
          · intro alphabetic
            rw [← same] at alphabetic
            exact Bool.or_eq_true_iff.mpr (Or.inl alphabetic)
          · intro mark
            rw [← same] at mark
            exact List.elem_eq_true_of_mem mark
      | none =>
          rw [upperCaseChar, cased, expanded, List.mem_singleton] at member
          rw [member]
          exact Or.inl alphanumeric

end Text

namespace Lexeme

/-- The marks are neither part of a name nor white space. -/
theorem not_continues_of_isUpperCaseMark {c : Char} (mark : isUpperCaseMark c = true)
    : continuesName c = false ∧ isBlank c = false := by
  have apart : ∀ code ∈ upperCaseMarks,
      continuesName (Char.ofNat code) = false ∧ isBlank (Char.ofNat code) = false := by
    decide +kernel
  rw [← Char.ofNat_toNat c]
  exact apart c.toNat (List.mem_of_elem_eq_true mark)

-----------------------------------------------------------------------------------------
-- Names of references
-----------------------------------------------------------------------------------------

/-- What the name of a reference consists of. -/
theorem mem_canonicalName {span : List Char} (isName : IsName span) {c : Char}
    (member : c ∈ (canonicalName span).toList)
    : continuesName c = true ∧ c ≠ '$' ∨ isUpperCaseMark c = true := by
  rw [canonicalName, upperCase, String.toList_ofList, String.toList_ofList] at member
  obtain ⟨d, spelled, becomes⟩ := List.mem_flatMap.mp member
  obtain ⟨inSpan, unmarked⟩ := List.mem_filter.mp spelled
  have continues := isName.continues d inSpan
  simp only [continuesName, Bool.or_eq_true, beq_iff_eq, bne_iff_ne] at continues unmarked
  rcases continues with (alphanumeric | rfl) | rfl
  · refine (isAlphanumeric_or_isUpperCaseMark alphanumeric becomes).imp_left ?_
    intro stays
    refine ⟨by simp [continuesName, stays], ?_⟩
    rintro rfl
    exact absurd stays (by decide)
  · have same : upperCaseChar '_' = ['_'] := by
      decide
    rw [same, List.mem_singleton] at becomes
    rw [becomes]
    exact Or.inl (by decide)
  · exact absurd rfl unmarked

theorem ne_dollar_of_mem_canonicalName {span : List Char} (isName : IsName span) {c : Char}
    (member : c ∈ (canonicalName span).toList)
    : c ≠ '$' := by
  rcases mem_canonicalName isName member with ⟨_, unlike⟩ | mark
  · exact unlike
  · rintro rfl
    exact absurd mark (by decide)

theorem isBlank_eq_false_of_mem_canonicalName {span : List Char} (isName : IsName span) {c : Char}
    (member : c ∈ (canonicalName span).toList)
    : isBlank c = false := by
  rcases mem_canonicalName isName member with ⟨continues, _⟩ | mark
  · exact isBlank_eq_false_of_continuesName continues
  · exact (not_continues_of_isUpperCaseMark mark).2

theorem ne_equalsSign_of_mem_canonicalName {span : List Char} (isName : IsName span) {c : Char}
    (member : c ∈ (canonicalName span).toList)
    : c ≠ '=' := by
  rintro rfl
  rcases mem_canonicalName isName member with ⟨continues, _⟩ | mark
  · exact absurd continues (by decide)
  · exact absurd mark (by decide)

theorem canonicalName_ne_empty {span rest : List Char} (kind : nameKind span rest = .reference)
    : canonicalName span ≠ "" := by
  intro empty
  rw [nameKind, if_pos (String.isEmpty_iff.mpr empty)] at kind
  cases kind

/-- If a text is one lexeme that refers to a cell, the text is a name. -/
theorem begins_and_continues_of_ofText {options : TokenizerOptions} {offset : Nat} {c : Char}
    {rest : List Char} {lexeme : Lexeme} (visible : ∀ d ∈ c :: rest, isBlank d = false)
    (single : ofText options offset (c :: rest) = [lexeme]) (kind : lexeme.kind = .reference)
    : beginsName c = true ∧ ∀ d ∈ rest, continuesName d = true := by
  obtain ⟨rfl, whole⟩ := span_of_ofText_eq_singleton visible single
  have begins := beginsName_of_kind_eq_reference kind
  rw [next_of_beginsName begins] at whole
  exact ⟨begins, List.takeWhile_eq_self_iff.mp (List.cons.inj whole).2⟩

/-- A text that is a name is one lexeme. -/
theorem ofText_name (options : TokenizerOptions) (offset : Nat) {c : Char} {rest : List Char}
    (begins : beginsName c = true) (continues : ∀ d ∈ rest, continuesName d = true)
    : ofText options offset (c :: rest) = [⟨nameKind (c :: rest) [], offset, c, rest⟩] := by
  have all : rest.takeWhile continuesName = rest :=
    List.takeWhile_eq_self_iff.mpr continues
  have none : rest.dropWhile continuesName = [] :=
    List.dropWhile_eq_nil_iff.mpr continues
  rw [ofText_visible options offset (isBlank_eq_false_of_beginsName begins),
    next_of_beginsName begins, all, none, List.drop_length, ofText]

/-- Without dollar signs, a text in upper case is its own canonical form. -/
theorem canonicalName_eq_self {span : List Char} (unmarked : ∀ c ∈ span, c ≠ '$')
    (capital : upperCase (String.ofList span) = String.ofList span)
    : canonicalName span = String.ofList span := by
  have plain : span.filter (fun c => c != '$') = span :=
    List.filter_eq_self.mpr fun c member => bne_iff_ne.mpr (unmarked c member)
  rw [canonicalName, plain, capital]

/-- A name in its canonical form is read as the reference that it names. -/
theorem token_ofText_canonical (options : TokenizerOptions) {c : Char} {rest : List Char}
    (begins : beginsName c = true) (continues : ∀ d ∈ rest, continuesName d = true)
    (canonical : canonicalName (c :: rest) = String.ofList (c :: rest))
    : (ofText options 0 (c :: rest)).map token = [⟨.reference, String.ofList (c :: rest), 0⟩] := by
  have kind : nameKind (c :: rest) [] = .reference := by
    rw [nameKind, if_neg (by simp [canonical])]
    rfl
  rw [ofText_name options 0 begins continues, kind, List.map_singleton, token,
    text_of_named (Or.inl rfl), Lexeme.span, canonical]

end Lexeme

/-- A listed name comes from a name in the formula, which is more than dollar signs. -/
theorem exists_isName_of_mem_detectReferences {formula name : String}
    {options : TokenizerOptions} (member : name ∈ detectReferences formula options)
    : ∃ span, IsName span ∧ canonicalName span = name ∧ name ≠ "" := by
  obtain ⟨token, inTokens, kind, rfl⟩ := mem_detectReferences.mp member
  obtain ⟨lexeme, inFormula, rfl⟩ := List.mem_map.mp inTokens
  obtain ⟨place, c, rest, _, rfl⟩ := exists_next_of_mem_ofFormula inFormula
  have begins := beginsName_of_kind_eq_reference kind
  have spelled : (next options place c rest).span = c :: rest.takeWhile continuesName := by
    rw [next_of_beginsName begins, Lexeme.span]
  have named : (next options place c rest).token.text
      = canonicalName (c :: rest.takeWhile continuesName) := by
    rw [← spelled]
    exact text_of_named (Or.inl kind)
  have reference : nameKind (c :: rest.takeWhile continuesName) (rest.dropWhile continuesName)
      = .reference := by
    simpa only [Lexeme.token, next_of_beginsName begins] using kind
  rw [named]
  exact ⟨_, isName_takeWhile begins rest, rfl, canonicalName_ne_empty reference⟩

/-- The name of a reference, typed as a formula of its own, is that reference and nothing else, if
and only if it begins with a letter and has none of the marks that upper-casing puts in.
-/
theorem tokenize_listed_name_iff {formula name : String} {options : TokenizerOptions}
    (member : name ∈ detectReferences formula options)
    : (∃ offset, tokenize name options = [⟨.reference, name, offset⟩])
        ↔ name.toList.head?.any isAlphabetic = true
          ∧ ∀ c ∈ name.toList, isUpperCaseMark c = false := by
  have capital := upperCase_of_mem_detectReferences member
  obtain ⟨span, isName, named, nonempty⟩ := exists_isName_of_mem_detectReferences member
  have classes := fun c => mem_canonicalName isName (c := c)
  have noDollar := fun c => ne_dollar_of_mem_canonicalName isName (c := c)
  have visible := fun c => isBlank_eq_false_of_mem_canonicalName isName (c := c)
  have noEquals := fun c => ne_equalsSign_of_mem_canonicalName isName (c := c)
  obtain ⟨chars, rfl⟩ : ∃ chars, name = String.ofList chars := ⟨name.toList, by simp⟩
  rw [named, String.toList_ofList] at classes noDollar visible noEquals
  rw [String.toList_ofList]
  cases chars with
  | nil => exact absurd rfl nonempty
  | cons c rest =>
      have unled : (c :: rest).head? ≠ some '=' := fun same =>
        noEquals c List.mem_cons_self (Option.some.inj same)
      rw [tokenize, ofFormula_plain options unled]
      constructor
      · rintro ⟨offset, single⟩
        obtain ⟨lexeme, alone, token⟩ := List.map_eq_singleton_iff.mp single
        obtain ⟨begins, continues⟩ :=
          begins_and_continues_of_ofText visible alone (congrArg Token.kind token)
        have all : ∀ d ∈ c :: rest, continuesName d = true :=
          List.forall_mem_cons.mpr ⟨continuesName_of_beginsName begins, continues⟩
        refine ⟨?_, fun d inName => Bool.eq_false_iff.mpr fun mark => ?_⟩
        · simpa [beginsName, noDollar c List.mem_cons_self] using begins
        · cases (all d inName).symm.trans (not_continues_of_isUpperCaseMark mark).1
      · rintro ⟨alphabetic, unmarked⟩
        have begins : beginsName c = true := Bool.or_eq_true_iff.mpr (Or.inl alphabetic)
        have continues : ∀ d ∈ rest, continuesName d = true := by
          intro d inRest
          have inName := List.mem_cons_of_mem c inRest
          rcases classes d inName with ⟨continues, _⟩ | mark
          · exact continues
          · cases (unmarked d inName).symm.trans mark
        exact ⟨0, token_ofText_canonical options begins continues
          (canonicalName_eq_self noDollar capital)⟩

theorem tokenize_listed_name_accented
    : "MÉDIA" ∈ detectReferences "=média*2 + $b$2"
      ∧ ∃ offset, tokenize "MÉDIA" = [⟨.reference, "MÉDIA", offset⟩] := by
  have member : "MÉDIA" ∈ detectReferences "=média*2 + $b$2" := by
    decide +kernel
  have letter : "MÉDIA".toList.head?.any isAlphabetic = true := by
    decide +kernel
  have unmarked : "MÉDIA".toList.any isUpperCaseMark = false := by
    decide +kernel
  refine ⟨member, (tokenize_listed_name_iff member).mpr ⟨letter, fun c inName => ?_⟩⟩
  exact Bool.eq_false_iff.mpr (List.any_eq_false.mp unmarked c inName)

/-- A digit after a dollar sign is listed, and is a number when it is typed back. -/
theorem not_tokenize_listed_name
    : ¬ ∀ (formula : String) (options : TokenizerOptions) (name : String),
        name ∈ detectReferences formula options
          → ∃ offset, tokenize name options = [⟨.reference, name, offset⟩] := by
  intro all
  obtain ⟨offset, single⟩ := all "$1" {} "1" (by decide +kernel)
  have number : tokenize "1" = [⟨.number, "1", 0⟩] := by
    decide +kernel
  rw [number] at single
  cases single

end FormulaLatex
