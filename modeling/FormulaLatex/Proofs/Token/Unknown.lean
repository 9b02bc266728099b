import FormulaLatex.Proofs.Token.Adjacency

/-! Characters that have no meaning in a formula. Each begins a token of its own, so the first one
is found by going through the tokens. Where comparisons are not accepted their signs are among
these characters, and nothing else changes.
-/

namespace FormulaLatex

open Text Lexeme

-----------------------------------------------------------------------------------------
-- Characters at offsets
-----------------------------------------------------------------------------------------

/-- Whether a character stands at an offset in bytes of a formula. -/
def StandsAt (formula : String) (offset : Nat) (c : Char) : Prop :=
  ∃ before after, formula.toList = before ++ c :: after ∧ byteLength before = offset

/-- Only one character stands at an offset. -/
theorem StandsAt.unique {formula : String} {offset : Nat} {c d : Char}
    (stands : StandsAt formula offset c) (other : StandsAt formula offset d)
    : c = d := by
  obtain ⟨before, after, split, length⟩ := stands
  obtain ⟨otherBefore, otherAfter, otherSplit, otherLength⟩ := other
  have whole : before ++ c :: after = otherBefore ++ d :: otherAfter :=
    split.symm.trans otherSplit
  obtain rfl : before = otherBefore := eq_of_byteLength whole (length.trans otherLength.symm)
  exact (List.cons.inj (List.append_cancel_left whole)).1

theorem StandsAt.lt {formula : String} {offset : Nat} {c : Char}
    (stands : StandsAt formula offset c)
    : offset < formula.utf8ByteSize := by
  obtain ⟨before, after, split, rfl⟩ := stands
  have wide := c.utf8Size_pos
  rw [← byteLength_toList, split, byteLength_append, byteLength]
  omega

/-- A span that covers a character holds it. -/
theorem Divides.mem_of_covers {separators : DecimalSeparators} {gap : List Char → Char → Prop}
    {offset : Nat} {text before after : List Char} {c : Char} {spans : List Span} {span : Span}
    (divides : Divides separators gap offset text spans) (member : span ∈ spans)
    (split : text = before ++ c :: after) (covers : span.Covers (offset + byteLength before))
    : ∃ front back,
        span.chars = front ++ c :: back
        ∧ offset + byteLength before = span.start + byteLength front := by
  obtain ⟨early, late, spanSplit, starts, _⟩ := divides.longest span member
  obtain ⟨reached, past⟩ := covers
  have begins : early <+: text := ⟨_, spanSplit.symm⟩
  have otherBegins : before <+: text := ⟨_, split.symm⟩
  obtain ⟨front, rfl⟩ := prefix_of_byteLength_le begins otherBegins (by omega)
  have rest : span.chars ++ late = front ++ c :: after := by
    rw [spanSplit, List.append_assoc] at split
    exact List.append_cancel_left split
  rw [byteLength_append] at past ⊢
  rcases exists_of_append_eq_append_cons rest with ⟨beyond, rfl, _⟩ | ⟨back, chars⟩
  · rw [Span.stop, byteLength_append] at past
    omega
  · exact ⟨front, back, chars, by omega⟩

/-- A lexeme begins with the character that stands at its offset. -/
theorem Lexeme.standsAt {options : TokenizerOptions} {formula : String} {lexeme : Lexeme}
    (member : lexeme ∈ ofFormula options formula)
    : StandsAt formula lexeme.offset lexeme.first := by
  have divides := divides_ofFormula options formula
  obtain ⟨before, after, split, starts, _⟩ :=
    divides.longest lexeme.toSpan (List.mem_map_of_mem member)
  exact ⟨before, _, split, by simpa [toSpan] using starts.symm⟩

-----------------------------------------------------------------------------------------
-- Unknown tokens
-----------------------------------------------------------------------------------------

/-- A token is the first one of a list that has no meaning. -/
structure Token.FirstUnknown (tokens : List Token) (token : Token) : Prop where
  unknown : token.kind = .unknown
  first : ∃ before after,
    tokens = before ++ token :: after ∧ ∀ earlier ∈ before, earlier.kind ≠ .unknown

/-- Whether the character at an offset of a formula begins a token without a meaning. -/
def UnknownAt (options : TokenizerOptions) (formula : String) (offset : Nat) (c : Char) : Prop :=
  StandsAt formula offset c
    ∧ ∃ token ∈ tokenize formula options, token.kind = .unknown ∧ token.offset = offset

/-- Whether no character with a property stands further ahead than the one at an offset. -/
def Earliest (property : Nat → Char → Prop) (offset : Nat) (c : Char) : Prop :=
  property offset c ∧ ∀ earlier other, property earlier other → offset ≤ earlier

theorem Token.find?_unknown_iff {tokens : List Token} {token : Token}
    : tokens.find? (fun token => token.kind == .unknown) = some token
        ↔ FirstUnknown tokens token := by
  simp only [List.find?_eq_some_iff_append, beq_iff_eq, Bool.not_eq_true', beq_eq_false_iff_ne]
  exact ⟨fun ⟨unknown, before, after, split, first⟩ => ⟨unknown, before, after, split, first⟩,
    fun ⟨unknown, before, after, split, first⟩ => ⟨unknown, before, after, split, first⟩⟩

theorem unknownAt_iff {options : TokenizerOptions} {formula : String} {offset : Nat} {c : Char}
    : UnknownAt options formula offset c
        ↔ ∃ lexeme ∈ ofFormula options formula,
            lexeme.kind = .unknown ∧ lexeme.offset = offset ∧ lexeme.first = c := by
  constructor
  · rintro ⟨stands, token, member, unknown, rfl⟩
    obtain ⟨lexeme, inFormula, rfl⟩ := List.mem_map.mp member
    exact ⟨lexeme, inFormula, unknown, rfl, (standsAt inFormula).unique stands⟩
  · rintro ⟨lexeme, member, unknown, rfl, rfl⟩
    exact ⟨standsAt member, lexeme.token, List.mem_map_of_mem member, unknown, rfl⟩

/-- The first token without a meaning reports the character that stands where it begins. -/
theorem firstUnknown?_iff {options : TokenizerOptions} {formula : String} {c : Char}
    : Token.firstUnknown? (tokenize formula options) = some c
        ↔ ∃ token,
            Token.FirstUnknown (tokenize formula options) token
            ∧ StandsAt formula token.offset c := by
  rw [Token.firstUnknown?, Option.bind_eq_some_iff]
  refine exists_congr fun token => ?_
  rw [Token.find?_unknown_iff]
  refine and_congr_right fun ⟨unknown, before, after, split, _⟩ => ?_
  have member : token ∈ tokenize formula options := by simp [split]
  obtain ⟨lexeme, inFormula, rfl⟩ := List.mem_map.mp member
  have reports : lexeme.text = String.singleton lexeme.first := by
    rw [text, show lexeme.kind = .unknown from unknown]
  have stands := standsAt inFormula
  simp only [token, reports, String.toList_singleton, List.head?_cons, Option.some.injEq]
  exact ⟨fun same => same ▸ stands, fun other => stands.unique other⟩

/-- The first token without a meaning begins with the earliest character without one. -/
theorem earliest_of_firstUnknown {options : TokenizerOptions} {formula : String} {token : Token}
    {c : Char} (first : Token.FirstUnknown (tokenize formula options) token)
    (stands : StandsAt formula token.offset c)
    : Earliest (UnknownAt options formula) token.offset c := by
  obtain ⟨unknown, before, after, split, known⟩ := first
  have ascending := tokenize_ascending formula options
  rw [split] at ascending
  have later := (List.pairwise_cons.mp (List.pairwise_append.mp ascending).2.1).1
  refine ⟨⟨stands, token, by simp [split], unknown, rfl⟩, ?_⟩
  rintro earlier other ⟨_, rival, member, rivalUnknown, rfl⟩
  rw [split] at member
  rcases List.mem_append.mp member with inBefore | inRest
  · exact absurd rivalUnknown (known rival inBefore)
  · rcases List.mem_cons.mp inRest with rfl | inAfter
    · exact Nat.le_refl _
    · exact Nat.le_of_lt (later rival inAfter)

-----------------------------------------------------------------------------------------
-- Comparisons
-----------------------------------------------------------------------------------------

/-- The signs that comparisons are written with. -/
def comparisonSigns : List Char :=
  ['=', '<', '>']

/-- The text of a formula without one equals sign at its very beginning. -/
def afterEqualsSign (formula : String) : List Char :=
  match formula.toList with
  | '=' :: rest => rest
  | text => text

/-- Whether a sign of comparison stands at an offset of a formula. The equals sign that a formula
begins with is none.
-/
def ComparesAt (formula : String) (offset : Nat) (c : Char) : Prop :=
  StandsAt formula offset c ∧ c ∈ comparisonSigns ∧ ¬ (offset = 0 ∧ c = '=')

theorem not_continuesName_of_sign : ∀ c ∈ comparisonSigns,
    continuesName c = false ∧ isBlank c = false ∧ c.isDigit = false ∧ c ≠ '.' ∧ c ≠ ',' := by
  intro c sign
  simp only [comparisonSigns, List.mem_cons, List.not_mem_nil, or_false] at sign
  rcases sign with rfl | rfl | rfl <;> decide

/-- A sign of comparison is a lexeme of its own. -/
theorem Lexeme.Admitted.eq_of_sign {separators : DecimalSeparators} {first c : Char}
    {more : List Char} (admitted : Admitted separators (first :: more))
    (sign : c ∈ comparisonSigns) (member : c ∈ first :: more)
    : first = c ∧ more = [] := by
  obtain ⟨noName, _, noDigit, noPoint, noComma⟩ := not_continuesName_of_sign c sign
  rw [Admitted] at admitted
  split at admitted
  · rcases admitted.digit_or_separator c member with digit | accepted
    · simp [noDigit] at digit
    · rcases point_or_comma_of_accepts accepted with same | same <;> contradiction
  · split at admitted
    · simp [admitted.continues c member] at noName
    · subst admitted
      exact ⟨(List.mem_singleton.mp member).symm, rfl⟩

theorem Lexeme.Admitted.begins_of_sign {separators : DecimalSeparators} {first c : Char}
    {more front back : List Char} (admitted : Admitted separators (first :: more))
    (sign : c ∈ comparisonSigns) (chars : first :: more = front ++ c :: back)
    : front = [] ∧ first = c := by
  have holds : c ∈ first :: more := by
    rw [chars]
    simp
  obtain ⟨same, rfl⟩ := admitted.eq_of_sign sign holds
  have length := congrArg List.length chars
  simp only [List.length_append, List.length_cons, List.length_nil] at length
  exact ⟨List.eq_nil_of_length_eq_zero (by omega), same⟩

/-- A lexeme as it is where comparisons are not accepted. -/
def Lexeme.withoutComparison (lexeme : Lexeme) : Lexeme :=
  if lexeme.first ∈ comparisonSigns then { lexeme with kind := .unknown } else lexeme

namespace Lexeme

variable {options : TokenizerOptions} {formula : String} {offset : Nat} {c : Char}

@[simp]
theorem withoutComparison_offset (lexeme : Lexeme)
    : lexeme.withoutComparison.offset = lexeme.offset := by
  rw [withoutComparison]
  split <;> rfl

@[simp]
theorem withoutComparison_first (lexeme : Lexeme)
    : lexeme.withoutComparison.first = lexeme.first := by
  rw [withoutComparison]
  split <;> rfl

@[simp]
theorem withoutComparison_more (lexeme : Lexeme)
    : lexeme.withoutComparison.more = lexeme.more := by
  rw [withoutComparison]
  split <;> rfl

@[simp]
theorem withoutComparison_span (lexeme : Lexeme)
    : lexeme.withoutComparison.span = lexeme.span := by
  simp [span]

theorem withoutComparison_kind_iff (lexeme : Lexeme)
    : lexeme.withoutComparison.kind = .unknown
        ↔ lexeme.first ∈ comparisonSigns ∨ lexeme.kind = .unknown := by
  rw [withoutComparison]
  split <;> simp [*]

theorem characterKind_comparisons (offset : Nat) (c : Char)
    : (⟨characterKind false c, offset, c, []⟩ : Lexeme)
        = withoutComparison ⟨characterKind true c, offset, c, []⟩ := by
  rw [withoutComparison]
  split
  · rename_i sign
    simp only [comparisonSigns, List.mem_cons, List.not_mem_nil, or_false] at sign
    rcases sign with rfl | rfl | rfl <;> rfl
  · rename_i other
    simp only [comparisonSigns] at other
    simp only [characterKind, if_neg other]

theorem next_comparisons (options : TokenizerOptions) (offset : Nat) (c : Char)
    (rest : List Char)
    : next { options with comparisons := false } offset c rest
        = (next { options with comparisons := true } offset c rest).withoutComparison := by
  by_cases sign : c ∈ comparisonSigns
  · obtain ⟨noName, _, noDigit, _⟩ := not_continuesName_of_sign c sign
    have begins : ¬ beginsName c = true :=
      fun begins => by simp [continuesName_of_beginsName begins] at noName
    simp only [next, if_neg (Bool.eq_false_iff.mp noDigit), if_neg begins,
      characterKind_comparisons]
  · have unchanged : ∀ lexeme : Lexeme, lexeme.first = c → lexeme.withoutComparison = lexeme := by
      rintro lexeme rfl
      exact if_neg sign
    rw [unchanged _ (next_first _ _ _ _)]
    simp only [next]
    split
    · rfl
    · split
      · rfl
      · rw [characterKind_comparisons, unchanged _ rfl]

/-- Where comparisons are not accepted a text has the lexemes that it has elsewhere, except that
the signs of comparison lose their meaning.
-/
theorem ofText_comparisons (options : TokenizerOptions) (offset : Nat) (text : List Char)
    : ofText { options with comparisons := false } offset text
        = (ofText { options with comparisons := true } offset text).map withoutComparison := by
  induction length : text.length using Nat.strongRecOn generalizing offset text with
  | ind bound ih =>
      cases text with
      | nil => simp [ofText]
      | cons c rest =>
          rw [List.length_cons] at length
          cases blank : isBlank c with
          | true =>
              rw [ofText_blank _ _ blank, ofText_blank _ _ blank]
              exact ih rest.length (by omega) _ _ rfl
          | false =>
              simp only [ofText_visible _ _ blank, next_comparisons, List.map_cons,
                withoutComparison_span, withoutComparison_more]
              rw [ih _ (by rw [List.length_drop]; omega) _ _ rfl]

theorem ofFormula_comparisons (options : TokenizerOptions) (formula : String)
    : ofFormula { options with comparisons := false } formula
        = (ofFormula { options with comparisons := true } formula).map withoutComparison := by
  rw [ofFormula, ofFormula]
  split <;> exact ofText_comparisons _ _ _

/-- A sign of comparison begins a lexeme. -/
theorem exists_lexeme_of_comparesAt (compares : ComparesAt formula offset c)
    : ∃ lexeme ∈ ofFormula options formula, lexeme.offset = offset ∧ lexeme.first = c := by
  obtain ⟨⟨before, after, split, rfl⟩, sign, notLead⟩ := compares
  have divides := divides_ofFormula options formula
  have kept : ¬ LeftOut before c := by
    rintro (blank | ⟨rfl, rfl⟩)
    · simp [(not_continuesName_of_sign c sign).2.1] at blank
    · exact notLead ⟨rfl, rfl⟩
  rw [← divides.outside before c after split] at kept
  obtain ⟨span, covered⟩ := not_forall.mp kept
  obtain ⟨member, covers⟩ := Classical.not_imp.mp covered
  obtain ⟨front, back, chars, place⟩ :=
    divides.mem_of_covers member split (not_not.mp covers)
  obtain ⟨lexeme, inFormula, rfl⟩ := List.mem_map.mp member
  obtain ⟨_, _, _, _, longest⟩ := divides.longest lexeme.toSpan member
  obtain ⟨rfl, first⟩ := longest.admitted.begins_of_sign sign chars
  exact ⟨lexeme, inFormula, by simpa [toSpan, byteLength] using place.symm, first⟩

/-- The equals sign that a formula begins with belongs to no lexeme. -/
theorem comparesAt_of_mem {lexeme : Lexeme} (member : lexeme ∈ ofFormula options formula)
    (sign : lexeme.first ∈ comparisonSigns)
    : ComparesAt formula lexeme.offset lexeme.first := by
  have stands := standsAt member
  refine ⟨stands, sign, ?_⟩
  rintro ⟨zero, equals⟩
  obtain ⟨before, after, split, length⟩ := stands
  obtain rfl : before = [] := byteLength_eq_zero_iff.mp (length.trans zero)
  have divides := divides_ofFormula options formula
  have spanned : lexeme.toSpan ∈ (ofFormula options formula).map toSpan :=
    List.mem_map_of_mem member
  refine (divides.outside [] _ after split).mpr (Or.inr ⟨rfl, equals⟩) lexeme.toSpan spanned ?_
  have reach := Span.start_lt_stop (divides.nonempty _ spanned)
  have start : lexeme.toSpan.start = 0 := zero
  simp only [Span.Covers, byteLength]
  omega

end Lexeme

/-- What has no meaning where comparisons are not accepted is what has none elsewhere, and the
signs of comparison.
-/
theorem unknownAt_comparisons (options : TokenizerOptions) (formula : String) (offset : Nat)
    (c : Char)
    : UnknownAt { options with comparisons := false } formula offset c
        ↔ ComparesAt formula offset c
          ∨ UnknownAt { options with comparisons := true } formula offset c := by
  rw [unknownAt_iff, unknownAt_iff, ofFormula_comparisons]
  constructor
  · rintro ⟨_, member, unknown, rfl, rfl⟩
    obtain ⟨lexeme, inFormula, rfl⟩ := List.mem_map.mp member
    rw [withoutComparison_offset, withoutComparison_first]
    rcases (withoutComparison_kind_iff lexeme).mp unknown with sign | unknown
    · exact Or.inl (comparesAt_of_mem inFormula sign)
    · exact Or.inr ⟨lexeme, inFormula, unknown, rfl, rfl⟩
  · intro refused
    obtain ⟨lexeme, member, unknown, rfl, rfl⟩ : ∃ lexeme ∈
        ofFormula { options with comparisons := true } formula,
          (lexeme.first ∈ comparisonSigns ∨ lexeme.kind = .unknown)
          ∧ lexeme.offset = offset ∧ lexeme.first = c := by
      rcases refused with compares | ⟨lexeme, member, unknown, starts, first⟩
      · obtain ⟨lexeme, member, starts, rfl⟩ := exists_lexeme_of_comparesAt compares
        exact ⟨lexeme, member, Or.inl compares.2.1, starts, rfl⟩
      · exact ⟨lexeme, member, Or.inr unknown, starts, first⟩
    exact ⟨_, List.mem_map_of_mem member, (withoutComparison_kind_iff lexeme).mpr unknown,
      withoutComparison_offset lexeme, withoutComparison_first lexeme⟩

theorem mem_afterEqualsSign {formula : String} {c : Char}
    : c ∈ afterEqualsSign formula
        ↔ ∃ before after,
            formula.toList = before ++ c :: after ∧ ¬ (before = [] ∧ c = '=') := by
  rw [afterEqualsSign]
  split
  · rename_i rest lead
    rw [lead]
    constructor
    · intro member
      obtain ⟨before, after, rfl⟩ := List.append_of_mem member
      exact ⟨'=' :: before, after, rfl, by simp⟩
    · rintro ⟨before, after, split, notLead⟩
      cases before with
      | nil => exact absurd ⟨rfl, (List.cons.inj split).1.symm⟩ notLead
      | cons first before => simp [(List.cons.inj split).2]
  · rename_i plain
    constructor
    · intro member
      obtain ⟨before, after, split⟩ := List.append_of_mem member
      refine ⟨before, after, split, ?_⟩
      rintro ⟨rfl, rfl⟩
      exact plain after split
    · rintro ⟨before, after, split, _⟩
      simp [split]

/-- The signs of comparison in a formula are those after the equals sign that it begins with. -/
theorem exists_comparesAt_iff {formula : String}
    : (∃ offset c, ComparesAt formula offset c)
        ↔ ∃ c ∈ afterEqualsSign formula, c ∈ comparisonSigns := by
  constructor
  · rintro ⟨_, c, ⟨before, after, split, rfl⟩, sign, notLead⟩
    refine ⟨c, mem_afterEqualsSign.mpr ⟨before, after, split, ?_⟩, sign⟩
    rintro ⟨rfl, same⟩
    exact notLead ⟨rfl, same⟩
  · rintro ⟨c, member, sign⟩
    obtain ⟨before, after, split, notLead⟩ := mem_afterEqualsSign.mp member
    refine ⟨_, c, ⟨before, after, split, rfl⟩, sign, fun ⟨zero, same⟩ => ?_⟩
    exact notLead ⟨byteLength_eq_zero_iff.mp zero, same⟩

end FormulaLatex
