import FormulaLatex.Proofs.Text.Classes
import FormulaLatex.Proofs.Text.UpperCase
import FormulaLatex.Token.OfFormula

/-! The lexical grammar of formulas: numbers, names, and single characters. The first character
of a lexeme decides its class, and the lexeme that is read is the longest of its class.
-/

namespace FormulaLatex.Lexeme

open Text

-----------------------------------------------------------------------------------------
-- Classes
-----------------------------------------------------------------------------------------

/-- One digit or more, and nothing else. -/
structure Digits (text : List Char) : Prop where
  nonempty : text ≠ []
  digits : ∀ c ∈ text, c.isDigit = true

/-- Digits, with at most one accepted separator, which has digits on both sides. -/
inductive IsNumber (separators : DecimalSeparators) : List Char → Prop
  | whole {text} (digits : Digits text) : IsNumber separators text
  | decimal {whole separator fraction} (before : Digits whole)
    (accepted : separators.accepts separator = true) (after : Digits fraction)
    : IsNumber separators (whole ++ separator :: fraction)

/-- A letter or a dollar sign, and after it letters, numerals, underscores and dollar signs. -/
inductive IsName : List Char → Prop
  | intro {first more} (begins : beginsName first = true)
    (continues : ∀ c ∈ more, continuesName c = true)
    : IsName (first :: more)

/-- The texts of the lexical class that their first character belongs to. -/
def Admitted (separators : DecimalSeparators) : List Char → Prop
  | [] => False
  | first :: more =>
      if first.isDigit then IsNumber separators (first :: more)
      else if beginsName first then IsName (first :: more)
      else more = []

/-- A span is of its class, and no longer one is when the text goes on with `rest`. -/
structure Longest (separators : DecimalSeparators) (span rest : List Char) : Prop where
  admitted : Admitted separators span
  longest : ∀ other, other <+: span ++ rest → Admitted separators other
    → other.length ≤ span.length

theorem Digits.begins {digits : List Char} (all : Digits digits) (rest : List Char)
    : (digits ++ rest).head?.any Char.isDigit = true := by
  obtain ⟨first, more, rfl⟩ := List.exists_cons_of_ne_nil all.nonempty
  exact all.digits first List.mem_cons_self

theorem IsNumber.begins {separators : DecimalSeparators} {text : List Char}
    (number : IsNumber separators text)
    : text.head?.any Char.isDigit = true := by
  cases number with
  | whole digits => simpa using digits.begins []
  | decimal before accepted after => exact before.begins _

theorem Admitted.ne_nil {separators : DecimalSeparators} {span : List Char}
    (admitted : Admitted separators span)
    : span ≠ [] := by
  cases span with
  | nil => exact admitted.elim
  | cons first more => exact List.cons_ne_nil first more

/-- Two lexemes are the same if either of them could have been read in place of the other. -/
theorem Longest.eq_of_begins {separators : DecimalSeparators} {chars others rest back : List Char}
    (longest : Longest separators chars rest) (otherLongest : Longest separators others back)
    (begins : chars <+: others ++ back) (otherBegins : others <+: chars ++ rest)
    : others = chars := by
  have upper := longest.longest others otherBegins otherLongest.admitted
  have lower := otherLongest.longest chars begins longest.admitted
  have within := List.prefix_of_prefix_length_le otherBegins (List.prefix_append chars rest) upper
  exact within.eq_of_length (Nat.le_antisymm upper lower)

theorem beginsName_eq_false_of_isDigit {c : Char} (digit : c.isDigit = true)
    : beginsName c = false := by
  rw [beginsName, isAlphabetic_eq_false_of_isDigit digit, Bool.false_or, beq_eq_false_iff_ne]
  rintro rfl
  cases digit

theorem point_or_comma_of_accepts {separators : DecimalSeparators} {c : Char}
    (accepted : separators.accepts c = true)
    : c = '.' ∨ c = ',' := by
  cases separators <;>
    simp only [DecimalSeparators.accepts, Bool.or_eq_true, beq_iff_eq] at accepted <;>
    simp [accepted]

theorem IsNumber.digit_or_separator {separators : DecimalSeparators} {text : List Char}
    (number : IsNumber separators text)
    : ∀ c ∈ text, c.isDigit = true ∨ separators.accepts c = true := by
  intro c member
  cases number with
  | whole digits => exact Or.inl (digits.digits c member)
  | decimal before accepted after =>
      rcases List.mem_append.mp member with inWhole | inTail
      · exact Or.inl (before.digits c inWhole)
      · rcases List.mem_cons.mp inTail with rfl | inFraction
        · exact Or.inr accepted
        · exact Or.inl (after.digits c inFraction)

-----------------------------------------------------------------------------------------
-- White space
-----------------------------------------------------------------------------------------

theorem isBlank_eq_false_of_continuesName {c : Char} (continues : continuesName c = true)
    : isBlank c = false := by
  rw [Bool.eq_false_iff]
  intro blank
  simp only [continuesName, isAlphanumeric, isAlphabetic_eq_false_of_isBlank blank,
    isNumeric_eq_false_of_isBlank blank, Bool.or_false, Bool.false_or, Bool.or_eq_true,
    beq_iff_eq] at continues
  rcases continues with rfl | rfl <;> cases blank

theorem continuesName_of_beginsName {c : Char} (begins : beginsName c = true)
    : continuesName c = true := by
  rcases Bool.or_eq_true_iff.mp begins with alphabetic | dollar
  · simp [continuesName, isAlphanumeric, alphabetic]
  · simp [continuesName, dollar]

theorem isBlank_eq_false_of_beginsName {c : Char} (begins : beginsName c = true)
    : isBlank c = false :=
  isBlank_eq_false_of_continuesName (continuesName_of_beginsName begins)

theorem beginsName_eq_false_of_isBlank {c : Char} (blank : isBlank c = true)
    : beginsName c = false := by
  rw [Bool.eq_false_iff]
  intro begins
  rw [isBlank_eq_false_of_beginsName begins] at blank
  cases blank

theorem IsName.continues {name : List Char} (isName : IsName name)
    : ∀ c ∈ name, continuesName c = true := by
  cases isName with
  | intro begins continues =>
      exact List.forall_mem_cons.mpr ⟨continuesName_of_beginsName begins, continues⟩

theorem IsNumber.isBlank_eq_false {separators : DecimalSeparators} {span : List Char}
    (number : IsNumber separators span)
    : ∀ c ∈ span, isBlank c = false := by
  intro c member
  rcases number.digit_or_separator c member with digit | accepted
  · exact isBlank_eq_false_of_isDigit digit
  · rcases point_or_comma_of_accepts accepted with rfl | rfl <;> rfl

/-- A lexeme that does not begin with white space has none in it. -/
theorem Admitted.isBlank_eq_false {separators : DecimalSeparators} {first : Char}
    {more : List Char} (admitted : Admitted separators (first :: more))
    (visible : isBlank first = false)
    : ∀ c ∈ first :: more, isBlank c = false := by
  rw [Admitted] at admitted
  split at admitted
  · exact admitted.isBlank_eq_false
  · split at admitted
    · exact fun c member => isBlank_eq_false_of_continuesName (admitted.continues c member)
    · rw [admitted]
      simpa using visible

-----------------------------------------------------------------------------------------
-- The lexeme that is read
-----------------------------------------------------------------------------------------

theorem length_le_takeWhile {p : Char → Bool} {front text : List Char}
    (begins : front <+: text) (all : ∀ c ∈ front, p c = true)
    : front.length ≤ (text.takeWhile p).length := by
  obtain ⟨back, rfl⟩ := begins
  rw [List.takeWhile_append_of_pos all, List.length_append]
  exact Nat.le_add_right _ _

theorem numberTail_begins (separators : DecimalSeparators) (text : List Char)
    : numberTail separators text <+: text := by
  have split : text = text.takeWhile Char.isDigit ++ text.dropWhile Char.isDigit :=
    List.takeWhile_append_dropWhile.symm
  rw [numberTail]
  conv => rhs; rw [split]
  refine List.prefix_append_right_inj _ |>.mpr ?_
  split
  · rename_i separator digit rest after
    split
    · rw [after]
      exact List.prefix_cons_inj _ |>.mpr
        (List.prefix_cons_inj _ |>.mpr (List.takeWhile_prefix _))
    · exact List.nil_prefix
  · exact List.nil_prefix

theorem digits_takeWhile {c : Char} (digit : c.isDigit = true) (text : List Char)
    : Digits (c :: text.takeWhile Char.isDigit) := by
  refine ⟨List.cons_ne_nil _ _, ?_⟩
  intro d member
  rcases List.mem_cons.mp member with rfl | inRun
  · exact digit
  · exact List.all_eq_true.mp List.all_takeWhile d inRun

theorem isName_takeWhile {c : Char} (begins : beginsName c = true) (text : List Char)
    : IsName (c :: text.takeWhile continuesName) :=
  .intro begins fun d inRun => List.all_eq_true.mp List.all_takeWhile d inRun

theorem isNumber_numberTail (separators : DecimalSeparators) {c : Char}
    (digit : c.isDigit = true) (text : List Char)
    : IsNumber separators (c :: numberTail separators text) := by
  rw [numberTail]
  split
  · rename_i separator next rest after
    split
    · rename_i separated
      obtain ⟨accepted, nextDigit⟩ := Bool.and_eq_true_iff.mp separated
      exact .decimal (digits_takeWhile digit text) accepted (digits_takeWhile nextDigit rest)
    · rw [List.append_nil]
      exact .whole (digits_takeWhile digit text)
  · rw [List.append_nil]
    exact .whole (digits_takeWhile digit text)

/-- No number that a text begins with reaches beyond the one that is read. -/
theorem length_le_numberTail {separators : DecimalSeparators} {first : Char}
    {more text : List Char} (number : IsNumber separators (first :: more))
    (begins : more <+: text)
    : more.length ≤ (numberTail separators text).length := by
  obtain ⟨back, rfl⟩ := begins
  generalize spanned : first :: more = span at number
  cases number with
  | whole digits =>
      rw [← spanned] at digits
      have reach := length_le_takeWhile (List.prefix_append more back)
        fun c member => digits.digits c (List.mem_cons_of_mem _ member)
      rw [numberTail, List.length_append]
      exact Nat.le_trans reach (Nat.le_add_right _ _)
  | @decimal whole separator fraction before accepted after =>
      obtain ⟨lead, run, rfl⟩ := List.exists_cons_of_ne_nil before.nonempty
      obtain ⟨next, digits, rfl⟩ := List.exists_cons_of_ne_nil after.nonempty
      rw [List.cons_append] at spanned
      obtain ⟨-, rfl⟩ := List.cons.inj spanned
      have runDigits : ∀ c ∈ run, c.isDigit = true :=
        fun c member => before.digits c (List.mem_cons_of_mem _ member)
      have stops : separator.isDigit = false := by
        rcases point_or_comma_of_accepts accepted with rfl | rfl <;> rfl
      have reach := length_le_takeWhile (List.prefix_append digits back)
        fun c member => after.digits c (List.mem_cons_of_mem _ member)
      have nextDigit := after.digits next List.mem_cons_self
      rw [numberTail, List.append_assoc, List.takeWhile_append_of_pos runDigits,
        List.dropWhile_append_of_pos runDigits, List.cons_append,
        List.takeWhile_cons_of_neg (by simp [stops]),
        List.dropWhile_cons_of_neg (by simp [stops])]
      simp only [List.cons_append, accepted, nextDigit, Bool.and_self, if_true,
        List.append_nil, List.length_append, List.length_cons]
      omega

theorem next_first (options : TokenizerOptions) (offset : Nat) (c : Char) (rest : List Char)
    : (next options offset c rest).first = c := by
  rw [next]
  split
  · rfl
  · split <;> rfl

theorem next_more_begins (options : TokenizerOptions) (offset : Nat) (c : Char)
    (rest : List Char)
    : (next options offset c rest).more <+: rest := by
  rw [next]
  split
  · exact numberTail_begins _ _
  · split
    · exact List.takeWhile_prefix _
    · exact List.nil_prefix

/-- A lexeme and the text after it make up the text that it begins. -/
theorem next_append (options : TokenizerOptions) (offset : Nat) (c : Char) (rest : List Char)
    : (next options offset c rest).span ++ rest.drop (next options offset c rest).more.length
        = c :: rest := by
  rw [span, next_first, List.cons_append,
    List.prefix_iff_eq_append.mp (next_more_begins options offset c rest)]

theorem exists_next_of_mem_ofText {options : TokenizerOptions} {offset : Nat}
    {text : List Char} {lexeme : Lexeme} (member : lexeme ∈ ofText options offset text)
    : ∃ place c rest, isBlank c = false ∧ lexeme = next options place c rest := by
  fun_induction ofText options offset text with
  | case1 => cases member
  | case2 offset c rest blank ih => exact ih member
  | case3 offset c rest visible first ih =>
      rcases List.mem_cons.mp member with rfl | later
      · exact ⟨offset, c, rest, Bool.eq_false_iff.mpr visible, rfl⟩
      · exact ih later

theorem exists_next_of_mem_ofFormula {options : TokenizerOptions} {formula : String}
    {lexeme : Lexeme} (member : lexeme ∈ ofFormula options formula)
    : ∃ place c rest, isBlank c = false ∧ lexeme = next options place c rest := by
  rw [ofFormula] at member
  split at member
  · exact exists_next_of_mem_ofText member
  · exact exists_next_of_mem_ofText member

theorem next_admitted (options : TokenizerOptions) (offset : Nat) (c : Char)
    (rest : List Char)
    : Admitted options.decimalSeparators (next options offset c rest).span := by
  rw [span, next_first, Admitted, next]
  by_cases digit : c.isDigit = true
  · rw [if_pos digit, if_pos digit]
    exact isNumber_numberTail options.decimalSeparators digit rest
  · rw [if_neg digit, if_neg digit]
    by_cases begins : beginsName c = true
    · rw [if_pos begins, if_pos begins]
      exact isName_takeWhile begins rest
    · rw [if_neg begins, if_neg begins]

/-- The lexeme that is read is the longest of its class. -/
theorem next_longest (options : TokenizerOptions) (offset : Nat) (c : Char) (rest : List Char)
    : Longest options.decimalSeparators (next options offset c rest).span
        (rest.drop (next options offset c rest).more.length) := by
  refine ⟨next_admitted options offset c rest, ?_⟩
  intro other begins admitted
  obtain ⟨first, more, rfl⟩ := List.exists_cons_of_ne_nil admitted.ne_nil
  rw [next_append, List.cons_prefix_cons] at begins
  obtain ⟨rfl, begins⟩ := begins
  rw [span, List.length_cons, List.length_cons]
  refine Nat.succ_le_succ ?_
  rw [Admitted] at admitted
  rw [next]
  by_cases digit : first.isDigit = true
  · rw [if_pos digit] at admitted
    rw [if_pos digit]
    exact length_le_numberTail admitted begins
  · rw [if_neg digit] at admitted
    rw [if_neg digit]
    by_cases named : beginsName first = true
    · rw [if_pos named] at admitted
      rw [if_pos named]
      cases admitted with
      | intro _ continues => exact length_le_takeWhile begins continues
    · rw [if_neg named] at admitted
      rw [if_neg named]
      exact Nat.le_of_eq (congrArg List.length admitted)

-----------------------------------------------------------------------------------------
-- Texts
-----------------------------------------------------------------------------------------

/-- What the token of a span says: a comma for either separator of arguments, a name in upper
case without its dollar signs, one dollar sign for any run of them, and otherwise the span.
-/
def spanText (span : List Char) : String :=
  if span = [','] ∨ span = [';'] then ","
  else if span.head?.any beginsName then
    if span.all fun c => c == '$' then "$"
    else upperCase (String.ofList (span.filter fun c => c != '$'))
  else String.ofList span

theorem isEmpty_canonicalName {span : List Char}
    : (canonicalName span).isEmpty = true ↔ span.all (fun c => c == '$') = true := by
  rw [String.isEmpty_iff, canonicalName, upperCase_eq_empty_iff, String.ofList_eq_empty_iff]
  simp

theorem spanText_of_ne {c : Char} {more : List Char} (comma : c ≠ ',') (semicolon : c ≠ ';')
    : spanText (c :: more)
        = if beginsName c then
            if (c :: more).all fun d => d == '$' then "$" else canonicalName (c :: more)
          else String.ofList (c :: more) := by
  rw [spanText, if_neg]
  · rfl
  · rintro (same | same)
    · exact comma (List.cons.inj same).1
    · exact semicolon (List.cons.inj same).1

theorem text_name (c : Char) (more rest : List Char) (offset : Nat)
    : text ⟨nameKind (c :: more) rest, offset, c, more⟩
        = if (c :: more).all fun d => d == '$' then "$" else canonicalName (c :: more) := by
  rw [nameKind]
  by_cases dollars : (c :: more).all (fun d => d == '$') = true
  · rw [if_pos (isEmpty_canonicalName.mpr dollars), if_pos dollars]
    obtain rfl : c = '$' := eq_of_beq (List.all_eq_true.mp dollars c List.mem_cons_self)
    rfl
  · rw [if_neg (mt isEmpty_canonicalName.mp dollars), if_neg dollars]
    split <;> rfl

theorem text_character (comparisons : Bool) (c : Char) (offset : Nat)
    : text ⟨characterKind comparisons c, offset, c, []⟩
        = if c = ',' ∨ c = ';' then "," else String.ofList [c] := by
  by_cases separator : c = ',' ∨ c = ';'
  · rw [if_pos separator]
    rcases separator with rfl | rfl <;> rfl
  · have other : c ∉ [',', ';'] := by
      simpa using separator
    rw [if_neg separator, characterKind, if_neg other]
    split
    · rfl
    · split
      · cases comparisons <;> rfl
      · split
        · rfl
        · split <;> rfl

/-- A token says what its span says. -/
theorem next_text (options : TokenizerOptions) (offset : Nat) (c : Char) (rest : List Char)
    : (next options offset c rest).text = spanText (next options offset c rest).span := by
  rw [span, next_first, next]
  by_cases digit : c.isDigit = true
  · rw [if_pos digit, spanText_of_ne, beginsName_eq_false_of_isDigit digit]
    · rfl
    · rintro rfl
      cases digit
    · rintro rfl
      cases digit
  · rw [if_neg digit]
    by_cases begins : beginsName c = true
    · rw [if_pos begins, spanText_of_ne, if_pos begins]
      · exact text_name _ _ _ _
      · rintro rfl
        revert begins
        decide
      · rintro rfl
        revert begins
        decide
    · rw [if_neg begins, text_character]
      by_cases separator : c = ',' ∨ c = ';'
      · rw [if_pos separator]
        rcases separator with rfl | rfl <;> rfl
      · obtain ⟨comma, semicolon⟩ := not_or.mp separator
        rw [if_neg separator, spanText_of_ne comma semicolon, if_neg begins]

-----------------------------------------------------------------------------------------
-- Kinds
-----------------------------------------------------------------------------------------

theorem characterKind_ne (comparisons : Bool) (c : Char)
    : characterKind comparisons c ≠ .number ∧ characterKind comparisons c ≠ .reference
      ∧ characterKind comparisons c ≠ .function := by
  rw [characterKind]
  split
  · decide
  · split
    · cases comparisons <;> decide
    · split
      · decide
      · split
        · decide
        · split <;> decide

theorem nameKind_ne_number (span rest : List Char) : nameKind span rest ≠ .number := by
  rw [nameKind]
  split
  · decide
  · split <;> decide

theorem text_of_named {lexeme : Lexeme}
    (named : lexeme.kind = .reference ∨ lexeme.kind = .function)
    : lexeme.text = canonicalName lexeme.span := by
  rw [text]
  rcases named with kind | kind
  · rw [kind]
  · rw [kind]

-----------------------------------------------------------------------------------------
-- Reading on
-----------------------------------------------------------------------------------------

theorem ofText_blank (options : TokenizerOptions) (offset : Nat) {c : Char}
    (blank : isBlank c = true) (rest : List Char)
    : ofText options offset (c :: rest) = ofText options (offset + c.utf8Size) rest := by
  rw [ofText, if_pos blank]

theorem ofText_visible (options : TokenizerOptions) (offset : Nat) {c : Char}
    (visible : isBlank c = false) (rest : List Char)
    : ofText options offset (c :: rest)
        = next options offset c rest
          :: ofText options (offset + byteLength (next options offset c rest).span)
            (rest.drop (next options offset c rest).more.length) := by
  rw [ofText, if_neg (Bool.eq_false_iff.mp visible)]

theorem ofText_ne_nil {options : TokenizerOptions} {offset : Nat} {c : Char}
    {rest : List Char} (visible : isBlank c = false)
    : ofText options offset (c :: rest) ≠ [] := by
  rw [ofText_visible options offset visible]
  exact List.cons_ne_nil _ _

/-- If a text without white space is one lexeme, the lexeme is the whole text: what it left would
have a lexeme of its own.
-/
theorem span_of_ofText_eq_singleton {options : TokenizerOptions} {offset : Nat} {c : Char}
    {rest : List Char} {lexeme : Lexeme} (visible : ∀ d ∈ c :: rest, isBlank d = false)
    (single : ofText options offset (c :: rest) = [lexeme])
    : lexeme = next options offset c rest ∧ lexeme.span = c :: rest := by
  obtain ⟨first, others⟩ := List.forall_mem_cons.mp visible
  rw [ofText_visible options offset first, List.cons.injEq] at single
  obtain ⟨rfl, ended⟩ := single
  refine ⟨rfl, ?_⟩
  have divided := next_append options offset c rest
  cases left : rest.drop (next options offset c rest).more.length with
  | nil =>
      rw [left, List.append_nil] at divided
      exact divided
  | cons d back =>
      have remains : d ∈ rest := List.mem_of_mem_drop (left ▸ List.mem_cons_self)
      rw [left] at ended
      exact absurd ended (ofText_ne_nil (others d remains))

end FormulaLatex.Lexeme
