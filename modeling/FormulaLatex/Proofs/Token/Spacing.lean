import FormulaLatex.Proofs.Token.LongestMatch

/-! White space between tokens. It may stand where a token begins and at the end of a formula: it
moves the tokens after it, and apart from that the tokens are the same.
-/

namespace FormulaLatex

open Text Lexeme

/-- A token after `count` bytes have been put into the formula at an offset. -/
def Token.moveFrom (place count : Nat) (token : Token) : Token :=
  if place ≤ token.offset then { token with offset := token.offset + count } else token

/-- A formula that is divided in two is divided between tokens if its second part begins with a
token or is empty.
-/
def DividesTokens (options : TokenizerOptions) (front back : String) : Prop :=
  back = "" ∨ ∃ token ∈ tokenize (front ++ back) options, token.offset = front.utf8ByteSize

theorem byteLength_toList (text : String) : byteLength text.toList = text.utf8ByteSize := by
  rw [← String.ofList_toList (s := text)]
  generalize text.toList = chars
  rw [String.toList_ofList]
  induction chars with
  | nil => rfl
  | cons c rest ih =>
      rw [byteLength, ih, ← String.utf8ByteSize_singleton, ← String.utf8ByteSize_append,
        String.ofList_cons]

namespace Lexeme

-----------------------------------------------------------------------------------------
-- Offsets
-----------------------------------------------------------------------------------------

/-- A lexeme after `count` bytes have been put into the text at an offset. -/
def moveFrom (place count : Nat) (lexeme : Lexeme) : Lexeme :=
  if place ≤ lexeme.offset then { lexeme with offset := lexeme.offset + count } else lexeme

theorem token_moveFrom (place count : Nat) (lexeme : Lexeme)
    : (lexeme.moveFrom place count).token = lexeme.token.moveFrom place count := by
  by_cases later : place ≤ lexeme.offset
  · rw [moveFrom, if_pos later, Token.moveFrom]
    exact (if_pos later).symm
  · rw [moveFrom, if_neg later, Token.moveFrom]
    exact (if_neg later).symm

theorem next_move (options : TokenizerOptions) (offset count : Nat) (c : Char)
    (rest : List Char)
    : next options (offset + count) c rest
        = { next options offset c rest with offset := offset + count } := by
  by_cases digit : c.isDigit = true
  · simp only [next, if_pos digit]
  · by_cases begins : beginsName c = true
    · simp only [next, if_neg digit, if_pos begins]
    · simp only [next, if_neg digit, if_neg begins]

theorem ofText_move (options : TokenizerOptions) (offset count : Nat) (text : List Char)
    : ofText options (offset + count) text
        = (ofText options offset text).map fun lexeme =>
            { lexeme with offset := lexeme.offset + count } := by
  fun_induction ofText options offset text with
  | case1 => simp [ofText]
  | case2 offset c rest blank ih =>
      rw [ofText_blank options _ blank, Nat.add_right_comm]
      exact ih
  | case3 offset c rest visible lexeme ih =>
      rw [ofText_visible options _ (Bool.eq_false_iff.mpr visible), next_move, List.map_cons,
        ← ih, Nat.add_right_comm, next_offset]
      rfl

theorem offset_le_of_mem_ofText {options : TokenizerOptions} {offset : Nat} {text : List Char}
    {lexeme : Lexeme} (member : lexeme ∈ ofText options offset text)
    : offset ≤ lexeme.offset :=
  (divides_ofText options offset text).offset_le (List.mem_map_of_mem (f := toSpan) member)

theorem ofText_blanks (options : TokenizerOptions) (offset : Nat) {space : List Char}
    (blank : ∀ c ∈ space, isBlank c = true) (text : List Char)
    : ofText options offset (space ++ text)
        = ofText options (offset + byteLength space) text := by
  induction space generalizing offset with
  | nil => rfl
  | cons c rest ih =>
      obtain ⟨head, others⟩ := List.forall_mem_cons.mp blank
      rw [List.cons_append, ofText_blank options offset head, ih _ others, byteLength,
        Nat.add_assoc]

-----------------------------------------------------------------------------------------
-- Lexemes
-----------------------------------------------------------------------------------------

/-- The kind of a lexeme, given its characters and what follows. -/
def kindOf (options : TokenizerOptions) (first : Char) (more rest : List Char) : TokenKind :=
  if first.isDigit then .number
  else if beginsName first then nameKind (first :: more) rest
  else characterKind options.comparisons first

theorem next_eq_kindOf (options : TokenizerOptions) (offset : Nat) (c : Char)
    (rest : List Char)
    : next options offset c rest
        = ⟨kindOf options c (next options offset c rest).more
            (rest.drop (next options offset c rest).more.length),
          offset, c, (next options offset c rest).more⟩ := by
  by_cases digit : c.isDigit = true
  · simp only [next, kindOf, if_pos digit]
  · by_cases begins : beginsName c = true
    · have divided : (rest.takeWhile continuesName ++ rest.dropWhile continuesName).drop
          (rest.takeWhile continuesName).length = rest.dropWhile continuesName := List.drop_left
      rw [List.takeWhile_append_dropWhile] at divided
      simp only [next, kindOf, if_neg digit, if_pos begins, divided]
    · simp only [next, kindOf, if_neg digit, if_neg begins]

theorem callFollows_insert {space : List Char} (blank : ∀ c ∈ space, isBlank c = true)
    (front back : List Char)
    : callFollows (front ++ (space ++ back)) = callFollows (front ++ back) := by
  simp only [callFollows, trimStart, List.dropWhile_append, List.dropWhile_append_of_pos blank]
  cases front.dropWhile isBlank <;> rfl

/-- White space after a lexeme, if not right after it, makes no difference to the lexeme. -/
theorem next_insert (options : TokenizerOptions) (offset : Nat) {c : Char}
    (visible : isBlank c = false) {more front space back : List Char}
    (blank : ∀ d ∈ space, isBlank d = true)
    (read : (next options offset c (more ++ (front ++ back))).more = more)
    : next options offset c (more ++ (front ++ (space ++ back)))
        = next options offset c (more ++ (front ++ back)) := by
  have longest := next_longest options offset c (more ++ (front ++ back))
  have spaced := next_longest options offset c (more ++ (front ++ (space ++ back)))
  have begins := next_more_begins options offset c (more ++ (front ++ (space ++ back)))
  have same := next_eq_kindOf options offset c (more ++ (front ++ (space ++ back)))
  simp only [span, next_first] at longest spaced
  rw [read, List.drop_left] at longest
  generalize (next options offset c (more ++ (front ++ (space ++ back)))).more = other
    at spaced begins same
  -- No lexeme reaches over white space, so both readings choose among the same texts.
  have within : other <+: more ++ (front ++ back) := by
    cases space with
    | nil => exact begins
    | cons d space =>
        rw [List.cons_append, ← List.append_assoc] at begins
        rw [← List.append_assoc]
        refine (prefix_of_not_mem begins fun member => ?_).trans (List.prefix_append _ _)
        have clash := spaced.admitted.isBlank_eq_false visible d (List.mem_cons_of_mem _ member)
        rw [blank d List.mem_cons_self] at clash
        cases clash
  obtain ⟨-, rfl⟩ : c = c ∧ other = more := by
    refine List.cons.inj (longest.eq_of_begins spaced ?_ (List.prefix_cons_inj c |>.mpr within))
    rw [List.cons_append, List.prefix_cons_inj, List.prefix_iff_eq_append.mp begins]
    exact List.prefix_append _ _
  rw [same, next_eq_kindOf options offset c (other ++ (front ++ back)), read, List.drop_left,
    List.drop_left, kindOf, kindOf, nameKind, nameKind, callFollows_insert blank]

/-- A place at which a text is divided between lexemes: one begins there, or the text ends. -/
def DividesText (options : TokenizerOptions) (offset : Nat) (front back : List Char) : Prop :=
  back = [] ∨ ∃ lexeme ∈ ofText options offset (front ++ back),
    lexeme.offset = offset + byteLength front

theorem DividesText.past_blank {options : TokenizerOptions} {offset : Nat} {c : Char}
    {rest back : List Char} (blank : isBlank c = true)
    (divides : DividesText options offset (c :: rest) back)
    : DividesText options (offset + c.utf8Size) rest back := by
  refine divides.imp_right ?_
  rw [List.cons_append, ofText_blank options offset blank, byteLength, ← Nat.add_assoc]
  exact id

/-- A lexeme does not reach over a place between lexemes. -/
theorem DividesText.past_lexeme {options : TokenizerOptions} {offset : Nat} {c : Char}
    {rest back : List Char} (visible : isBlank c = false)
    (divides : DividesText options offset (c :: rest) back)
    : ∃ more front, rest = more ++ front
        ∧ (next options offset c (rest ++ back)).more = more
        ∧ DividesText options (offset + byteLength (c :: more)) front back := by
  have begins := next_more_begins options offset c (rest ++ back)
  rcases divides with rfl | ⟨lexeme, member, starts⟩
  · rw [List.append_nil] at begins
    obtain ⟨front, same⟩ := begins
    exact ⟨_, front, same.symm, by rw [List.append_nil], Or.inl rfl⟩
  · rw [List.cons_append, ofText_visible options offset visible, span, next_first] at member
    rcases List.mem_cons.mp member with rfl | later
    · have wide := c.utf8Size_pos
      rw [next_offset, byteLength] at starts
      omega
    · have reach := offset_le_of_mem_ofText later
      generalize (next options offset c (rest ++ back)).more = more at *
      have within : more <+: rest := by
        rcases List.prefix_or_prefix_of_prefix begins (List.prefix_append rest back) with
          shorter | ⟨beyond, same⟩
        · exact shorter
        · rw [starts, ← same, byteLength, byteLength, byteLength_append] at reach
          have empty : beyond = [] := by
            by_contra nonempty
            have wide := byteLength_pos nonempty
            omega
          exact ⟨[], by rw [List.append_nil, ← same, empty, List.append_nil]⟩
      obtain ⟨front, rfl⟩ := within
      refine ⟨more, front, rfl, rfl, Or.inr ⟨lexeme, ?_, ?_⟩⟩
      · rw [List.append_assoc, List.drop_left] at later
        exact later
      · rw [starts, ← List.cons_append, byteLength_append, Nat.add_assoc]

/-- White space at a place between lexemes moves the lexemes after it and leaves those before it
alone.
-/
theorem ofText_insert (options : TokenizerOptions) (offset : Nat)
    {front space back : List Char} (blank : ∀ c ∈ space, isBlank c = true)
    (divides : DividesText options offset front back)
    : ofText options offset (front ++ (space ++ back))
        = (ofText options offset (front ++ back)).map
            (moveFrom (offset + byteLength front) (byteLength space)) := by
  induction length : front.length using Nat.strongRecOn generalizing offset front with
  | ind bound ih =>
      cases front with
      | nil =>
          rw [List.nil_append, List.nil_append, ofText_blanks options offset blank, ofText_move]
          refine List.map_congr_left fun lexeme member => ?_
          exact (if_pos (offset_le_of_mem_ofText member)).symm
      | cons c rest =>
          rw [List.length_cons] at length
          cases seen : isBlank c with
          | true =>
              have inserted := ih rest.length (by omega) _ (divides.past_blank seen) rfl
              rw [List.cons_append, List.cons_append, ofText_blank options offset seen,
                ofText_blank options offset seen, inserted, byteLength, Nat.add_assoc]
          | false =>
              obtain ⟨more, front, rfl, read, later⟩ := divides.past_lexeme seen
              rw [List.append_assoc] at read
              have shorter : front.length < bound := by
                rw [List.length_append] at length
                omega
              have inserted := ih front.length shorter _ later rfl
              -- The lexeme itself stands before the white space and stays where it is.
              have stays : (next options offset c (more ++ (front ++ back))).moveFrom
                    (offset + byteLength (c :: (more ++ front))) (byteLength space)
                  = next options offset c (more ++ (front ++ back)) := by
                have wide := c.utf8Size_pos
                rw [moveFrom, if_neg]
                rw [next_offset, byteLength]
                omega
              simp only [List.cons_append, List.append_assoc]
              rw [ofText_visible options offset seen, ofText_visible options offset seen,
                next_insert options offset seen blank read, List.map_cons, stays, span, next_first,
                read, List.drop_left, List.drop_left, inserted, ← List.cons_append,
                byteLength_append, Nat.add_assoc]

-----------------------------------------------------------------------------------------
-- Formulas
-----------------------------------------------------------------------------------------

theorem ofFormula_lead (options : TokenizerOptions) (rest : List Char)
    : ofFormula options (String.ofList ('=' :: rest)) = ofText options ('='.utf8Size) rest := by
  simp only [ofFormula, String.toList_ofList]

theorem ofFormula_plain (options : TokenizerOptions) {text : List Char}
    (plain : text.head? ≠ some '=')
    : ofFormula options (String.ofList text) = ofText options 0 text := by
  rw [ofFormula, String.toList_ofList]
  split
  · exact absurd rfl plain
  · rfl

/-- A formula begins with the same equals sign, or none, with and without white space. -/
theorem ofFormula_insert (options : TokenizerOptions) {front space back : List Char}
    (blank : ∀ c ∈ space, isBlank c = true)
    (divides : back = [] ∨ ∃ lexeme ∈ ofFormula options (String.ofList (front ++ back)),
      lexeme.offset = byteLength front)
    : ofFormula options (String.ofList (front ++ (space ++ back)))
        = (ofFormula options (String.ofList (front ++ back))).map
            (moveFrom (byteLength front) (byteLength space)) := by
  by_cases lead : (front ++ back).head? = some '='
  · cases front with
    | nil =>
        -- No lexeme begins at the leading equals sign.
        obtain ⟨rest, rfl⟩ := List.head?_eq_some_iff.mp lead
        rcases divides with empty | ⟨lexeme, member, starts⟩
        · cases empty
        · rw [List.nil_append, ofFormula_lead] at member
          have late := offset_le_of_mem_ofText member
          rw [starts] at late
          cases late
    | cons c rest =>
        obtain rfl : c = '=' := Option.some.inj lead
        rw [List.cons_append, ofFormula_lead] at divides ⊢
        rw [List.cons_append, ofFormula_lead]
        exact ofText_insert options _ blank divides
  · rw [ofFormula_plain options lead] at divides ⊢
    have plain : (front ++ (space ++ back)).head? ≠ some '=' := by
      cases front with
      | cons c rest => exact lead
      | nil =>
          cases space with
          | nil => exact lead
          | cons d space =>
              intro same
              have clash := blank d List.mem_cons_self
              rw [Option.some.inj same] at clash
              cases clash
    rw [ofFormula_plain options plain, ← Nat.zero_add (byteLength front)]
    rw [← Nat.zero_add (byteLength front)] at divides
    exact ofText_insert options 0 blank divides

end Lexeme

/-- No two tokens of a formula begin at the same place. -/
theorem tokenize_ascending (formula : String) (options : TokenizerOptions)
    : (tokenize formula options).Pairwise fun token later => token.offset < later.offset := by
  have ascending := (divides_ofFormula options formula).ascending
  rw [List.pairwise_map] at ascending
  rw [tokenize, List.pairwise_map]
  exact ascending

/-- White space between tokens moves the tokens after it. -/
theorem tokenize_insert {options : TokenizerOptions} {front space back : String}
    (blank : ∀ c ∈ space.toList, isBlank c = true)
    (divides : DividesTokens options front back)
    : tokenize (front ++ space ++ back) options
        = (tokenize (front ++ back) options).map
            (Token.moveFrom front.utf8ByteSize space.utf8ByteSize) := by
  have apart : back.toList = []
      ∨ ∃ lexeme ∈ ofFormula options (String.ofList (front.toList ++ back.toList)),
          lexeme.offset = byteLength front.toList := by
    refine divides.imp (by rintro rfl; rfl) ?_
    rintro ⟨token, member, starts⟩
    obtain ⟨lexeme, inLexemes, rfl⟩ := List.mem_map.mp member
    rw [← String.toList_append, String.ofList_toList, byteLength_toList]
    exact ⟨lexeme, inLexemes, starts⟩
  have inserted := ofFormula_insert options blank apart
  simp only [byteLength_toList, ← String.toList_append, String.ofList_toList] at inserted
  rw [tokenize, String.append_assoc, inserted, List.map_map, tokenize, List.map_map]
  exact List.map_congr_left fun lexeme _ => token_moveFrom _ _ lexeme

end FormulaLatex
