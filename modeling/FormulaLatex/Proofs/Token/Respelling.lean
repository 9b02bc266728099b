import FormulaLatex.Proofs.Token.References
import FormulaLatex.Proofs.Token.Spacing
import FormulaLatex.Terminal

/-! The spelling of names. Dollar signs in a name and the case of its letters make no difference to
the tokens of a formula: they say the same, and although they stand elsewhere, the same of them
stand next to each other.
-/

namespace FormulaLatex

open Text Lexeme

-----------------------------------------------------------------------------------------
-- Spellings
-----------------------------------------------------------------------------------------

/-- Names that are the same but for dollar signs and the case of letters of ASCII. -/
structure Respells (name other : List Char) : Prop where
  isName : IsName name
  otherIsName : IsName other
  same : (other.filter fun c => c != '$').map Char.toLower
    = (name.filter fun c => c != '$').map Char.toLower

/-- Whether a name ends where a text begins. -/
def EndsName (text : List Char) : Prop :=
  ∀ c ∈ text.head?, continuesName c = false

theorem EndsName.cons {c : Char} (stops : continuesName c = false) (rest : List Char)
    : EndsName (c :: rest) := by
  intro d member
  rw [List.head?_cons, Option.mem_some_iff] at member
  rwa [← member]

/-- Texts that are the same but for the spelling of their names. -/
inductive SpelledAlike : List Char → List Char → Prop
  | nil : SpelledAlike [] []
  | character {c text other} (outside : beginsName c = false) (rest : SpelledAlike text other)
    : SpelledAlike (c :: text) (c :: other)
  | name {name other text back} (respells : Respells name other) (ends : EndsName text)
    (rest : SpelledAlike text back)
    : SpelledAlike (name ++ text) (other ++ back)

theorem Text.upperCaseChar_toLower (c : Char) : upperCaseChar c.toLower = upperCaseChar c := by
  rcases Nat.lt_or_ge c.toNat 0x5B with before | after
  · have letters : ∀ code < 0x5B, upperCaseChar (Char.ofNat code).toLower
        = upperCaseChar (Char.ofNat code) := by
      decide +kernel
    rw [← Char.ofNat_toNat c]
    exact letters c.toNat before
  · have same : c.toLower = c :=
      dif_neg fun capital => Nat.not_lt.mpr after (Nat.lt_succ_of_le capital.2)
    rw [same]

/-- The canonical form of a name does not depend on how it is spelled. -/
theorem Respells.canonicalName {name other : List Char} (respells : Respells name other)
    : canonicalName other = canonicalName name := by
  have lower : ∀ chars : List Char,
      (chars.map Char.toLower).flatMap upperCaseChar = chars.flatMap upperCaseChar := by
    intro chars
    rw [List.flatMap_map]
    simp only [upperCaseChar_toLower]
  rw [Lexeme.canonicalName, Lexeme.canonicalName, upperCase, upperCase, String.toList_ofList,
    String.toList_ofList, ← lower, respells.same, lower]

theorem Respells.symm {name other : List Char} (respells : Respells name other)
    : Respells other name :=
  ⟨respells.otherIsName, respells.isName, respells.same.symm⟩

namespace SpelledAlike

variable {text other : List Char}

/-- A character that begins no name stands in both texts. -/
theorem of_cons {c : Char} (alike : SpelledAlike (c :: text) other)
    (outside : beginsName c = false)
    : ∃ back, other = c :: back ∧ SpelledAlike text back := by
  generalize whole : c :: text = front at alike
  cases alike with
  | nil => cases whole
  | character _ rest =>
      obtain ⟨rfl, rfl⟩ := List.cons.inj whole
      exact ⟨_, rfl, rest⟩
  | name respells _ _ =>
      cases respells.isName with
      | intro begins _ =>
          obtain ⟨rfl, _⟩ := List.cons.inj whole
          rw [begins] at outside
          cases outside

theorem eq_nil (alike : SpelledAlike [] other) : other = [] := by
  generalize empty : [] = front at alike
  cases alike with
  | nil => rfl
  | character _ _ => cases empty
  | name respells _ _ =>
      cases respells.isName
      cases empty

theorem of_visible {c : Char} (alike : SpelledAlike (c :: text) other)
    (visible : isBlank c = false)
    : ∃ d back, other = d :: back ∧ isBlank d = false := by
  generalize whole : c :: text = front at alike
  cases alike with
  | nil => cases whole
  | @character d _ _ _ _ =>
      obtain ⟨rfl, _⟩ := List.cons.inj whole
      exact ⟨c, _, rfl, visible⟩
  | name respells _ _ =>
      cases respells.otherIsName with
      | intro begins _ =>
          exact ⟨_, _, rfl, isBlank_eq_false_of_beginsName begins⟩

theorem of_append {front : List Char} (alike : SpelledAlike (front ++ text) other)
    (outside : ∀ c ∈ front, beginsName c = false)
    : ∃ back, other = front ++ back ∧ SpelledAlike text back := by
  induction front generalizing other with
  | nil => exact ⟨other, rfl, alike⟩
  | cons c front ih =>
      obtain ⟨first, others⟩ := List.forall_mem_cons.mp outside
      obtain ⟨tail, rfl, rest⟩ := alike.of_cons first
      obtain ⟨back, rfl, after⟩ := ih rest others
      exact ⟨back, rfl, after⟩

theorem endsName (alike : SpelledAlike text other) (ends : EndsName text) : EndsName other := by
  cases alike with
  | nil => exact ends
  | character _ _ => exact ends
  | name respells _ _ =>
      cases respells.isName with
      | intro begins _ =>
          have clash := ends _ rfl
          rw [continuesName_of_beginsName begins] at clash
          cases clash

/-- Every text is a sequence of names and other characters. -/
theorem refl (text : List Char) : SpelledAlike text text := by
  induction length : text.length using Nat.strongRecOn generalizing text with
  | ind bound ih =>
      cases text with
      | nil => exact .nil
      | cons c rest =>
          rw [List.length_cons] at length
          cases begins : beginsName c with
          | false => exact .character begins (ih rest.length (by omega) rest rfl)
          | true =>
              have isName := isName_takeWhile begins rest
              have ends : EndsName (rest.dropWhile continuesName) := by
                intro d head
                have stops := List.head?_dropWhile_not continuesName rest
                rwa [Option.mem_def.mp head] at stops
              have shorter := (List.dropWhile_suffix continuesName (l := rest)).length_le
              have whole := name ⟨isName, isName, rfl⟩ ends (ih _ (by omega) _ rfl)
              rwa [List.cons_append, List.takeWhile_append_dropWhile] at whole

theorem symm (alike : SpelledAlike text other) : SpelledAlike other text := by
  induction alike with
  | nil => exact .nil
  | character outside _ ih => exact .character outside ih
  | name respells ends rest ih => exact .name respells.symm (rest.endsName ends) ih

/-- Texts that are spelled alike begin with the same white space, and are spelled alike after
it.
-/
theorem blanks (alike : SpelledAlike text other)
    : other.takeWhile isBlank = text.takeWhile isBlank
      ∧ SpelledAlike (trimStart text) (trimStart other) := by
  simp only [trimStart]
  induction alike with
  | nil => exact ⟨rfl, .nil⟩
  | @character c _ _ outside rest ih =>
      obtain ⟨front, back⟩ := ih
      cases blank : isBlank c with
      | true =>
          rw [List.takeWhile_cons_of_pos blank, List.takeWhile_cons_of_pos blank,
            List.dropWhile_cons_of_pos blank, List.dropWhile_cons_of_pos blank, front]
          exact ⟨rfl, back⟩
      | false =>
          have stop : ¬ isBlank c = true := Bool.eq_false_iff.mp blank
          rw [List.takeWhile_cons_of_neg stop, List.takeWhile_cons_of_neg stop,
            List.dropWhile_cons_of_neg stop, List.dropWhile_cons_of_neg stop]
          exact ⟨rfl, .character outside rest⟩
  | name respells ends rest _ =>
      -- No name begins with white space.
      have whole := SpelledAlike.name respells ends rest
      obtain ⟨⟨begins, _⟩, ⟨otherBegins, _⟩, _⟩ := respells
      have stop := Bool.eq_false_iff.mp (isBlank_eq_false_of_beginsName begins)
      have otherStop := Bool.eq_false_iff.mp (isBlank_eq_false_of_beginsName otherBegins)
      rw [List.cons_append, List.cons_append] at whole ⊢
      rw [List.takeWhile_cons_of_neg stop, List.takeWhile_cons_of_neg otherStop,
        List.dropWhile_cons_of_neg stop, List.dropWhile_cons_of_neg otherStop]
      exact ⟨rfl, whole⟩

theorem head?_eq_some {c : Char} (alike : SpelledAlike text other)
    (outside : beginsName c = false) (head : text.head? = some c)
    : other.head? = some c := by
  obtain ⟨rest, rfl⟩ := List.head?_eq_some_iff.mp head
  obtain ⟨back, rfl, _⟩ := alike.of_cons outside
  rfl

theorem callFollows (alike : SpelledAlike text other)
    : callFollows other = callFollows text := by
  obtain ⟨-, trimmed⟩ := alike.blanks
  rw [Lexeme.callFollows, Lexeme.callFollows, Bool.eq_iff_iff, beq_iff_eq, beq_iff_eq]
  exact ⟨trimmed.symm.head?_eq_some (by decide), trimmed.head?_eq_some (by decide)⟩

end SpelledAlike

-----------------------------------------------------------------------------------------
-- Lexemes
-----------------------------------------------------------------------------------------

namespace Lexeme

/-- No name begins within a lexeme that is not one itself. -/
theorem beginsName_eq_false_of_mem_more {c : Char} (outside : beginsName c = false)
    (options : TokenizerOptions) (offset : Nat) (rest : List Char)
    : ∀ d ∈ (next options offset c rest).more, beginsName d = false := by
  rw [next]
  split
  · rename_i digit
    have number := isNumber_numberTail options.decimalSeparators digit rest
    exact fun d member =>
      (not_begins_of_inNumbers (inNumbers_of_isNumber number d (List.mem_cons_of_mem _ member))).2
  · rw [if_neg (Bool.eq_false_iff.mp outside)]
    intro d member
    cases member

/-- A lexeme that is no name is found in both texts. -/
theorem next_alike_of_outside {c : Char} {text other : List Char}
    (alike : SpelledAlike text other) (outside : beginsName c = false)
    (options : TokenizerOptions) (offset place : Nat)
    : next options place c other = { next options offset c text with offset := place }
      ∧ SpelledAlike (text.drop (next options offset c text).more.length)
          (other.drop (next options offset c text).more.length) := by
  have longest := next_longest options offset c text
  have otherLongest := next_longest options place c other
  have inside := beginsName_eq_false_of_mem_more outside options offset text
  have otherInside := beginsName_eq_false_of_mem_more outside options place other
  have kind := next_eq_kindOf options offset c text
  have otherKind := next_eq_kindOf options place c other
  obtain ⟨rest, divided⟩ := next_more_begins options offset c text
  obtain ⟨back, otherDivided⟩ := next_more_begins options place c other
  simp only [span, next_first] at longest otherLongest
  generalize (next options offset c text).more = more at *
  generalize (next options place c other).more = otherMore at *
  subst divided otherDivided
  obtain ⟨tail, within, rests⟩ := alike.of_append inside
  obtain ⟨otherTail, otherWithin, _⟩ := alike.symm.of_append otherInside
  rw [List.drop_left] at longest otherLongest
  -- Each of the two could have been read in place of the other.
  obtain ⟨-, rfl⟩ : c = c ∧ otherMore = more := by
    refine List.cons.inj (longest.eq_of_begins otherLongest ?_ ?_)
    · rw [List.cons_append, within]
      exact List.prefix_append (c :: more) tail
    · rw [List.cons_append, otherWithin]
      exact List.prefix_append (c :: otherMore) otherTail
  rw [List.append_cancel_left_eq] at within
  subst within
  rw [List.drop_left, List.drop_left]
  refine ⟨?_, rests⟩
  rw [otherKind, kind]
  simp only [kindOf, outside, Bool.false_eq_true, if_false]

theorem kind_next_ne_operator {c : Char} (begins : beginsName c = true)
    (options : TokenizerOptions) (offset : Nat) (rest : List Char)
    : (next options offset c rest).kind ≠ .operator := by
  rw [next_of_beginsName begins, nameKind]
  split
  · simp
  · split <;> simp

/-- A name is read up to where it ends. -/
theorem next_name {c : Char} {more text : List Char} (begins : beginsName c = true)
    (continues : ∀ d ∈ more, continuesName d = true) (ends : EndsName text)
    (options : TokenizerOptions) (offset : Nat)
    : next options offset c (more ++ text)
        = ⟨nameKind (c :: more) text, offset, c, more⟩ := by
  have stops : text.takeWhile continuesName = [] ∧ text.dropWhile continuesName = text := by
    cases text with
    | nil => exact ⟨rfl, rfl⟩
    | cons d rest =>
        have stop : ¬ continuesName d = true := Bool.eq_false_iff.mp (ends d rfl)
        exact ⟨List.takeWhile_cons_of_neg stop, List.dropWhile_cons_of_neg stop⟩
  rw [next_of_beginsName begins, List.takeWhile_append_of_pos continues,
    List.dropWhile_append_of_pos continues, stops.1, stops.2, List.append_nil]

/-- The next lexemes of texts that are spelled alike say the same, and what comes after them is
spelled alike again. Operators stand for themselves.
-/
theorem next_alike {c d : Char} {text other : List Char}
    (alike : SpelledAlike (c :: text) (d :: other)) (options : TokenizerOptions)
    (offset place : Nat)
    : (next options place d other).kind = (next options offset c text).kind
      ∧ (next options place d other).text = (next options offset c text).text
      ∧ ((next options offset c text).kind = .operator
        → (next options place d other).span = (next options offset c text).span)
      ∧ SpelledAlike (text.drop (next options offset c text).more.length)
          (other.drop (next options place d other).more.length) := by
  cases begins : beginsName c with
  | false =>
      obtain ⟨back, whole, rest⟩ := alike.of_cons begins
      obtain ⟨rfl, rfl⟩ := List.cons.inj whole
      obtain ⟨same, after⟩ := next_alike_of_outside rest begins options offset place
      rw [same]
      exact ⟨rfl, rfl, fun _ => rfl, after⟩
  | true =>
      have noOperator := kind_next_ne_operator begins options offset text
      generalize whole : c :: text = front, otherWhole : d :: other = back at alike
      cases alike with
      | nil => cases whole
      | character outside _ =>
          obtain ⟨rfl, _⟩ := List.cons.inj whole
          rw [begins] at outside
          cases outside
      | @name name otherName text back respells ends rest =>
          have canonical := respells.canonicalName
          obtain ⟨⟨begins, continues⟩, ⟨otherBegins, otherContinues⟩, _⟩ := respells
          rw [List.cons_append] at whole otherWhole
          obtain ⟨rfl, rfl⟩ := List.cons.inj whole
          obtain ⟨rfl, rfl⟩ := List.cons.inj otherWhole
          rw [next_name begins continues ends] at noOperator ⊢
          rw [next_name otherBegins otherContinues (rest.endsName ends), List.drop_left,
            List.drop_left, text_name, text_name]
          refine ⟨?_, ?_, fun operator => absurd operator noOperator, rest⟩
          · simp only [nameKind, canonical, rest.callFollows]
          · simp only [← isEmpty_canonicalName, canonical]

/-- The first lexeme of a text begins after white space. -/
theorem offset_of_mem_head? {options : TokenizerOptions} {offset : Nat} {text : List Char}
    {lexeme : Lexeme} (member : lexeme ∈ (ofText options offset text).head?)
    : lexeme.offset = offset + byteLength (text.takeWhile isBlank) := by
  induction text generalizing offset with
  | nil =>
      rw [ofText] at member
      cases member
  | cons c rest ih =>
      cases blank : isBlank c with
      | true =>
          rw [ofText_blank options offset blank] at member
          rw [ih member, List.takeWhile_cons_of_pos blank, byteLength, Nat.add_assoc]
      | false =>
          rw [ofText_visible options offset blank, List.head?_cons, Option.mem_some_iff] at member
          rw [List.takeWhile_cons_of_neg (by simp [blank]), ← member, next_offset]
          rfl

end Lexeme

-----------------------------------------------------------------------------------------
-- Tokens
-----------------------------------------------------------------------------------------

/-- Lists of tokens that say the same, and whose operators adjoin the tokens after them alike. -/
inductive Token.Alike : List Token → List Token → Prop
  | nil : Alike [] []
  | cons {token other rest others} (kind : other.kind = token.kind)
    (text : other.text = token.text)
    (adjoins : token.kind = .operator → ∀ next ∈ rest.head?, ∀ otherNext ∈ others.head?,
      other.adjoins otherNext = token.adjoins next)
    (alike : Alike rest others)
    : Alike (token :: rest) (other :: others)

/-- The tokens of texts that are spelled alike are alike, wherever the texts begin. -/
theorem Lexeme.alike_ofText (options : TokenizerOptions) (offset place : Nat)
    {text other : List Char} (alike : SpelledAlike text other)
    : Token.Alike ((ofText options offset text).map token)
        ((ofText options place other).map token) := by
  induction length : text.length using Nat.strongRecOn generalizing offset place text other with
  | ind bound ih =>
      cases text with
      | nil =>
          rw [alike.eq_nil, ofText, ofText]
          exact .nil
      | cons c rest =>
          rw [List.length_cons] at length
          cases blank : isBlank c with
          | true =>
              obtain ⟨back, rfl, after⟩ := alike.of_cons (beginsName_eq_false_of_isBlank blank)
              rw [ofText_blank options offset blank, ofText_blank options place blank]
              exact ih rest.length (by omega) _ _ after rfl
          | false =>
              obtain ⟨d, back, rfl, otherVisible⟩ := alike.of_visible blank
              obtain ⟨kind, text, spans, after⟩ := next_alike alike options offset place
              rw [ofText_visible options offset blank, ofText_visible options place otherVisible,
                List.map_cons, List.map_cons]
              refine .cons kind text ?_ (ih _ ?_ _ _ after rfl)
              · -- An operator takes as much of either text, with the same white space after it.
                intro operator next nextMember otherNext otherMember
                rw [List.head?_map] at nextMember otherMember
                obtain ⟨lexeme, member, rfl⟩ := Option.mem_map.mp nextMember
                obtain ⟨otherLexeme, inOther, rfl⟩ := Option.mem_map.mp otherMember
                have nextOffset := offset_of_mem_head? member
                have otherOffset := offset_of_mem_head? inOther
                rw [after.blanks.1, spans operator] at otherOffset
                rw [Bool.eq_iff_iff]
                simp only [Token.adjoins, beq_iff_eq, token, text, next_offset, nextOffset,
                  otherOffset]
                omega
              · rw [List.length_drop]
                omega

/-- The tokens of formulas that are spelled alike are alike, under all options. -/
theorem alike_tokenize {formula other : String}
    (alike : SpelledAlike formula.toList other.toList) (options : TokenizerOptions)
    : Token.Alike (tokenize formula options) (tokenize other options) := by
  rw [tokenize, tokenize, ← String.ofList_toList (s := formula),
    ← String.ofList_toList (s := other)]
  generalize formula.toList = text, other.toList = back at alike
  by_cases lead : text.head? = some '='
  · obtain ⟨rest, rfl⟩ := List.head?_eq_some_iff.mp lead
    obtain ⟨back, rfl, after⟩ := alike.of_cons (by decide)
    rw [ofFormula_lead, ofFormula_lead]
    exact alike_ofText options _ _ after
  · have plain : back.head? ≠ some '=' := mt (alike.symm.head?_eq_some (by decide)) lead
    rw [ofFormula_plain options lead, ofFormula_plain options plain]
    exact alike_ofText options 0 0 alike

namespace Token.Alike

variable {tokens others : List Token}

theorem sameContent (alike : Alike tokens others)
    : List.Forall₂ (fun token other => token.sameContent other = true) tokens others := by
  induction alike with
  | nil => exact .nil
  | cons kind text _ _ ih => exact .cons (by simp [Token.sameContent, kind, text]) ih

theorem references (alike : Alike tokens others)
    : Token.references others = Token.references tokens := by
  induction alike with
  | nil => rfl
  | cons kind text _ _ ih =>
      rw [Token.references, Token.references] at ih ⊢
      rw [List.filter_cons, List.filter_cons, kind]
      split
      · rw [List.map_cons, List.map_cons, text, ih]
      · exact ih

theorem isEmpty (alike : Alike tokens others) : others.isEmpty = tokens.isEmpty := by
  cases alike <;> rfl

/-- The first token with no meaning is the same. -/
theorem firstUnknown? (alike : Alike tokens others)
    : Token.firstUnknown? others = Token.firstUnknown? tokens := by
  induction alike with
  | nil => rfl
  | cons kind text _ _ ih =>
      rw [Token.firstUnknown?, Token.firstUnknown?] at ih ⊢
      rw [List.find?_cons, List.find?_cons, kind]
      split
      · rw [Option.bind_some, Option.bind_some, text]
      · exact ih

end Token.Alike

/-- The names in formulas that are spelled alike are the same. -/
theorem detectReferences_respelled {formula other : String}
    (alike : SpelledAlike formula.toList other.toList) (options : TokenizerOptions)
    : detectReferences other options = detectReferences formula options := by
  rw [detectReferences, detectReferences, (alike_tokenize alike options).references]

end FormulaLatex
