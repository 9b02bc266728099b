import Mathlib.Data.List.TakeWhile
import FormulaLatex.Proofs.Expr.Spacing
import FormulaLatex.Proofs.Token.Unknown

/-! White space around a formula. It makes no difference to a conversion, unless it comes before an
equals sign in a precise one: then the sign does not begin the formula any more, but writes a
comparison without its left side.
-/

namespace FormulaLatex

open Text Lexeme

-----------------------------------------------------------------------------------------
-- Typesetting in place
-----------------------------------------------------------------------------------------

theorem trimEnd_append {after : List Char} (blank : ∀ c ∈ after, isBlank c = true)
    (text : List Char)
    : trimEnd (text ++ after) = trimEnd text := by
  have reversed : ∀ c ∈ after.reverse, isBlank c = true :=
    fun c member => blank c (List.mem_reverse.mp member)
  rw [trimEnd, List.reverse_append, List.dropWhile_append_of_pos reversed, ← trimEnd]

/-- Trimming takes away any white space around a text. -/
theorem trim_surrounded {before after : List Char} (blankBefore : ∀ c ∈ before, isBlank c = true)
    (blankAfter : ∀ c ∈ after, isBlank c = true) (text : List Char)
    : trim (before ++ text ++ after) = trim text := by
  have leading : trimStart (before ++ text ++ after) = trimStart (text ++ after) := by
    rw [List.append_assoc]
    exact List.dropWhile_append_of_pos blankBefore
  rw [trim, leading, trim]
  cases kept : trimStart text with
  | nil =>
      have whole : trimStart (text ++ after) = trimStart after := by
        rw [trimStart, List.dropWhile_append, show text.dropWhile isBlank = [] from kept]
        rfl
      rw [whole, trimStart, List.dropWhile_eq_nil_iff.mpr blankAfter]
  | cons c rest =>
      have whole : trimStart (text ++ after) = c :: rest ++ after := by
        rw [trimStart, List.dropWhile_append, show text.dropWhile isBlank = c :: rest from kept]
        rfl
      rw [whole]
      exact trimEnd_append blankAfter (c :: rest)

theorem Quick.convert_surrounded {before after : String}
    (blankBefore : ∀ c ∈ before.toList, isBlank c = true)
    (blankAfter : ∀ c ∈ after.toList, isBlank c = true) (formula : String)
    : Quick.convert (before ++ formula ++ after) = Quick.convert formula := by
  simp only [Quick.convert, Quick.formulaText, String.toList_append,
    trim_surrounded blankBefore blankAfter]

-----------------------------------------------------------------------------------------
-- Tokens
-----------------------------------------------------------------------------------------

theorem offset_lt_of_mem_tokenize {formula : String} {options : TokenizerOptions} {token : Token}
    (member : token ∈ tokenize formula options)
    : token.offset < formula.utf8ByteSize := by
  obtain ⟨lexeme, inFormula, rfl⟩ := List.mem_map.mp member
  exact (Lexeme.standsAt inFormula).lt

/-- White space at the end of a formula belongs to no token and moves none. -/
theorem tokenize_append_blank (options : TokenizerOptions) (formula : String) {after : String}
    (blank : ∀ c ∈ after.toList, isBlank c = true)
    : tokenize (formula ++ after) options = tokenize formula options := by
  have inserted : tokenize (formula ++ after ++ "") options
      = (tokenize (formula ++ "") options).map
          (Token.moveFrom formula.utf8ByteSize after.utf8ByteSize) :=
    tokenize_insert blank (Or.inl rfl)
  rw [String.append_empty, String.append_empty] at inserted
  rw [inserted]
  exact Token.map_moveFrom_of_lt _ fun token => offset_lt_of_mem_tokenize

theorem map_token_ofText_add (options : TokenizerOptions) (offset count : Nat)
    (text : List Char)
    : (ofText options (offset + count) text).map token
        = ((ofText options offset text).map token).map (Token.moveFrom 0 count) := by
  rw [ofText_move, List.map_map, List.map_map]
  refine List.map_congr_left fun lexeme _ => ?_
  rw [Function.comp_apply, Function.comp_apply, Token.moveFrom, if_pos (Nat.zero_le _)]
  rfl

theorem ofFormula_equalsSign (options : TokenizerOptions) (formula : String)
    : ofFormula options ("=" ++ formula) = ofText options 1 formula.toList := by
  simp only [ofFormula, String.toList_append]
  rfl

/-- An equals sign before a formula that has none moves its tokens. -/
theorem tokenize_equalsSign (options : TokenizerOptions) {formula : String}
    (plain : formula.toList.head? ≠ some '=')
    : tokenize ("=" ++ formula) options
        = (tokenize formula options).map (Token.moveFrom 0 1) := by
  have written : ofFormula options formula = ofText options 0 formula.toList := by
    have read := ofFormula_plain options plain
    rwa [String.ofList_toList] at read
  rw [tokenize, ofFormula_equalsSign, tokenize, written]
  exact map_token_ofText_add options 0 1 formula.toList

/-- White space before a formula moves the tokens that it has after an equals sign. -/
theorem tokenize_blank_append (options : TokenizerOptions) {before : String}
    (blank : ∀ c ∈ before.toList, isBlank c = true) (nonempty : before ≠ "") (formula : String)
    : tokenize (before ++ formula) options
        = (tokenize ("=" ++ formula) options).map
            (Token.moveFrom 0 (before.utf8ByteSize - 1)) := by
  have wide : 0 < before.utf8ByteSize :=
    Nat.pos_of_ne_zero (mt String.utf8ByteSize_eq_zero_iff.mp nonempty)
  have plain : (before.toList ++ formula.toList).head? ≠ some '=' := by
    obtain ⟨c, rest, begins⟩ := List.exists_cons_of_ne_nil (mt String.toList_eq_nil_iff.mp nonempty)
    rw [begins] at blank ⊢
    rintro ⟨rfl⟩
    have clash := blank '=' List.mem_cons_self
    cases clash
  have read := ofFormula_plain options plain
  rw [← String.toList_append, String.ofList_toList, String.toList_append,
    ofText_blanks options 0 blank, byteLength_toList,
    show 0 + before.utf8ByteSize = 1 + (before.utf8ByteSize - 1) by omega] at read
  rw [tokenize, read, map_token_ofText_add, tokenize, ofFormula_equalsSign]

/-- Of two equals signs in a row the second is a token. -/
theorem tokenize_leadingEqualsSign (options : TokenizerOptions) {formula : String}
    (lead : formula.toList.head? = some '=')
    : ∃ first tokens,
        tokenize ("=" ++ formula) options = first :: tokens
        ∧ first.text = "="
        ∧ (first.kind = .operator ∨ first.kind = .unknown) := by
  obtain ⟨rest, begins⟩ := List.head?_eq_some_iff.mp lead
  have sign : next options 1 '=' rest = ⟨characterKind options.comparisons '=', 1, '=', []⟩ := by
    rw [next, if_neg (by decide), if_neg (by decide)]
  rw [tokenize, ofFormula_equalsSign, begins, ofText_visible _ _ (by decide), List.map_cons, sign]
  refine ⟨_, _, rfl, ?_⟩
  cases options.comparisons with
  | true => exact ⟨rfl, Or.inl rfl⟩
  | false => exact ⟨rfl, Or.inr rfl⟩

-----------------------------------------------------------------------------------------
-- Conversions
-----------------------------------------------------------------------------------------

/-- Nothing can be read that begins with a comparison. -/
theorem Expr.ofTokens_ne_ok_of_comparison {token : Token} {rest : List Token}
    (known : ∀ other ∈ token :: rest, other.kind ≠ .unknown) (kind : token.kind = .operator)
    (text : token.text ∈ ["=", "<", ">"]) (options : ReaderOptions) (e : Expr)
    : ofTokens (token :: rest) options ≠ .ok e := by
  obtain ⟨op, back, comparison, begins⟩ := Terminal.fuseAll_comparison kind text rest
  have fresh : ∀ operand, ({} : Reading).phase ≠ .continuation operand := by
    rintro operand ⟨⟩
  obtain ⟨error, refused⟩ := Reading.step_refuses options fresh token.text
  rw [ofTokens_of_known known, begins, ofTerminals, List.foldlM_cons, refused op comparison]
  rintro ⟨⟩

section Precise

variable {options : ConvertOptions} (precise : options.mode = .precise) (renames : RenameTable)
include precise

/-- How far ahead the tokens of a formula stand makes no difference to its conversion. -/
theorem tryConvert_eq_of_moved {formula other : String} {count : Nat}
    (moved : tokenize other options.tokenizer
      = (tokenize formula options.tokenizer).map (Token.moveFrom 0 count))
    : tryConvert other renames options = tryConvert formula renames options := by
  rw [tryConvert_of_precise precise, tryConvert_of_precise precise, moved, List.isEmpty_map,
    Expr.ofKnownTokens, Expr.ofKnownTokens, Token.firstUnknown?_map_moveFrom]
  cases found : Token.firstUnknown? (tokenize formula options.tokenizer) with
  | some c => rfl
  | none =>
      have known := Token.kind_ne_unknown found
      rw [Expr.ofTokens_of_known (Expr.known_moved known), Expr.ofTokens_of_known known,
        Terminal.fuseAll_map_moveFrom count fun _ _ => Nat.zero_le _]

/-- After an equals sign no formula that begins with another one can be converted. -/
theorem tryConvert_equalsSign_ne_ok {formula : String}
    (lead : formula.toList.head? = some '=') (latex : String)
    : tryConvert ("=" ++ formula) renames options ≠ .ok latex := by
  obtain ⟨first, tokens, divided, text, kind⟩ := tokenize_leadingEqualsSign options.tokenizer lead
  rw [tryConvert_of_precise precise, Expr.ofKnownTokens]
  cases found : Token.firstUnknown? (tokenize ("=" ++ formula) options.tokenizer) with
  | some c =>
      rw [divided]
      rintro ⟨⟩
  | none =>
      have known := Token.kind_ne_unknown found
      rw [divided] at known ⊢
      have operator := kind.resolve_right (known first List.mem_cons_self)
      have refused := Expr.ofTokens_ne_ok_of_comparison known operator (by simp [text])
        options.reader
      cases read : Expr.ofTokens (first :: tokens) options.reader with
      | ok e => exact absurd read (refused e)
      | error cause => rintro ⟨⟩

end Precise

/-- White space around a formula makes no difference to a quick conversion, nor to a precise one as
long as it does not come before an equals sign that the formula begins with. There it takes the
place of the sign: the formula is converted as it is after another equals sign, and the conversion
fails, whatever notation the formula has by itself.
-/
theorem tryConvert_surrounded {before after : String}
    (blankBefore : ∀ c ∈ before.toList, isBlank c = true)
    (blankAfter : ∀ c ∈ after.toList, isBlank c = true)
    (formula : String) (renames : RenameTable) (options : ConvertOptions)
    : (options.mode = .quick ∨ before = "" ∨ formula.toList.head? ≠ some '=' →
        tryConvert (before ++ formula ++ after) renames options
          = tryConvert formula renames options)
      ∧ (options.mode = .precise → before ≠ "" → formula.toList.head? = some '=' →
        tryConvert (before ++ formula ++ after) renames options
            = tryConvert ("=" ++ formula) renames options
          ∧ ∀ latex, tryConvert (before ++ formula ++ after) renames options ≠ .ok latex) := by
  cases mode : options.mode with
  | quick =>
      refine ⟨fun _ => ?_, by rintro ⟨⟩⟩
      simp only [tryConvert, mode, Quick.convert_surrounded blankBefore blankAfter]
  | precise =>
      have trailing : tryConvert (before ++ formula ++ after) renames options
          = tryConvert (before ++ formula) renames options := by
        simp only [tryConvert_of_precise mode, tokenize_append_blank _ _ blankAfter]
      rw [trailing]
      by_cases nonempty : before = ""
      · subst nonempty
        rw [String.empty_append]
        exact ⟨fun _ => rfl, fun _ present => absurd rfl present⟩
      · have afterSign : tryConvert (before ++ formula) renames options
            = tryConvert ("=" ++ formula) renames options :=
          tryConvert_eq_of_moved mode renames
            (tokenize_blank_append options.tokenizer blankBefore nonempty formula)
        rw [afterSign]
        refine ⟨fun free => ?_, fun _ _ lead => ⟨rfl, ?_⟩⟩
        · have plain := (free.resolve_left (by decide)).resolve_left nonempty
          exact tryConvert_eq_of_moved mode renames (tokenize_equalsSign options.tokenizer plain)
        · exact tryConvert_equalsSign_ne_ok mode renames lead

theorem isBlank_space : ∀ c ∈ " ".toList, isBlank c = true := by
  intro c member
  obtain rfl : c = ' ' := by simpa using member
  rfl

/-- A space before `A1` changes nothing, and a space before `=A1` makes it fail. -/
theorem tryConvert_surrounded_equation
    : tryConvert (" " ++ "A1" ++ " ") .empty = tryConvert "A1" .empty
      ∧ tryConvert "=A1" .empty = .ok "A1"
      ∧ ∀ latex, tryConvert (" " ++ "=A1" ++ " ") .empty ≠ .ok latex := by
  refine ⟨?_, by decide +kernel, ?_⟩
  · have plain : "A1".toList.head? ≠ some '=' := by
      decide
    exact (tryConvert_surrounded isBlank_space isBlank_space "A1" .empty {}).1
      (Or.inr (Or.inr plain))
  · exact ((tryConvert_surrounded isBlank_space isBlank_space "=A1" .empty {}).2 rfl (by decide)
      rfl).2

theorem not_tryConvert_surrounded
    : ¬ ∀ (before formula after : String) (renames : RenameTable) (options : ConvertOptions),
        (∀ c ∈ before.toList, isBlank c = true) → (∀ c ∈ after.toList, isBlank c = true) →
        tryConvert (before ++ formula ++ after) renames options
          = tryConvert formula renames options := by
  intro same
  have converted : tryConvert "=A1" .empty = .ok "A1" := by
    decide +kernel
  have refused : tryConvert (" " ++ "=A1" ++ "") .empty
      = .error (.malformed (.unexpectedToken "=")) := by
    decide +kernel
  rw [same " " "=A1" "" .empty {} isBlank_space nofun, converted] at refused
  cases refused

end FormulaLatex
