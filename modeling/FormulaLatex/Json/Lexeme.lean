/-! The lexemes of JSON text: punctuation, literal names, numbers and strings. A text is a
sequence of lexemes with space between them. Every lexeme takes up some of the text, which is
why reading them one after another comes to an end.
-/

namespace FormulaLatex.Json

/-- A lexeme of JSON text. A string has no text when half of an escaped surrogate pair stands
in it by itself.
-/
inductive Lexeme
  | beginArray
  | endArray
  | beginObject
  | endObject
  | colon
  | comma
  | null
  | bool (value : Bool)
  | natural (value : Nat)
  | number (text : String)
  | string (text? : Option String)
  deriving DecidableEq, Repr

-----------------------------------------------------------------------------------------
-- Strings
-----------------------------------------------------------------------------------------

/-- A piece of a string: a character, or a code unit that is written as an escape with four
hexadecimal digits.
-/
inductive StringPiece
  | char (c : Char)
  | unit (code : Nat)
  deriving DecidableEq, Repr

/-- The value of a hexadecimal digit. -/
def hexDigit? (c : Char) : Option Nat :=
  if '0' ≤ c ∧ c ≤ '9' then some (c.toNat - '0'.toNat)
  else if 'a' ≤ c ∧ c ≤ 'f' then some (c.toNat - 'a'.toNat + 10)
  else if 'A' ≤ c ∧ c ≤ 'F' then some (c.toNat - 'A'.toNat + 10)
  else none

/-- The value of four hexadecimal digits. -/
def hexCode? (a b c d : Char) : Option Nat := do
  return (((← hexDigit? a) * 16 + (← hexDigit? b)) * 16 + (← hexDigit? c)) * 16 +
    (← hexDigit? d)

/-- The character that a backslash and one letter write. -/
def shortEscape? : Char → Option Char
  | '"' => some '"'
  | '\\' => some '\\'
  | '/' => some '/'
  | 'b' => some '\x08'
  | 'f' => some '\x0c'
  | 'n' => some '\n'
  | 'r' => some '\r'
  | 't' => some '\t'
  | _ => none

/-- The pieces of a string and the text after it, given the text after the opening quote.
Control characters must be escaped.
-/
def stringPieces? : List Char → Option (List StringPiece × List Char)
  | [] => none
  | '"' :: rest => some ([], rest)
  | '\\' :: 'u' :: a :: b :: c :: d :: rest => do
      let code ← hexCode? a b c d
      let (pieces, rest) ← stringPieces? rest
      return (.unit code :: pieces, rest)
  | '\\' :: escape :: rest => do
      let c ← shortEscape? escape
      let (pieces, rest) ← stringPieces? rest
      return (.char c :: pieces, rest)
  | c :: rest =>
      if c = '\\' ∨ c.toNat < 0x20 then none
      else do
        let (pieces, rest) ← stringPieces? rest
        return (.char c :: pieces, rest)

/-- Whether a code unit is the first half of a surrogate pair. -/
def isHighSurrogate (code : Nat) : Bool :=
  0xD800 ≤ code && code < 0xDC00

/-- Whether a code unit is the second half of a surrogate pair. -/
def isLowSurrogate (code : Nat) : Bool :=
  0xDC00 ≤ code && code < 0xE000

/-- The characters that the pieces of a string write, unless half of a surrogate pair stands
by itself.
-/
def joinPieces? : List StringPiece → Option (List Char)
  | [] => some []
  | .char c :: rest => (joinPieces? rest).map (c :: ·)
  | .unit high :: .unit low :: rest =>
      if isHighSurrogate high then
        if isLowSurrogate low then
          (joinPieces? rest).map
            (Char.ofNat (0x10000 + (high - 0xD800) * 0x400 + (low - 0xDC00)) :: ·)
        else none
      else if isLowSurrogate high then none
      else (joinPieces? (.unit low :: rest)).map (Char.ofNat high :: ·)
  | .unit code :: rest =>
      if isHighSurrogate code || isLowSurrogate code then none
      else (joinPieces? rest).map (Char.ofNat code :: ·)

/-- The lexeme of a string and the text after it, given the text after the opening quote. -/
def stringLexeme? (text : List Char) : Option (Lexeme × List Char) := do
  let (pieces, rest) ← stringPieces? text
  return (.string ((joinPieces? pieces).map String.ofList), rest)

-----------------------------------------------------------------------------------------
-- Numbers
-----------------------------------------------------------------------------------------

/-- The whole part at the beginning of a text: a zero, or digits that do not begin with one. -/
def wholePart (text : List Char) : List Char :=
  match text with
  | '0' :: _ => ['0']
  | _ => text.takeWhile Char.isDigit

/-- The fraction at the beginning of a text: a point and digits, or nothing. -/
def fractionPart (text : List Char) : List Char :=
  match text with
  | '.' :: digit :: rest =>
      if digit.isDigit then '.' :: digit :: rest.takeWhile Char.isDigit else []
  | _ => []

/-- The exponent at the beginning of a text: the letter E of either case, a sign if there is
one, and digits; or nothing.
-/
def exponentPart (text : List Char) : List Char :=
  match text with
  | mark :: sign :: digit :: rest =>
      if mark = 'e' ∨ mark = 'E' then
        if sign.isDigit then mark :: sign :: (digit :: rest).takeWhile Char.isDigit
        else if (sign = '+' ∨ sign = '-') ∧ digit.isDigit then
          mark :: sign :: digit :: rest.takeWhile Char.isDigit
        else []
      else []
  | [mark, digit] => if (mark = 'e' ∨ mark = 'E') ∧ digit.isDigit then [mark, digit] else []
  | _ => []

/-- The lexeme of a number at the beginning of a text, and the text after it. -/
def numberLexeme? (text : List Char) : Option (Lexeme × List Char) :=
  let sign := text.takeWhile fun c => c == '-'
  let unsigned := text.drop sign.length
  let whole := wholePart unsigned
  let afterWhole := unsigned.drop whole.length
  let fraction := fractionPart afterWhole
  let afterFraction := afterWhole.drop fraction.length
  let exponent := exponentPart afterFraction
  let rest := afterFraction.drop exponent.length
  if whole.isEmpty ∨ 1 < sign.length then none
  else if sign.isEmpty ∧ fraction.isEmpty ∧ exponent.isEmpty then
    some (.natural (Nat.ofDigitChars 10 whole 0), rest)
  else some (.number (String.ofList (sign ++ whole ++ fraction ++ exponent)), rest)

-----------------------------------------------------------------------------------------
-- Lexemes
-----------------------------------------------------------------------------------------

/-- Whether a character may stand between lexemes. -/
def isSpace (c : Char) : Bool :=
  c == ' ' || c == '\t' || c == '\n' || c == '\r'

/-- The lexeme at the beginning of a text, and the text after it. -/
def lexeme? : List Char → Option (Lexeme × List Char)
  | '[' :: rest => some (.beginArray, rest)
  | ']' :: rest => some (.endArray, rest)
  | '\x7b' :: rest => some (.beginObject, rest)
  | '\x7d' :: rest => some (.endObject, rest)
  | ':' :: rest => some (.colon, rest)
  | ',' :: rest => some (.comma, rest)
  | 'n' :: 'u' :: 'l' :: 'l' :: rest => some (.null, rest)
  | 't' :: 'r' :: 'u' :: 'e' :: rest => some (.bool true, rest)
  | 'f' :: 'a' :: 'l' :: 's' :: 'e' :: rest => some (.bool false, rest)
  | '"' :: rest => stringLexeme? rest
  | text => numberLexeme? text

-----------------------------------------------------------------------------------------
-- Texts
-----------------------------------------------------------------------------------------

/-- A string ends after where it begins. -/
theorem stringPieces?_length {text pieces rest}
    (h : stringPieces? text = some (pieces, rest))
    : rest.length < text.length := by
  fun_induction stringPieces? text generalizing pieces rest with
  | case1 => simp at h
  | case2 tail =>
      simp only [Option.some.injEq, Prod.mk.injEq] at h
      simp [h.2]
  | case3 a b c d tail ih =>
      simp only [Option.bind_eq_bind, Option.bind_eq_some_iff] at h
      obtain ⟨_, _, ⟨_, _⟩, found, same⟩ := h
      have shorter := ih found
      simp only [Option.pure_def, Option.some.injEq, Prod.mk.injEq] at same
      simp only [← same.2, List.length_cons]
      omega
  | case4 escape tail _ ih =>
      simp only [Option.bind_eq_bind, Option.bind_eq_some_iff] at h
      obtain ⟨_, _, ⟨_, _⟩, found, same⟩ := h
      have shorter := ih found
      simp only [Option.pure_def, Option.some.injEq, Prod.mk.injEq] at same
      simp only [← same.2, List.length_cons]
      omega
  | case5 => simp at h
  | case6 c tail _ _ _ _ ih =>
      simp only [Option.bind_eq_bind, Option.bind_eq_some_iff] at h
      obtain ⟨⟨_, _⟩, found, same⟩ := h
      have shorter := ih found
      simp only [Option.pure_def, Option.some.injEq, Prod.mk.injEq] at same
      simp only [← same.2, List.length_cons]
      omega

/-- A number has at least one digit. -/
theorem numberLexeme?_length {text lexeme rest}
    (h : numberLexeme? text = some (lexeme, rest))
    : rest.length < text.length := by
  have rest_eq : rest.length ≤ text.length - (wholePart (text.drop
      (text.takeWhile fun c => c == '-').length)).length
      ∧ wholePart (text.drop (text.takeWhile fun c => c == '-').length) ≠ [] := by
    simp only [numberLexeme?, List.isEmpty_iff] at h
    split at h
    · simp at h
    · rename_i digits
      refine ⟨?_, fun empty => digits (Or.inl empty)⟩
      split at h <;>
        · simp only [Option.some.injEq, Prod.mk.injEq] at h
          simp only [← h.2, List.length_drop]
          omega
  cases text with
  | nil => simp [wholePart] at rest_eq
  | cons c tail =>
      have positive := List.length_pos_iff.mpr rest_eq.2
      simp only [List.length_cons] at rest_eq ⊢
      omega

/-- A lexeme has at least one character. -/
theorem lexeme?_length {text lexeme rest} (h : lexeme? text = some (lexeme, rest))
    : rest.length < text.length := by
  unfold lexeme? at h
  split at h
  case h_10 tail =>
    simp only [stringLexeme?, Option.bind_eq_bind, Option.bind_eq_some_iff] at h
    obtain ⟨⟨_, _⟩, found, same⟩ := h
    have shorter := stringPieces?_length found
    simp only [Option.pure_def, Option.some.injEq, Prod.mk.injEq] at same
    simp only [← same.2, List.length_cons]
    omega
  case h_11 => exact numberLexeme?_length h
  all_goals
    simp only [Option.some.injEq, Prod.mk.injEq] at h
    simp only [← h.2, List.length_cons]
    omega

/-- The lexemes of a text, if it consists of lexemes with space around them. -/
def lexemes? (text : List Char) : Option (List Lexeme) :=
  match text with
  | [] => some []
  | c :: tail =>
      if isSpace c then lexemes? tail
      else
        match _found : lexeme? (c :: tail) with
        | none => none
        | some (lexeme, rest) => (lexemes? rest).map (lexeme :: ·)
termination_by text.length
decreasing_by
  · simp
  · exact lexeme?_length _found

end FormulaLatex.Json
