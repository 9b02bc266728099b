import FormulaLatex.Latex.Render
import FormulaLatex.Proofs.Expr.Ranked
import FormulaLatex.Proofs.Text.Classes

/-! LaTeX taken apart again. The notation of an expression is a sequence of pieces: the marks of
the notation, the names of functions, and the words between them. The pieces are found again
from left to right, and each stands for terminals.
-/

namespace FormulaLatex.Latex

open Text

/-- A mark of the notation. All but the signs come with what they enclose or separate. -/
inductive Mark
  | sign (op : BinaryOperator)
  | minus
  | numerator
  | denominator
  | base
  | exponent
  | radical
  | overline
  | close
  | bars
  | barsEnd
  | sine
  | cosine
  | tangent
  | group
  | groupEnd
  | argumentsEnd
  | comma
  | cases
  | subject
  | line
  | otherwise
  | casesEnd
  | missing
  deriving DecidableEq

/-- The sign of an operator that is written between its operands. -/
def sign : BinaryOperator → String
  | .multiply => "\\cdot"
  | .lessEqual => "\\leq"
  | .greaterEqual => "\\geq"
  | .notEqual => "\\neq"
  | op => op.symbol

namespace Mark

/-- A mark as it is written. -/
def text : Mark → String
  | .sign op => " " ++ Latex.sign op ++ " "
  | .minus => "-"
  | .numerator => "\\frac\x7b"
  | .denominator => "\x7d\x7b"
  | .base => "\x7b"
  | .exponent => "\x7d^\x7b"
  | .radical => "\\sqrt\x7b"
  | .overline => "\\overline\x7b"
  | .close => "\x7d"
  | .bars => "\\left| "
  | .barsEnd => " \\right|"
  | .sine => "\\sin\\left("
  | .cosine => "\\cos\\left("
  | .tangent => "\\tan\\left("
  | .group => "\\left("
  | .groupEnd => "\\right)"
  | .argumentsEnd => ")"
  | .comma => ", "
  | .cases => "\\begin\x7bcases\x7d "
  | .subject => " & \\text\x7bif \x7d "
  | .line => " \\\\ "
  | .otherwise => " & \\text\x7botherwise\x7d"
  | .casesEnd => " \\end\x7bcases\x7d"
  | .missing => "?"

/-- The terminals that a mark stands for. Notation with parts of its own is read as a call, and
its parts as the arguments.
-/
def terminals : Mark → List Terminal
  | .sign op => [.ofOperator op]
  | .minus => [.ofOperator .subtract]
  | .numerator => [⟨.function, "\\FRAC"⟩, .opening]
  | .base => [⟨.function, "^"⟩, .opening]
  | .radical => [⟨.function, "\\SQRT"⟩, .opening]
  | .overline => [⟨.function, "\\OVERLINE"⟩, .opening]
  | .bars => [⟨.function, "|"⟩, .opening]
  | .sine => [⟨.function, "\\SIN"⟩, .opening]
  | .cosine => [⟨.function, "\\COS"⟩, .opening]
  | .tangent => [⟨.function, "\\TAN"⟩, .opening]
  | .cases => [⟨.function, "\\CASES"⟩, .opening]
  | .group => [.opening]
  | .denominator | .exponent | .comma | .subject | .line => [.separator]
  | .close | .barsEnd | .groupEnd | .argumentsEnd | .casesEnd => [.closing]
  | .otherwise => []
  | .missing => [⟨.reference, "?"⟩]

/-- Every mark. -/
def all : List Mark :=
  [.sign .add, .sign .subtract, .sign .multiply, .sign .divide, .sign .power, .sign .equal,
   .sign .notEqual, .sign .less, .sign .lessEqual, .sign .greater, .sign .greaterEqual,
   .minus, .numerator, .denominator, .base, .exponent, .radical, .overline, .close, .bars,
   .barsEnd, .sine, .cosine, .tangent, .group, .groupEnd, .argumentsEnd, .comma, .cases,
   .subject, .line, .otherwise, .casesEnd, .missing]

theorem mem_all (mark : Mark) : mark ∈ all := by
  cases mark with
  | sign op => cases op <;> decide
  | _ => decide

end Mark

/-- Whether a character may belong to a word: anything beyond ASCII, letters, digits, and two
other characters of names and numbers.
-/
def isPlain (c : Char) : Bool :=
  decide (IsPlainCode c.toNat) || c == '_' || c == '.'

/-- The word at the beginning of a text. A comma belongs to it if a digit follows. -/
def word : List Char → List Char
  | [] => []
  | c :: rest =>
      if isPlain c || c == ',' && rest.head?.any Char.isDigit then c :: word rest else []

theorem marks_apart
    : ∀ mark ∈ Mark.all, ∀ other ∈ Mark.all, mark.text.toList <+: other.text.toList
      → mark = other ∨ mark = .close ∧ (other = .denominator ∨ other = .exponent) := by
  decide +kernel

theorem marks_begin
    : ∀ mark ∈ Mark.all, mark.text.toList.head?.any (fun c => !isPlain c) = true
      ∧ ¬ mark.text.toList <+: "\\text\x7b".toList
      ∧ ¬ "\\text\x7b".toList <+: mark.text.toList := by
  decide +kernel

theorem word_append {front back : List Char} (whole : word front = front)
    (stops : word back = [])
    : word (front ++ back) = front := by
  induction front with
  | nil => exact stops
  | cons c rest ih =>
      rw [word] at whole
      split at whole
      · rename_i goesOn
        obtain ⟨-, wholeRest⟩ := List.cons.inj whole
        rw [List.cons_append, word, if_pos, ih wholeRest]
        rw [Bool.or_eq_true_iff, Bool.and_eq_true_iff] at goesOn ⊢
        rcases goesOn with plain | ⟨comma, digit⟩
        · exact Or.inl plain
        · refine Or.inr ⟨comma, ?_⟩
          cases rest with
          | nil => cases digit
          | cons d rest => exact digit
      · cases whole

/-- A piece of notation: a mark, the name of a function with the parenthesis after it, or a
word.
-/
inductive Piece
  | fixed (mark : Mark)
  | function (name : String)
  | word (chars : List Char)

/-- The beginning of a call by name. -/
def callOpening (name : String) : String :=
  textCommand (escapeText name) ++ "("

namespace Piece

/-- A piece as it is written. -/
def text : Piece → List Char
  | .fixed mark => mark.text.toList
  | .function name => (callOpening name).toList
  | .word chars => chars

/-- The terminals that a piece stands for. A word is a number if it begins with a digit. -/
def terminals : Piece → List Terminal
  | .fixed mark => mark.terminals
  | .function name => [⟨.function, name⟩, .opening]
  | .word chars =>
      [⟨if chars.head?.any Char.isDigit then .number else .reference, String.ofList chars⟩]

/-- Whether a piece may precede a text without running into it. Only a word and a closing
brace depend on what comes next.
-/
def Fits (piece : Piece) (rest : List Char) : Prop :=
  match piece with
  | .fixed mark => mark = .close → rest.head? ≠ some '\x7b' ∧ rest.head? ≠ some '^'
  | .function name => ∀ c ∈ name.toList, isPlain c = true
  | .word chars =>
      chars.head?.any isPlain = true ∧ Latex.word chars = chars ∧ Latex.word rest = []

end Piece

/-- A plain character has no meaning of its own, unless it is an underscore. -/
theorem ne_of_isPlain {c : Char} (plain : isPlain c = true)
    : ∀ d ∈ ['\\', '^', '~', '#', '$', '%', '&', '\x7b', '\x7d'], c ≠ d := by
  rintro d member rfl
  have never : ∀ d ∈ ['\\', '^', '~', '#', '$', '%', '&', '\x7b', '\x7d'],
      isPlain d = false := by
    simp [isPlain, IsPlainCode]
  rw [never c member] at plain
  cases plain

theorem escapeChar_of_isPlain {c : Char} (plain : isPlain c = true)
    : escapeChar c = if c = '_' then ['\\', '_'] else [c] := by
  have special := ne_of_isPlain plain
  simp only [List.forall_mem_cons] at special
  obtain ⟨backslash, caret, tilde, rest⟩ := special
  rw [escapeChar, if_neg backslash, if_neg caret, if_neg tilde]
  by_cases underscore : c = '_'
  · rw [underscore]
    decide
  · rw [if_neg underscore, if_neg (by simp [rest, underscore])]

theorem closing_not_mem_escape {chars : List Char} (plain : ∀ c ∈ chars, isPlain c = true)
    : '\x7d' ∉ chars.flatMap escapeChar := by
  intro member
  obtain ⟨c, inChars, escaped⟩ := List.mem_flatMap.mp member
  have plainChar := plain c inChars
  rw [escapeChar_of_isPlain plainChar] at escaped
  split at escaped
  · revert escaped
    decide
  · rw [List.mem_singleton] at escaped
    subst escaped
    revert plainChar
    decide

theorem backslash_not_isPlain : isPlain '\\' = false := by
  decide

theorem toList_callOpening (name : String)
    : (callOpening name).toList
        = "\\text\x7b".toList ++ (name.toList.flatMap escapeChar ++ "\x7d(".toList) := by
  simp [callOpening, textCommand, braced, escapeText]

/-- Names of plain characters are told apart by what they are written as. -/
theorem escape_injective {chars others : List Char} (plain : ∀ c ∈ chars, isPlain c = true)
    (otherPlain : ∀ c ∈ others, isPlain c = true)
    (same : chars.flatMap escapeChar = others.flatMap escapeChar)
    : chars = others := by
  induction chars generalizing others with
  | nil =>
      cases others with
      | nil => rfl
      | cons d others =>
          rw [List.flatMap_cons, escapeChar_of_isPlain (otherPlain d List.mem_cons_self)] at same
          split at same <;> cases same
  | cons c rest ih =>
      obtain ⟨first, restPlain⟩ := List.forall_mem_cons.mp plain
      rw [List.flatMap_cons, escapeChar_of_isPlain first] at same
      cases others with
      | nil => split at same <;> cases same
      | cons d others =>
          obtain ⟨otherFirst, othersPlain⟩ := List.forall_mem_cons.mp otherPlain
          rw [List.flatMap_cons, escapeChar_of_isPlain otherFirst] at same
          have peeled : c = d ∧ rest.flatMap escapeChar = others.flatMap escapeChar := by
            split at same <;> split at same
            · rename_i underscore otherUnderscore
              exact ⟨underscore.trans otherUnderscore.symm, by simpa using same⟩
            · obtain ⟨rfl, _⟩ := List.cons.inj same
              rw [backslash_not_isPlain] at otherFirst
              cases otherFirst
            · obtain ⟨rfl, _⟩ := List.cons.inj same
              rw [backslash_not_isPlain] at first
              cases first
            · exact List.cons.inj same
          obtain ⟨rfl, restSame⟩ := peeled
          rw [ih restPlain othersPlain restSame]

namespace Piece

theorem fixed_eq_of_begins {mark other : Mark} {rest otherRest : List Char}
    (fits : (fixed mark).Fits rest)
    (same : (fixed mark).text ++ rest = (fixed other).text ++ otherRest)
    (begins : mark.text.toList <+: other.text.toList)
    : mark = other := by
  rcases marks_apart mark mark.mem_all other other.mem_all begins with
    equal | ⟨rfl, rfl | rfl⟩
  · exact equal
  · have next : rest = '\x7b' :: otherRest := by
      simpa [text, Mark.text] using same
    exact absurd (by rw [next]; rfl) (fits rfl).1
  · have next : rest = '^' :: '\x7b' :: otherRest := by
      simpa [text, Mark.text] using same
    exact absurd (by rw [next]; rfl) (fits rfl).2

theorem head?_any_append {p : Char → Bool} {front : List Char}
    (begins : front.head?.any p = true) (back : List Char)
    : (front ++ back).head?.any p = true := by
  cases front with
  | nil => cases begins
  | cons c rest => exact begins

theorem ne_nil_of_head?_any {p : Char → Bool} {text : List Char}
    (begins : text.head?.any p = true)
    : text ≠ [] := by
  rintro rfl
  cases begins

/-- No word begins as other pieces do. -/
theorem ne_word {front chars rest otherRest : List Char}
    (begins : front.head?.any (fun c => !isPlain c) = true)
    (fits : (word chars).Fits otherRest)
    : front ++ rest ≠ (word chars).text ++ otherRest := by
  intro same
  have mark := head?_any_append begins rest
  have plain : ((word chars).text ++ otherRest).head?.any isPlain = true :=
    head?_any_append fits.1 otherRest
  rw [same] at mark
  cases head : ((word chars).text ++ otherRest).head? with
  | none =>
      rw [head] at plain
      cases plain
  | some c =>
      rw [head, Option.any_some] at mark plain
      rw [plain] at mark
      cases mark

theorem function_begins (name : String)
    : (function name).text.head?.any (fun c => !isPlain c) = true := by
  rw [text, toList_callOpening]
  exact head?_any_append (by decide) _

theorem fixed_ne_function {mark : Mark} {name : String} {rest otherRest : List Char}
    : (fixed mark).text ++ rest ≠ (function name).text ++ otherRest := by
  intro same
  obtain ⟨_, apart, otherApart⟩ := marks_begin mark mark.mem_all
  have otherBegins : "\\text\x7b".toList <+: mark.text.toList ++ rest := by
    rw [text, text, toList_callOpening, List.append_assoc] at same
    rw [same]
    exact List.prefix_append _ _
  rcases List.prefix_or_prefix_of_prefix (List.prefix_append _ rest) otherBegins with
    before | after
  · exact apart before
  · exact otherApart after

theorem ne_nil {piece : Piece} {rest : List Char} (fits : piece.Fits rest)
    : piece.text ≠ [] := by
  cases piece with
  | fixed mark => exact ne_nil_of_head?_any (marks_begin mark mark.mem_all).1
  | function name => exact ne_nil_of_head?_any (function_begins name)
  | word chars => exact ne_nil_of_head?_any fits.1

theorem takeWhile_escape {chars : List Char} (plain : ∀ c ∈ chars, isPlain c = true)
    (rest : List Char)
    : (chars.flatMap escapeChar ++ ("\x7d(".toList ++ rest)).takeWhile (fun c => c != '\x7d')
        = chars.flatMap escapeChar := by
  rw [List.takeWhile_append_of_pos]
  · simp
  · intro c member
    rw [bne_iff_ne]
    rintro rfl
    exact closing_not_mem_escape plain member

theorem function_eq {name other : String} {rest otherRest : List Char}
    (fits : (function name).Fits rest) (otherFits : (function other).Fits otherRest)
    (same : (function name).text ++ rest = (function other).text ++ otherRest)
    : name = other := by
  simp only [text, toList_callOpening, List.append_assoc, List.append_cancel_left_eq] at same
  have escaped := congrArg (List.takeWhile fun c => c != '\x7d') same
  rw [takeWhile_escape fits, takeWhile_escape otherFits] at escaped
  exact String.toList_inj.mp (escape_injective fits otherFits escaped)

theorem word_eq {chars others rest otherRest : List Char} (fits : (word chars).Fits rest)
    (otherFits : (word others).Fits otherRest)
    (same : (word chars).text ++ rest = (word others).text ++ otherRest)
    : chars = others := by
  obtain ⟨_, whole, stops⟩ := fits
  obtain ⟨_, otherWhole, otherStops⟩ := otherFits
  have first := word_append whole stops
  have second := word_append otherWhole otherStops
  simp only [text] at same
  rw [← first, same, second]

/-- A text begins with at most one piece. -/
theorem unique {piece other : Piece} {rest otherRest : List Char} (fits : piece.Fits rest)
    (otherFits : other.Fits otherRest) (same : piece.text ++ rest = other.text ++ otherRest)
    : piece = other ∧ rest = otherRest := by
  have equal : piece = other := by
    cases piece with
    | fixed mark =>
        cases other with
        | fixed otherMark =>
            congr 1
            rcases List.prefix_or_prefix_of_prefix (List.prefix_append _ rest)
              (same ▸ List.prefix_append _ otherRest) with begins | begins
            · exact fixed_eq_of_begins fits same begins
            · exact (fixed_eq_of_begins otherFits same.symm begins).symm
        | function name => exact absurd same fixed_ne_function
        | word chars => exact absurd same (ne_word (marks_begin mark mark.mem_all).1 otherFits)
    | function name =>
        cases other with
        | fixed mark => exact absurd same.symm fixed_ne_function
        | function otherName => rw [function_eq fits otherFits same]
        | word chars => exact absurd same (ne_word (function_begins name) otherFits)
    | word chars =>
        cases other with
        | fixed mark =>
            exact absurd same.symm (ne_word (marks_begin mark mark.mem_all).1 fits)
        | function name => exact absurd same.symm (ne_word (function_begins name) fits)
        | word others => rw [word_eq fits otherFits same]
  subst equal
  exact ⟨rfl, List.append_cancel_left same⟩

end Piece

/-- A text is a sequence of pieces that stand for terminals. -/
inductive Reads : List Char → List Terminal → Prop
  | nil : Reads [] []
  | cons {piece : Piece} {rest terminals} (fits : piece.Fits rest)
    (reads : Reads rest terminals)
    : Reads (piece.text ++ rest) (piece.terminals ++ terminals)

/-- A text stands for one sequence of terminals at most. -/
theorem Reads.unique {text : List Char} {terminals others : List Terminal}
    (reads : Reads text terminals) (otherReads : Reads text others)
    : terminals = others := by
  induction reads generalizing others with
  | nil =>
      generalize empty : ([] : List Char) = text at otherReads
      cases otherReads with
      | nil => rfl
      | cons fits _ => exact absurd (List.append_eq_nil_iff.mp empty.symm).1 (Piece.ne_nil fits)
  | @cons piece rest terminals fits reads ih =>
      generalize same : piece.text ++ rest = text at otherReads
      cases otherReads with
      | nil => exact absurd (List.append_eq_nil_iff.mp same).1 (Piece.ne_nil fits)
      | cons otherFits otherReads =>
          obtain ⟨rfl, rfl⟩ := Piece.unique fits otherFits same
          rw [ih otherReads]

end FormulaLatex.Latex
