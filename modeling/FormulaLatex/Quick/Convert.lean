import FormulaLatex.Quick.Typeset

/-! Quick conversion: the text of a formula is typeset in place, without reading it as an
expression. Calls of a few functions and a few operators get their notation, white space is
tidied, and all other text is kept.
-/

namespace FormulaLatex.Quick

open Text

/-- A text with the parentheses that stand-ins stand for. -/
def restoreParentheses (text : List Char) : List Char :=
  text.map fun c =>
    if c = Function.keptOpening then '('
    else if c = Function.keptClosing then ')'
    else c

/-- A text in which two characters in a row are replaced by other text, the leftmost first. -/
def replacePair (first second : Char) (replacement : List Char) : List Char → List Char
  | [] => []
  | [c] => [c]
  | c :: d :: rest =>
      if c = first ∧ d = second then
        replacement ++ replacePair first second replacement rest
      else c :: replacePair first second replacement (d :: rest)

/-- A text in which operators that LaTeX writes as commands are replaced by them. -/
def replaceOperators (text : List Char) : List Char :=
  let text := replacePair '<' '>' [' ', '\\', 'n', 'e', 'q', ' '] text
  let text := replacePair '<' '=' [' ', '\\', 'l', 'e', 'q', ' '] text
  let text := replacePair '>' '=' [' ', '\\', 'g', 'e', 'q', ' '] text
  text.flatMap fun c => if c = '*' then [' ', '\\', 'c', 'd', 'o', 't', ' '] else [c]

/-- The text of a formula that is typeset: without the white space around it, one equals
sign at its beginning, and all dollar signs.
-/
def formulaText (formula : List Char) : List Char :=
  let text :=
    match trim formula with
    | '=' :: rest => rest
    | text => text
  text.filter fun c => c != '$'

/-- The notation of a formula by typesetting its text in place. -/
def convert (formula : String) : String :=
  let text := settle (formulaText formula.toList)
  String.ofList (collapseBlanks (trim (replaceOperators (restoreParentheses text))))

end FormulaLatex.Quick
