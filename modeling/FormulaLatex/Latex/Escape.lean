/-! Plain text inside LaTeX. -/

namespace FormulaLatex.Latex

/-- A text between braces. -/
def braced (text : String) : String :=
  "\x7b" ++ text ++ "\x7d"

/-- A character that stands for itself in LaTeX text. Characters with a meaning of their own
are written as commands, and those that are accents get nothing to stand on.
-/
def escapeChar (c : Char) : List Char :=
  if c = '\\' then "\\textbackslash\x7b\x7d".toList
  else if c = '^' then "\\^\x7b\x7d".toList
  else if c = '~' then "\\~\x7b\x7d".toList
  else if c ∈ ['#', '$', '%', '&', '_', '\x7b', '\x7d'] then ['\\', c]
  else [c]

/-- A text that stands for itself in LaTeX text. -/
def escapeText (text : String) : String :=
  String.ofList (text.toList.flatMap escapeChar)

/-- Upright text inside a formula. -/
def textCommand (text : String) : String :=
  "\\text" ++ braced text

/-- Notation in a displayed equation of its own. -/
def wrapEquation (latex : String) : String :=
  "\\begin\x7bequation\x7d " ++ latex ++ " \\end\x7bequation\x7d"

end FormulaLatex.Latex
