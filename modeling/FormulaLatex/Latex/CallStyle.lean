import FormulaLatex.Latex.Escape
import FormulaLatex.Text.UpperCase

/-! How calls of functions are written. A few functions have a notation of their own, under
their English and their Portuguese names; all others are written by name.
-/

namespace FormulaLatex.Latex

/-- The notation of a function that has one of its own. -/
inductive CallStyle
  /-- A root over the first argument. -/
  | radical
  /-- A line over all arguments. -/
  | overline
  /-- Bars around the first argument. -/
  | absoluteValue
  /-- A command before the first argument in parentheses. -/
  | trigonometric (command : String)
  /-- Two cases: a condition, the value under it, and the value otherwise if there is one. -/
  | conditional
  /-- The first argument alone. -/
  | passThrough
  deriving DecidableEq, Repr

/-- The functions with a notation of their own. Rounding and conversions between degrees and
radians do not change what a formula says and are passed over.
-/
def callStyles : List (String × CallStyle) :=
  [("SQRT", .radical), ("RAIZ", .radical),
   ("AVERAGE", .overline), ("MEDIA", .overline), ("MÉDIA", .overline),
   ("ABS", .absoluteValue),
   ("SIN", .trigonometric "\\sin"), ("SEN", .trigonometric "\\sin"),
   ("SENO", .trigonometric "\\sin"),
   ("COS", .trigonometric "\\cos"), ("TAN", .trigonometric "\\tan"),
   ("SE", .conditional), ("IF", .conditional),
   ("ARRED", .passThrough), ("ROUND", .passThrough), ("ROUNDUP", .passThrough),
   ("ROUNDDOWN", .passThrough), ("RADIANOS", .passThrough), ("RADIANS", .passThrough)]

/-- The notation of the function with a given name, in whatever case, if it has one. -/
def callStyle? (name : String) : Option CallStyle :=
  callStyles.lookup (Text.upperCase name)

/-- A call by name. -/
def namedCall (name : String) (arguments : List String) : String :=
  textCommand (escapeText name) ++ "(" ++ ", ".intercalate arguments ++ ")"

/-- One line of a case distinction: a value and what it is subject to. -/
def caseLine (value subject : String) : String :=
  value ++ " & " ++ subject

/-- The block of cases with given arguments. A question mark stands for a condition or a
value that is missing; arguments after the third are left out.
-/
def caseBlock (arguments : List String) : String :=
  let condition := arguments[0]?.getD "?"
  let value := arguments[1]?.getD "?"
  let lines :=
    caseLine value (textCommand "if " ++ " " ++ condition) ::
      arguments[2]?.toList.map fun otherwise => caseLine otherwise (textCommand "otherwise")
  "\\begin\x7bcases\x7d " ++ " \\\\ ".intercalate lines ++ " \\end\x7bcases\x7d"

/-- A call in the notation of its own, given its arguments as they are written. -/
def CallStyle.apply (style : CallStyle) (arguments : List String) : String :=
  let first := arguments.head?.getD ""
  match style with
  | .radical => "\\sqrt" ++ braced first
  | .overline =>
      "\\overline" ++ braced (if arguments.isEmpty then "x" else ", ".intercalate arguments)
  | .absoluteValue => "\\left| " ++ first ++ " \\right|"
  | .trigonometric command => command ++ "\\left(" ++ first ++ "\\right)"
  | .conditional => caseBlock arguments
  | .passThrough => first

/-- A call, given its arguments as they are written. -/
def call (name : String) (arguments : List String) : String :=
  match callStyle? name with
  | some style => style.apply arguments
  | none => namedCall name arguments

end FormulaLatex.Latex
