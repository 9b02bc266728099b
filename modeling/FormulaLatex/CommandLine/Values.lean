import FormulaLatex.Options.Json
import FormulaLatex.Text.Blank

/-! The values of options on the command line. -/

namespace FormulaLatex.CommandLine

open Text

/-- A text split at its first equals sign, if it has one. -/
def splitAtEquals? (text : List Char) : Option (List Char × List Char) :=
  match text.dropWhile fun c => c != '=' with
  | _ :: rest => some (text.takeWhile fun c => c != '=', rest)
  | [] => none

/-- The reference and the symbol of a rename, or why the value gives none. White space around
the reference has no meaning; the symbol is everything after the first equals sign.
-/
def parseRename (value : String) : Except String (String × String) :=
  match splitAtEquals? value.toList with
  | none => .error ("expected REF=SYMBOL, got '" ++ value ++ "'")
  | some (reference, symbol) =>
      if (trim reference).isEmpty then
        .error ("missing cell reference in '" ++ value ++ "'")
      else .ok (String.ofList (trim reference), String.ofList symbol)

/-- A natural number below a bound with further digits, of which the first that is no digit or
leads to the bound is reported.
-/
def parseDigits (bound : Nat) : Nat → List Char → Except String Nat
  | value, [] => .ok value
  | value, c :: rest =>
      if c.isDigit then
        let value := value * 10 + (c.toNat - '0'.toNat)
        if value < bound then parseDigits bound value rest
        else .error "number too large to fit in target type"
      else .error "invalid digit found in string"

/-- A natural number below a bound, or why the value is none. A plus sign may precede it. -/
def parseNatBelow (bound : Nat) (value : String) : Except String Nat :=
  match value.toList with
  | [] => .error "cannot parse integer from empty string"
  | ['+'] => .error "invalid digit found in string"
  | '+' :: digits => parseDigits bound 0 digits
  | digits => parseDigits bound 0 digits

end FormulaLatex.CommandLine
