/-! What can be wrong with a command line, and how it is reported. -/

namespace FormulaLatex.CommandLine

/-- Why a command line cannot be followed. Settings are named as they are displayed. -/
inductive UsageError
  /-- The word at the place of a subcommand is none. -/
  | unrecognizedSubcommand (name : String)
  /-- An argument has no meaning where it stands. -/
  | unexpectedArgument (argument : String)
  /-- A flag has a value. -/
  | unexpectedValue (value setting : String)
  /-- A setting is given twice. -/
  | repeatedSetting (setting : String)
  /-- An option has no value. -/
  | missingValue (setting : String)
  /-- The value of an option is none of its choices. -/
  | invalidChoice (value setting : String)
  /-- The value of an option cannot be read. -/
  | invalidValue (value setting reason : String)
  /-- There is no formula. -/
  | missingFormula
  deriving DecidableEq, Repr

/-- The report of a usage error. -/
def UsageError.message : UsageError → String
  | .unrecognizedSubcommand name => "unrecognized subcommand '" ++ name ++ "'"
  | .unexpectedArgument argument => "unexpected argument '" ++ argument ++ "' found"
  | .unexpectedValue value setting =>
      "unexpected value '" ++ value ++ "' for '" ++ setting ++
        "' found; no more were expected"
  | .repeatedSetting setting =>
      "the argument '" ++ setting ++ "' cannot be used multiple times"
  | .missingValue setting =>
      "a value is required for '" ++ setting ++ "' but none was supplied"
  | .invalidChoice value setting => "invalid value '" ++ value ++ "' for '" ++ setting ++ "'"
  | .invalidValue value setting reason =>
      "invalid value '" ++ value ++ "' for '" ++ setting ++ "': " ++ reason
  | .missingFormula => "the following required arguments were not provided:\n  <FORMULA>"

end FormulaLatex.CommandLine
