/-! The command line's vocabulary: subcommands, flags, and options with a value. -/

namespace FormulaLatex.CommandLine

/-- What the program can be asked to do with a formula: convert it, list the cells that it
refers to, or list its tokens.
-/
inductive Subcommand
  | convert
  | vars
  | tokens
  deriving DecidableEq, Repr

/-- The subcommands by name. -/
def Subcommand.ofName? : String → Option Subcommand
  | "convert" => some .convert
  | "vars" => some .vars
  | "tokens" => some .tokens
  | _ => none

/-- A setting without a value, which can be given once. -/
inductive Flag
  | help
  | quick
  | equation
  | strictOperators
  | rightAssocPower
  | check
  deriving DecidableEq, Repr

/-- A setting with a value. Only renames can be given more than once. -/
inductive ValueOption
  | rename
  | renameFile
  | decimal
  | separators
  | maxDepth
  deriving DecidableEq, Repr

/-- Anything that begins with a hyphen on the command line. -/
inductive Setting
  | flag (flag : Flag)
  | option (option : ValueOption)
  deriving DecidableEq, Repr

namespace Setting

/-- The name after two hyphens. -/
def long : Setting → String
  | .flag .help => "help"
  | .flag .quick => "quick"
  | .flag .equation => "equation"
  | .flag .strictOperators => "strict-operators"
  | .flag .rightAssocPower => "right-assoc-power"
  | .flag .check => "check"
  | .option .rename => "rename"
  | .option .renameFile => "rename-file"
  | .option .decimal => "decimal"
  | .option .separators => "separators"
  | .option .maxDepth => "max-depth"

/-- The letter after one hyphen, for settings that have one. -/
def short? : Setting → Option Char
  | .flag .help => some 'h'
  | .flag .quick => some 'q'
  | .flag .equation => some 'e'
  | .option .rename => some 'r'
  | _ => none

/-- The setting as it is named in reports, with a placeholder for its value. -/
def display (setting : Setting) : String :=
  "--" ++ setting.long ++
    match setting with
    | .flag _ => ""
    | .option .rename => " <REF=SYMBOL>"
    | .option .renameFile => " <FILE>"
    | .option .decimal => " <DECIMAL>"
    | .option .separators => " <SEPARATORS>"
    | .option .maxDepth => " <MAX_DEPTH>"

end Setting

/-- The settings that a subcommand knows. All know those on how a formula is split. -/
def Subcommand.settings : Subcommand → List Setting
  | .convert =>
      [.flag .help, .option .rename, .option .renameFile, .flag .quick, .flag .equation,
       .option .decimal, .option .separators, .flag .strictOperators, .flag .rightAssocPower,
       .option .maxDepth, .flag .check]
  | .vars | .tokens => [.flag .help, .option .separators, .flag .strictOperators]

end FormulaLatex.CommandLine
