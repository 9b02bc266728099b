import FormulaLatex.CommandLine.Request
import FormulaLatex.Convert
import FormulaLatex.RenameTable.Json

/-! The program's answer to a command line. Nothing is read or written here: the content of a
file comes as an argument, and the answer is a value.
-/

namespace FormulaLatex.CommandLine

/-- What the program leaves behind: its exit code, its output, and its report of errors. -/
structure Outcome where
  exitCode : UInt32 := 0
  output : String := ""
  report : String := ""
  deriving DecidableEq, Repr

/-- A text as a line. -/
def line (text : String) : String :=
  text ++ "\n"

/-- Texts as lines. -/
def lines (texts : List String) : String :=
  String.join (texts.map line)

/-- What the program says about its version. -/
def versionText : String :=
  "cellmath 0.1.0\n"

/-- What the program says about its use. -/
def helpText : String :=
  lines
    ["Convert spreadsheet formulas into LaTeX notation",
     "",
     "Usage: cellmath <COMMAND>",
     "",
     "Commands:",
     "  convert  Convert a formula and print the LaTeX notation",
     "  vars     List the cell references used by a formula",
     "  tokens   Print the tokens of a formula",
     "  help     Print this message",
     "",
     "Options of convert:",
     "  -r, --rename <REF=SYMBOL>      Display symbol for a cell reference (repeatable)",
     "      --rename-file <FILE>       JSON file with a rename table",
     "  -q, --quick                    Typeset the text without reading the formula",
     "  -e, --equation                 Wrap the output in an equation environment",
     "      --decimal <DECIMAL>        Decimal separator to write: comma, point, preserve",
     "      --right-assoc-power        Group chains of ^ from the right",
     "      --max-depth <MAX_DEPTH>    Maximum nesting depth",
     "      --check                    Fail instead of printing error notation",
     "",
     "Options of all commands:",
     "      --separators <SEPARATORS>  Decimal separators to accept: both, point, comma",
     "      --strict-operators         Reject the comparison characters = < >",
     "  -h, --help                     Print help",
     "  -V, --version                  Print version"]

/-- The rename table of a conversion: that of a file, if one is named, and then the renames on
the command line, which take precedence.
-/
def renameTable (content : String → Option ByteArray) (arguments : Arguments)
    : Except (String × RenameTable.FileError) RenameTable := do
  let table ←
    match arguments.renameFile? with
    | none => .ok RenameTable.empty
    | some path => (RenameTable.ofFile (content path)).mapError fun error => (path, error)
  return table.insertAll arguments.renames

/-- The answer to a conversion, given the rename table. With `check` an error ends the program;
otherwise its notation is printed.
-/
def convertFormula (formula : String) (table : RenameTable) (arguments : Arguments) : Outcome :=
  let print := fun latex : String =>
    { output := line (if arguments.equation then Latex.wrapEquation latex else latex) : Outcome }
  match tryConvert formula table arguments.options with
  | .ok latex => print latex
  | .error error =>
      if arguments.check then
        { exitCode := 1
          report := line ("Error: Failed to convert '" ++ formula ++ "': " ++ error.message) }
      else print error.toLatex

/-- The answer to a request for the names in a formula. -/
def listReferences (formula : String) (options : TokenizerOptions) : Outcome :=
  { output := lines (detectReferences formula options) }

/-- A token in a listing: its kind and its text with a tab between them. -/
def listing (token : Token) : String :=
  token.kind.name ++ "\t" ++ token.text

/-- The answer to a request for the tokens of a formula. -/
def listTokens (formula : String) (options : TokenizerOptions) : Outcome :=
  let tokens := tokenize formula options
  { output := lines (tokens.map listing)
    report := if tokens.isEmpty then line "Warning: Formula is empty" else "" }

/-- The answer to a subcommand. -/
def run (content : String → Option ByteArray) (subcommand : Subcommand) (formula : String)
    (arguments : Arguments)
    : Outcome :=
  match subcommand with
  | .vars => listReferences formula arguments.options.tokenizer
  | .tokens => listTokens formula arguments.options.tokenizer
  | .convert =>
      match renameTable content arguments with
      | .ok table => convertFormula formula table arguments
      | .error (path, error) =>
          { exitCode := 1
            report := lines
              ["Error: Failed to load renames from '" ++ path ++ "'",
               "", "Caused by:", "    " ++ error.message] }

/-- The answer to a command line, where `content` gives the content of a file, if the file
exists.
-/
def respond (content : String → Option ByteArray) (arguments : List String) : Outcome :=
  match Request.ofList arguments with
  | .ok .help => { output := helpText }
  | .ok .usage => { exitCode := 2, report := helpText }
  | .ok .version => { output := versionText }
  | .ok (.run subcommand formula arguments) => run content subcommand formula arguments
  | .error error =>
      { exitCode := 2
        report := lines
          ["error: " ++ error.message, "", "For more information, try '--help'."] }

/-- The file that a command line asks for, if it asks for one. -/
def fileOf? (arguments : List String) : Option String :=
  match Request.ofList arguments with
  | .ok (.run _ _ arguments) => arguments.renameFile?
  | _ => none

end FormulaLatex.CommandLine
