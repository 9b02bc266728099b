import FormulaLatex.CommandLine.Arguments

/-! What a whole command line asks for. -/

namespace FormulaLatex.CommandLine

/-- What the program is asked to do. -/
inductive Request
  /-- Explain itself. -/
  | help
  /-- Explain itself, because nothing was asked for. -/
  | usage
  /-- Name its version. -/
  | version
  /-- Follow a subcommand on a formula. -/
  | run (subcommand : Subcommand) (formula : String) (arguments : Arguments)

namespace Request

/-- The request of a subcommand with its arguments. -/
def ofSubcommand (subcommand : Subcommand) (arguments : List String)
    : Except UsageError Request :=
  match Arguments.ofList subcommand arguments with
  | .error .help => .ok .help
  | .error (.error error) => .error error
  | .ok arguments =>
      match arguments.formula? with
      | none => .error .missingFormula
      | some formula => .ok (.run subcommand formula arguments)

/-- The request for help, perhaps on a subcommand. -/
def ofHelp : List String → Except UsageError Request
  | [] => .ok .help
  | name :: rest =>
      if name = "help" ∨ (Subcommand.ofName? name).isSome then
        match rest with
        | [] => .ok .help
        | extra :: _ => .error (.unrecognizedSubcommand extra)
      else .error (.unrecognizedSubcommand name)

/-- The request of a long setting in place of a subcommand. -/
def ofLong (name : String) (value? : Option String) : Except UsageError Request :=
  if name = "help" ∨ name = "version" then
    match value? with
    | some value => .error (.unexpectedValue value ("--" ++ name))
    | none => .ok (if name = "help" then .help else .version)
  else .error (.unexpectedArgument ("--" ++ name))

/-- The request of a letter in place of a subcommand. -/
def ofShort (letter : Char) : Except UsageError Request :=
  match letter with
  | 'h' => .ok .help
  | 'V' => .ok .version
  | _ => .error (.unexpectedArgument (String.ofList ['-', letter]))

/-- The request of the words after two hyphens, where no subcommand can stand. -/
def ofTrailing : List String → Except UsageError Request
  | [] => .ok .usage
  | word :: _ =>
      if word = "help" ∨ (Subcommand.ofName? word).isSome then
        .error (.unexpectedArgument word)
      else .error (.unrecognizedSubcommand word)

/-- The request of a command line. -/
def ofList : List String → Except UsageError Request
  | [] => .ok .usage
  | "--" :: rest => ofTrailing rest
  | "help" :: rest => ofHelp rest
  | word :: rest =>
      match Subcommand.ofName? word with
      | some subcommand => ofSubcommand subcommand rest
      | none =>
          match word.toList with
          | '-' :: '-' :: name =>
              match splitAtEquals? name with
              | none => ofLong (String.ofList name) none
              | some (name, value) => ofLong (String.ofList name) (some (String.ofList value))
          | '-' :: letter :: _ => ofShort letter
          | _ => .error (.unrecognizedSubcommand word)

end Request

end FormulaLatex.CommandLine
