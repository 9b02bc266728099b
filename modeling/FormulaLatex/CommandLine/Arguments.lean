import FormulaLatex.CommandLine.Setting
import FormulaLatex.CommandLine.UsageError
import FormulaLatex.CommandLine.Values

/-! The arguments of a subcommand.

Arguments are read from left to right. An option takes its value from the same argument or
from the next one; in the latter case the value is looked at only when the next setting or the
formula is read, or at the end, so that an unknown argument is reported before it.
-/

namespace FormulaLatex.CommandLine

/-- What the arguments of a subcommand say. -/
structure Arguments where
  formula? : Option String := none
  options : ConvertOptions := {}
  renames : List (String × String) := []
  renameFile? : Option String := none
  equation : Bool := false
  check : Bool := false
  given : List Setting := []

/-- Why reading the arguments stops before their end. -/
inductive Interruption
  | help
  | error (error : UsageError)

namespace Arguments

/-- The value that a choice names, where an empty value counts as none. -/
def choice {α : Type} (choices : List (String × α)) (option : ValueOption) (value : String)
    : Except UsageError α :=
  match choices.lookup value with
  | some choice => .ok choice
  | none =>
      if value.isEmpty then .error (.missingValue (Setting.option option).display)
      else .error (.invalidChoice value (Setting.option option).display)

/-- The arguments with the value of an option. -/
def withOption (arguments : Arguments) (option : ValueOption) (value : String)
    : Except UsageError Arguments :=
  let options := arguments.options
  let invalid := UsageError.invalidValue value (Setting.option option).display
  match option with
  | .rename => do
      let rename ← (parseRename value).mapError invalid
      return { arguments with renames := arguments.renames ++ [rename] }
  | .renameFile =>
      if value.isEmpty then .error (.missingValue (Setting.option option).display)
      else .ok { arguments with renameFile? := some value }
  | .decimal => do
      let decimalStyle ← choice DecimalStyle.choices option value
      return { arguments with options := { options with render := { decimalStyle } } }
  | .separators => do
      let decimalSeparators ← choice DecimalSeparators.choices option value
      let tokenizer := { options.tokenizer with decimalSeparators }
      return { arguments with options := { options with tokenizer } }
  | .maxDepth => do
      let maxDepth ← (parseNatBelow ReaderOptions.depthBound value).mapError invalid
      let reader := { options.reader with maxDepth }
      return { arguments with options := { options with reader } }

/-- The arguments with a flag. -/
def withFlag (arguments : Arguments) (flag : Flag) : Except Interruption Arguments :=
  let options := arguments.options
  match flag with
  | .help => .error .help
  | .quick => .ok { arguments with options := { options with mode := .quick } }
  | .equation => .ok { arguments with equation := true }
  | .strictOperators =>
      let tokenizer := { options.tokenizer with comparisons := false }
      .ok { arguments with options := { options with tokenizer } }
  | .rightAssocPower =>
      let reader := { options.reader with powerAssociativity := .right }
      .ok { arguments with options := { options with reader } }
  | .check => .ok { arguments with check := true }

/-- The arguments in which a setting is marked as given, unless it is already and cannot be
given again.
-/
def markGiven (arguments : Arguments) (setting : Setting) : Except UsageError Arguments :=
  if setting ∈ arguments.given ∧ setting ≠ .option .rename then
    .error (.repeatedSetting setting.display)
  else .ok { arguments with given := setting :: arguments.given }

end Arguments

/-- The arguments read so far, and the last option if its value was not in the same argument,
with the value once it has been read.
-/
structure ArgumentReading where
  arguments : Arguments := {}
  pending? : Option (ValueOption × Option String) := none

namespace ArgumentReading

/-- The reading after an option with its value, if it has one. -/
def giveOption (arguments : Arguments) (option : ValueOption) (value? : Option String)
    : Except Interruption ArgumentReading :=
  match value? with
  | none => .error (.error (.missingValue (Setting.option option).display))
  | some value => do
      let marked ← (arguments.markGiven (.option option)).mapError .error
      return { arguments := ← (marked.withOption option value).mapError .error }

/-- The reading after the pending option, if there is one, has been dealt with. -/
def settle (reading : ArgumentReading) : Except Interruption ArgumentReading :=
  match reading.pending? with
  | none => .ok reading
  | some (option, value?) => giveOption reading.arguments option value?

/-- The reading after a flag. -/
def readFlag (reading : ArgumentReading) (flag : Flag)
    : Except Interruption ArgumentReading := do
  let settled ← reading.settle
  let marked ← (settled.arguments.markGiven (.flag flag)).mapError .error
  return { arguments := ← marked.withFlag flag }

/-- The reading after an option. Without a value in the same argument, the value is due. -/
def readOption (reading : ArgumentReading) (option : ValueOption) (value? : Option String)
    : Except Interruption ArgumentReading := do
  let settled ← reading.settle
  match value? with
  | none => return { settled with pending? := some (option, none) }
  | some _ => giveOption settled.arguments option value?

/-- The reading after the name of a setting, and what follows an equals sign after it. -/
def readLong (subcommand : Subcommand) (reading : ArgumentReading) (name : String)
    (value? : Option String)
    : Except Interruption ArgumentReading :=
  match subcommand.settings.find? fun setting => setting.long == name, value? with
  | none, _ => .error (.error (.unexpectedArgument ("--" ++ name)))
  | some (.flag flag), some value =>
      .error (.error (.unexpectedValue value (Setting.flag flag).display))
  | some (.flag flag), none => reading.readFlag flag
  | some (.option option), _ => reading.readOption option value?

/-- The reading after letters of settings. The letters after that of an option are its value,
with or without an equals sign in front.
-/
def readShort (subcommand : Subcommand) (reading : ArgumentReading)
    : List Char → Except Interruption ArgumentReading
  | [] => .ok reading
  | letter :: rest =>
      match subcommand.settings.find? fun setting => setting.short? == some letter with
      | none => .error (.error (.unexpectedArgument (String.ofList ['-', letter])))
      | some (.flag flag) => do readShort subcommand (← reading.readFlag flag) rest
      | some (.option option) =>
          match rest with
          | [] => reading.readOption option none
          | '=' :: value => reading.readOption option (some (String.ofList value))
          | value => reading.readOption option (some (String.ofList value))

/-- The reading after the formula. -/
def readFormula (reading : ArgumentReading) (text : String)
    : Except Interruption ArgumentReading :=
  match reading.arguments.formula? with
  | some _ => .error (.error (.unexpectedArgument text))
  | none => do
      let settled ← reading.settle
      return { settled with arguments := { settled.arguments with formula? := some text } }

/-- The reading after an argument without a hyphen in front: the value of an option that is
due, or the formula.
-/
def readPlain (reading : ArgumentReading) (text : String)
    : Except Interruption ArgumentReading :=
  match reading.pending? with
  | some (option, none) => .ok { reading with pending? := some (option, some text) }
  | _ => reading.readFormula text

/-- The reading after one more argument. A hyphen by itself is no setting. -/
def readArgument (subcommand : Subcommand) (reading : ArgumentReading) (argument : String)
    : Except Interruption ArgumentReading :=
  match argument.toList with
  | '-' :: '-' :: name =>
      match splitAtEquals? name with
      | none => reading.readLong subcommand (String.ofList name) none
      | some (name, value) =>
          reading.readLong subcommand (String.ofList name) (some (String.ofList value))
  | '-' :: letter :: rest => reading.readShort subcommand (letter :: rest)
  | _ => reading.readPlain argument

/-- The reading after all arguments. After two hyphens nothing is a setting. -/
def readAll (subcommand : Subcommand) (reading : ArgumentReading)
    : List String → Except Interruption ArgumentReading
  | [] => reading.settle
  | "--" :: rest => do (← rest.foldlM readFormula reading).settle
  | argument :: rest => do readAll subcommand (← reading.readArgument subcommand argument) rest

end ArgumentReading

/-- What the arguments of a subcommand say. -/
def Arguments.ofList (subcommand : Subcommand) (arguments : List String)
    : Except Interruption Arguments := do
  return (← ArgumentReading.readAll subcommand {} arguments).arguments

end FormulaLatex.CommandLine
