import FormulaLatex.CommandLine.Respond

/-! The program: it reads the file that its command line asks for, and prints its answer. -/

namespace FormulaLatex.CommandLine

/-- The content of a file, if it can be read. -/
def readContent? (path : String) : IO (Option ByteArray) := do
  try
    return some (← IO.FS.readBinFile path)
  catch _ =>
    return none

end FormulaLatex.CommandLine

open FormulaLatex

/-- Answers a command line. -/
def main (arguments : List String) : IO UInt32 := do
  let content ← match CommandLine.fileOf? arguments with
    | none => pure none
    | some path => CommandLine.readContent? path
  let outcome := CommandLine.respond (fun _ => content) arguments
  IO.print outcome.output
  IO.eprint outcome.report
  return outcome.exitCode
